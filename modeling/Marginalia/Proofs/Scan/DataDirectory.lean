import Marginalia.Proofs.Files.Names
import Marginalia.Proofs.Scan.Found
import Marginalia.Scan.Listing

/-!
# The data directory in scans

A scan passes over what lies below the data directory by a pattern that is made from the setting as
it is written, while the files of the data directory are where its path leads. The two agree if and
only if the setting is the plain spelling of the place, up to slashes at the ends.
-/

namespace Marginalia

/-- One place lies below another one. -/
def Place.Below (place other : Place) : Prop := ∃ more, more ≠ [] ∧ other = place ++ more

/-- The name of a file in a listing. -/
def PlainFile (name : String) : Prop :=
  ∃ names, names ≠ [] ∧ (∀ part ∈ names, PlainName part) ∧ name = "/".intercalate names

/-- The setting of the data directory, which lies inside the root. -/
structure Config.DataInside (config : Config) (current : Place) (spelling : String)
    (inner : List String) : Prop where
  text : config.dataDir = .text spelling
  place : (config.root.child spelling).placeFrom current = config.root.placeFrom current ++ inner
  strict : inner ≠ []

/-- The pattern for what lies below the data directory. -/
def Config.dataPattern (spelling : String) : List Char := Path.bare spelling.toList ++ ['/']

variable {config : Config} {current : Place} {spelling name : String} {inner names : List String}

-- ---------------------------------------------------------------------------
-- The pattern
-- ---------------------------------------------------------------------------

theorem excludes_slash (path front : List Char) :
    excludes path (front ++ ['/']) = (front ++ ['/']).isPrefixOf path := by
  cases h : front ++ ['/'] with
  | nil => simp at h
  | cons c rest =>
    have hlast : (c :: rest).getLast? = some '/' := by rw [← h, List.getLast?_concat]
    simp [excludes, hlast]

theorem Scanner.ofConfig_ignore {tags : Option Data} (htext : config.dataDir = .text spelling)
    (hbare : Path.bare spelling.toList ≠ []) (h : Scanner.ofConfig config tags = .ok scanner) :
    scanner.ignore = config.ignore ++ [String.ofList (Config.dataPattern spelling)] := by
  unfold Scanner.ofConfig at h
  rw [htext] at h
  obtain ⟨_, hspelling, h⟩ := bind_ok.mp h
  cases hspelling
  obtain ⟨tags, -, h⟩ := bind_ok.mp h
  cases h
  have hempty : (Path.bare spelling.toList).isEmpty = false := by simpa using hbare
  simp only [Path.bare] at hempty
  simp only [Scanner.ofTags, hempty, Config.dataPattern, Path.bare]
  rfl

theorem PlainFile.below_iff (hplain : ∀ part ∈ names, PlainName part) (hnames : names ≠ [])
    (h : config.DataInside current spelling inner) :
    ((config.root.child spelling).placeFrom current).Below
        ((config.root.child ("/".intercalate names)).placeFrom current) ↔
      ∃ more, more ≠ [] ∧ names = inner ++ more := by
  rw [h.place, Path.placeFrom_child_plain hplain hnames]
  simp only [Place.Below, List.append_assoc, List.append_cancel_left_eq]

/-- A setting that is spelled plainly makes a pattern for all that lies below. -/
theorem excludes_of_plain (h : config.DataInside current spelling inner)
    (hspelling : String.ofList (Path.bare spelling.toList) = "/".intercalate inner)
    (hname : PlainFile name)
    (hbelow : ((config.root.child spelling).placeFrom current).Below
      ((config.root.child name).placeFrom current)) :
    excludes name.toList (Config.dataPattern spelling) = true := by
  obtain ⟨names, hnames, hplain, rfl⟩ := hname
  obtain ⟨more, hmore, rfl⟩ := (PlainFile.below_iff hplain hnames h).mp hbelow
  have hbare : Path.bare spelling.toList = ("/".intercalate inner).toList := by
    rw [← hspelling, String.toList_ofList]
  rw [Config.dataPattern, excludes_slash, List.isPrefixOf_iff_prefix, hbare,
    String.intercalate_append_of_ne_nil h.strict hmore, String.toList_append, String.toList_append]
  exact List.prefix_append _ _

/-- If the pattern made from a setting takes in a name below the data directory whose last part is
its own, the setting is spelled plainly. -/
theorem plain_of_excludes (h : config.DataInside current spelling inner) (hlast : PlainName last)
    (hexcludes : excludes ("/".intercalate (inner ++ [last])).toList (Config.dataPattern spelling)
      = true) :
    String.ofList (Path.bare spelling.toList) = "/".intercalate inner := by
  have hinner := Path.plain_of_placeFrom_child h.place
  have hnames : ∀ name ∈ inner ++ [last], PlainName name :=
    List.forall_mem_append.mpr ⟨hinner, List.forall_mem_singleton.mpr hlast⟩
  have hsplit : Text.splitOn '/' (Path.bare spelling.toList) <+: inner.map String.toList := by
    rw [Config.dataPattern, excludes_slash, List.isPrefixOf_iff_prefix] at hexcludes
    obtain ⟨rest, hrest⟩ := hexcludes
    have hparts := congrArg (Text.splitOn '/') hrest
    rw [List.append_assoc, List.singleton_append, Text.splitOn_append_separator,
      Path.splitOn_parts (fun name hname _ => hnames name hname) (by simp), List.map_append]
      at hparts
    have hfront := congrArg List.dropLast hparts
    rw [List.dropLast_append_of_ne_nil (Text.splitOn_ne_nil '/' rest), List.map_singleton,
      List.dropLast_concat] at hfront
    exact ⟨_, hfront⟩
  obtain ⟨n, hn⟩ : ∃ n, Text.splitOn '/' (Path.bare spelling.toList) =
      (inner.take n).map String.toList := ⟨_, by
    rw [List.map_take]
    exact List.prefix_iff_eq_take.mp hsplit⟩
  have htake : ∀ name ∈ inner.take n, PlainName name :=
    fun name hname => hinner name (List.mem_of_mem_take hname)
  have hall : inner.take n = inner := by
    obtain ⟨start, hlength, hstart⟩ := Path.exists_start config.root spelling current
    rw [← Path.partsOf_bare, Path.partsOf_of_splitOn (fun name hname _ => htake name hname) hn,
      foldl_step_plain htake, h.place] at hstart
    have hlengths := congrArg List.length hstart
    rw [List.length_append, List.length_append, List.length_take] at hlengths
    exact List.take_of_length_le (by omega)
  rw [← String.toList_inj, String.toList_ofList, String.toList_intercalate, ← hall, ← hn]
  exact (Text.intercalate_splitOn '/' _).symm

-- ---------------------------------------------------------------------------
-- Scans
-- ---------------------------------------------------------------------------

theorem Scanner.file_of_mem_scanText {scanner : Scanner} {source : SourceText} {a : Remark}
    (h : a ∈ scanner.scanText source) : a.file = source.path := by
  obtain ⟨n, line, -, hfound⟩ := mem_scanLines h
  exact (foundOn_ofLine? hfound).1

theorem Scanner.scanFiles_files (scanner : Scanner) (root : Path) (names : List String)
    (files : Files) :
    Ends (fun remarks _ => ∀ a ∈ remarks, a.file ∈ names) (fun _ => True)
      (scanner.scanFiles root names) files := by
  induction names generalizing files with
  | nil => exact ends_pure (List.forall_mem_nil _)
  | cons name rest ih =>
    refine ends_bind ⟨fun {text files₁} _ => ?_, fun _ => trivial⟩
    refine ends_bind ((ih files₁).mono (fun remarks files₂ hremarks => ?_) fun _ => id)
    refine ends_pure (List.forall_mem_append.mpr ⟨fun a ha => ?_, fun a ha => ?_⟩)
    · rw [file_of_mem_scanText ha]
      exact List.mem_cons_self
    · exact List.mem_cons_of_mem _ (hremarks a ha)

namespace Engine

/-- The remarks of a scan are in files that are listed and not ignored. -/
theorem scan_files (directory : Data) (tags : Option Data) (engine : Engine) :
    Ends (fun remarks _ => ∃ scanner part names,
        Scanner.ofConfig engine.config tags = .ok scanner ∧
        Source.listed engine.config.root (engine.workspace.listing part) = .ok names ∧
        ∀ a ∈ remarks, a.file ∈ names ∧ ignored scanner.ignore a.file = false)
      (fun _ => True) (scan directory tags) engine := by
  refine scan_of_scanFiles (fun scanner part names hscanner hnames files => ?_) directory
  refine (scanner.scanFiles_files _ _ files).mono (fun remarks _ hremarks => ?_) fun _ => id
  refine ⟨scanner, part, names, hscanner, hnames, fun a ha => ?_⟩
  simpa using List.mem_filter.mp (hremarks a ha)

/-- A data directory that is spelled plainly, up to slashes at the ends, is never scanned. Any other
spelling makes a pattern that leaves out some file below it. -/
theorem scan_avoids_dataDirectory {engine : Engine}
    (hdata : engine.config.DataInside current spelling inner)
    (hlisting : ∀ directory names,
      Source.listed engine.config.root (engine.workspace.listing directory) = .ok names →
        ∀ name ∈ names, PlainFile name) :
    (String.ofList (Path.bare spelling.toList) = "/".intercalate inner →
      ∀ directory tags remarks engine', (scan directory tags).run engine = .ok remarks engine' →
        ∀ a ∈ remarks, ¬ ((engine.config.root.child spelling).placeFrom current).Below
          ((engine.config.root.child a.file).placeFrom current)) ∧
    ((∀ name, PlainFile name → ((engine.config.root.child spelling).placeFrom current).Below
        ((engine.config.root.child name).placeFrom current) →
          excludes name.toList (Config.dataPattern spelling) = true) ↔
      String.ofList (Path.bare spelling.toList) = "/".intercalate inner) := by
  refine ⟨fun hspelling directory tags remarks engine' hrun a ha hbelow => ?_, fun hall => ?_,
    fun hspelling name hname => excludes_of_plain hdata hspelling hname⟩
  · obtain ⟨scanner, part, names, hscanner, hnames, hremarks⟩ :=
      (scan_files directory tags engine).ok hrun
    obtain ⟨hfile, hkept⟩ := hremarks a ha
    have hexcludes := excludes_of_plain hdata hspelling (hlisting _ _ hnames _ hfile) hbelow
    have hbare : Path.bare spelling.toList ≠ [] := by
      intro hnil
      have hparts := Path.partsOf_plain (Path.plain_of_placeFrom_child hdata.place) hdata.strict
      rw [← hspelling, hnil] at hparts
      exact hdata.strict hparts.symm
    have hignored : ignored scanner.ignore a.file = true := by
      rw [Scanner.ofConfig_ignore hdata.text hbare hscanner]
      refine List.any_eq_true.mpr ⟨String.ofList (Config.dataPattern spelling), by simp, ?_⟩
      rwa [String.toList_ofList]
    rw [hkept] at hignored
    cases hignored
  · have hx : PlainName "x" := by decide
    have hinner := Path.plain_of_placeFrom_child hdata.place
    have hnames : ∀ name ∈ inner ++ ["x"], PlainName name :=
      List.forall_mem_append.mpr ⟨hinner, List.forall_mem_singleton.mpr hx⟩
    refine plain_of_excludes hdata hx (hall _ ⟨_, by simp, hnames, rfl⟩ ?_)
    exact (PlainFile.below_iff hnames (by simp) hdata).mpr ⟨["x"], by simp, rfl⟩

/-- A project with a file inside and one outside the directory that a setting names. -/
def projectWithNotes (spelling : String) : Engine where
  config := { root := ⟨.root, ["project"]⟩, dataDir := .text spelling, tags := ["TODO"] }
  workspace := {
    files := {
      nodes := [
        (["project"], .directory),
        (["project", "main.py"], .file 0 (.bytes (Text.encode "# TODO: once"))),
        (["project", "data"], .directory),
        (["project", "data", "notes.txt"], .file 1 (.bytes (Text.encode "TODO: again")))]
      current := []
      next := 2 }
    listing := fun _ => .ended 0 (Source.listingBytes ["data/notes.txt", "main.py"]) []
    now := ⟨⟨2024, 5, 6⟩, ⟨12, 0, 0, 0⟩, some 0⟩ }

theorem dataInside_projectWithNotes (spelling : String)
    (h : Path.partsOf spelling.toList = ["data"])
    (hanchor : (Path.ofText spelling).anchor = .relative) :
    (projectWithNotes spelling).config.DataInside [] spelling ["data"] where
  text := rfl
  place := by
    rw [Path.placeFrom_child, if_pos hanchor, h]
    rfl
  strict := List.cons_ne_nil _ _

theorem listed_projectWithNotes
    (h : Source.listed ⟨.root, ["project"]⟩
      (.ended 0 (Source.listingBytes ["data/notes.txt", "main.py"]) []) = .ok names) :
    names = ["data/notes.txt", "main.py"] := by
  have hlisted : (Source.listed ⟨.root, ["project"]⟩
      (.ended 0 (Source.listingBytes ["data/notes.txt", "main.py"]) [])).toOption =
        some ["data/notes.txt", "main.py"] := by decide +kernel
  rw [h] at hlisted
  exact Option.some.inj hlisted

/-- A field of the remarks that a scan of the whole project finds. -/
def scannedFields? (field : Remark → α) (engine : Engine) : Option (List α) :=
  match (scan .null none).run engine with
  | .ok remarks _ => some (remarks.map field)
  | .error _ _ => none

theorem scannedFields?_eq_some {field : Remark → α} {engine : Engine} {values : List α}
    (h : scannedFields? field engine = some values) : ∃ remarks engine',
      (scan .null none).run engine = .ok remarks engine' ∧ remarks.map field = values := by
  unfold scannedFields? at h
  split at h
  · rename_i remarks engine' hrun
    cases h
    exact ⟨remarks, engine', hrun, rfl⟩
  · cases h

/-- Slashes at the end of the setting do no harm. -/
theorem scan_avoids_dataDirectory_notes : ∃ remarks engine',
    (scan .null none).run (projectWithNotes "data/") = .ok remarks engine' ∧
      remarks.map Remark.file = ["main.py"] ∧
      ∀ a ∈ remarks, ¬ (((projectWithNotes "data/").config.root.child "data/").placeFrom []).Below
        (((projectWithNotes "data/").config.root.child a.file).placeFrom []) := by
  have hdata := dataInside_projectWithNotes "data/" (by decide) (by decide)
  have hscan : scannedFields? Remark.file (projectWithNotes "data/") = some ["main.py"] := by
    decide +kernel
  obtain ⟨remarks, engine', hrun, hfiles⟩ := scannedFields?_eq_some hscan
  have hlisting : ∀ directory names, Source.listed (projectWithNotes "data/").config.root
      ((projectWithNotes "data/").workspace.listing directory) = .ok names →
        ∀ name ∈ names, PlainFile name := by
    intro directory names hlisted
    rw [listed_projectWithNotes hlisted]
    refine List.forall_mem_cons.mpr ⟨⟨["data", "notes.txt"], ?_⟩,
      List.forall_mem_singleton.mpr ⟨["main.py"], ?_⟩⟩
    · exact ⟨by decide, by decide, by decide⟩
    · exact ⟨by decide, by decide, by decide⟩
  exact ⟨remarks, engine', hrun, hfiles,
    (scan_avoids_dataDirectory hdata hlisting).1 (by decide) _ _ _ _ hrun⟩

/-- A dot in front of the setting leads to the same directory, and its files are scanned. -/
theorem scan_finds_dataDirectory :
    (projectWithNotes "./data").config.DataInside [] "./data" ["data"] ∧ ∃ remarks engine',
      (scan .null none).run (projectWithNotes "./data") = .ok remarks engine' ∧ ∃ a ∈ remarks,
        (((projectWithNotes "./data").config.root.child "./data").placeFrom []).Below
          (((projectWithNotes "./data").config.root.child a.file).placeFrom []) := by
  have hdata := dataInside_projectWithNotes "./data" (by decide) (by decide)
  have hscan : scannedFields? Remark.file (projectWithNotes "./data") =
      some ["data/notes.txt", "main.py"] := by decide +kernel
  obtain ⟨remarks, engine', hrun, hfiles⟩ := scannedFields?_eq_some hscan
  have hmem : "data/notes.txt" ∈ remarks.map Remark.file := hfiles ▸ List.mem_cons_self
  obtain ⟨a, ha, hfile⟩ := List.mem_map.mp hmem
  refine ⟨hdata, remarks, engine', hrun, a, ha, ["notes.txt"], List.cons_ne_nil _ _, ?_⟩
  rw [hfile]
  decide

end Engine

end Marginalia
