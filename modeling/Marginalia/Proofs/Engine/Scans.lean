import Marginalia.Proofs.Engine.Stops
import Marginalia.Proofs.Scan.Lines

/-!
# What a scan gives

A scan of a part of a project, for the configured tags or for others, seen as a whole: the remarks
that it gives, one for each line that has one in each file that is listed and not passed over, and
the faults that it is stopped by.
-/

namespace Marginalia

open Files (checkPath)

variable {config : Config} {engine : Engine} {scanner : Scanner} {spelling name : String}
variable {path : Option String} {tags : Option (List String)} {names entries : List String}

/-- What work gives, or the fault that stops it. -/
def outcome {ε σ α : Type} (m : EStateM ε σ α) (s : σ) : Except ε α :=
  match m.run s with
  | .ok a _ => .ok a
  | .error fault _ => .error fault

section Outcome

variable {ε σ α β : Type} {m : EStateM ε σ α} {s t : σ}

theorem outcome_of_ok (h : m.run s = .ok a t) : outcome m s = .ok a := by
  rw [outcome, h]

theorem outcome_of_error (h : m.run s = .error fault t) : outcome m s = .error fault := by
  rw [outcome, h]

theorem outcome_eq_error : outcome m s = .error fault ↔ ∃ t, m.run s = .error fault t := by
  unfold outcome
  cases m.run s <;> simp

theorem outcome_bind {f : α → EStateM ε σ β} (h : m.run s = .ok a t) :
    outcome (m >>= f) s = outcome (f a) t := by
  rw [outcome, run_bind_of_ok h]
  rfl

theorem Agrees.outcome_eq (h : Agrees m s t) : outcome m s = outcome m t := by
  rcases h with ⟨a, hs, ht⟩ | ⟨fault, hs, ht⟩
  · rw [outcome_of_ok hs, outcome_of_ok ht]
  · rw [outcome_of_error hs, outcome_of_error ht]

end Outcome

/-- The patterns of the files that a scan passes over: those that are configured, and one for what
lies below the data directory as the setting spells it. -/
def Config.passedOver (config : Config) (spelling : String) : List String :=
  if (Path.bare spelling.toList).isEmpty then config.ignore
  else config.ignore ++ [String.ofList (Config.dataPattern spelling)]

/-- A scan passes over a file: a configured pattern excludes it, or it lies below the data directory
as the setting spells it. -/
def Config.PassesOver (config : Config) (spelling name : String) : Prop :=
  ignored config.ignore name = true ∨
    Path.bare spelling.toList ≠ [] ∧ Config.dataPattern spelling <+: name.toList

theorem Config.passesOver_iff :
    config.PassesOver spelling name ↔ ignored (config.passedOver spelling) name = true := by
  by_cases hbare : Path.bare spelling.toList = []
  · simp [PassesOver, passedOver, hbare]
  · simp [PassesOver, passedOver, hbare, ignored, excludes_slash, dataPattern]

/-- A scan takes in a file: it is listed and not passed over. -/
structure Config.Takes (config : Config) (spelling : String) (entries : List String)
    (name : String) : Prop where
  listed : name ∈ entries
  kept : ¬config.PassesOver spelling name

/-- The names of the files that a scan takes in, each one once. -/
def Config.taken (config : Config) (spelling : String) (entries : List String) : List String :=
  (distinct entries).filter fun name => !ignored (config.passedOver spelling) name

theorem Config.mem_taken :
    name ∈ config.taken spelling entries ↔ config.Takes spelling entries name := by
  rw [taken, List.mem_filter, mem_distinct]
  exact ⟨fun ⟨hlisted, hkept⟩ => ⟨hlisted, by simpa [passesOver_iff] using hkept⟩,
    fun ⟨hlisted, hkept⟩ => ⟨hlisted, by simpa [passesOver_iff] using hkept⟩⟩

/-- The first file that a scan takes in and that is not as it should be, is found in the order of
the listing. -/
theorem Config.find?_taken {p : String → Bool}
    (h : ∃ name, config.Takes spelling entries name ∧ p name = true) :
    ∃ before name after, entries = before ++ name :: after ∧
      (config.taken spelling entries).find? p = some name ∧ p name = true ∧
      ¬config.PassesOver spelling name ∧
      ∀ other ∈ before, ¬config.PassesOver spelling other → p other = false := by
  obtain ⟨other, htaken, hother⟩ := h
  obtain ⟨name, hfind⟩ : ∃ name, (config.taken spelling entries).find? p = some name :=
    Option.isSome_iff_exists.mp (List.find?_isSome.mpr ⟨other, mem_taken.mpr htaken, hother⟩)
  have hlisted := hfind
  rw [taken, List.find?_filter, find?_distinct, List.find?_eq_some_iff_append] at hlisted
  obtain ⟨hname, before, after, rfl, hbefore⟩ := hlisted
  simp only [decide_eq_true_eq, Bool.not_eq_true', ← Bool.not_eq_true, ← passesOver_iff] at hname
  refine ⟨before, name, after, rfl, hfind, hname.2, hname.1, fun other hother hkept => ?_⟩
  rw [passesOver_iff] at hkept
  simpa [hkept] using hbefore other hother

/-- Tags that are given, as a value. -/
def givenTags (tags : List String) : Data := .list (tags.map .text)

theorem overrideTags_givenTags (tags : Option (List String)) :
    Config.overrideTags (tags.map givenTags) = .ok tags := by
  cases tags with
  | none => rfl
  | some tags => exact Config.overrideTags_texts tags

theorem Scanner.ofConfig_given (hdata : config.dataDir = .text spelling)
    (tags : Option (List String)) : Scanner.ofConfig config (tags.map givenTags) =
      .ok (ofTags (config.effectiveTags tags) (config.passedOver spelling)) := by
  simp only [ofConfig, hdata, overrideTags_givenTags]
  rfl

namespace Engine

/-- The part of a project that is listed for a scan. An empty path stands for the whole. -/
def listedPart (path : Option String) : Data :=
  if (Data.ofOption path).holds then .ofOption path else .text "."

/-- What a scan gives. -/
def scanned (engine : Engine) (path : Option String) (tags : Option (List String)) :
    Except Fault (List Remark) :=
  outcome (scan (.ofOption path) (tags.map givenTags)) engine

/-- A listing of a part of a project that ended well, and the names in it, as often as they are
listed. -/
structure Lists (engine : Engine) (part : Data) (entries : List String) : Prop where
  root : checkPath engine.config.root = .ok ()
  ended : ∃ output errors cs, engine.workspace.listing part = .ended 0 output errors ∧
    Text.decodeBytes output = .ok cs ∧ entries = Source.entriesOf cs

theorem Lists.listed {part : Data} (h : engine.Lists part entries) :
    Source.listed engine.config.root (engine.workspace.listing part) = .ok (distinct entries) := by
  obtain ⟨output, errors, cs, hlisting, hdecode, rfl⟩ := h.ended
  rw [hlisting]
  simp only [Source.listed, hdecode]
  rfl

theorem Lists.checkPath {part : Data} (h : engine.Lists part entries) :
    ∀ name ∈ entries, checkPath (engine.config.root.child name) = .ok () := by
  obtain ⟨output, errors, cs, -, -, rfl⟩ := h.ended
  exact fun name hname => Path.checkPath_child h.root (Source.zero_notMem_entriesOf hname)

theorem run_listTracked (engine : Engine) (part : String) : ∃ engine',
    engine'.workspace.files = engine.workspace.files ∧
      (listTracked (.text part)).run engine =
        match Source.listed engine.config.root (engine.workspace.listing (.text part)) with
        | .ok names => .ok names engine'
        | .error fault => .error fault engine' := by
  unfold listTracked
  rw [run_get_bind]
  dsimp only
  refine ⟨{ engine with workspace.runs :=
    Source.listingArguments engine.config.root (.text part) :: engine.workspace.runs }, rfl, ?_⟩
  cases Source.listed engine.config.root (engine.workspace.listing (.text part)) <;> rfl

theorem exists_listedPart (path : Option String) : ∃ part, listedPart path = .text part := by
  cases path with
  | none => exact ⟨".", rfl⟩
  | some s =>
    unfold listedPart
    split
    · exact ⟨s, rfl⟩
    · exact ⟨".", rfl⟩

theorem outcome_onFiles_bind {work : FilesM α} {rest : α → EngineM α}
    (hrest : ∀ a engine, outcome (rest a) engine = .ok a) (engine : Engine) :
    outcome (onFiles work >>= rest) engine = outcome work engine.workspace.files := by
  cases hwork : work.run engine.workspace.files with
  | ok a files =>
    have hrun : (onFiles work).run engine = .ok a { engine with workspace.files := files } := by
      simp only [EStateM.run] at hwork
      simp only [EStateM.run, onFiles, hwork]
    rw [outcome_bind hrun, hrest, outcome_of_ok hwork]
  | error fault files =>
    have hrun : (onFiles work).run engine =
        .error fault { engine with workspace.files := files } := by
      simp only [EStateM.run] at hwork
      simp only [EStateM.run, onFiles, hwork]
    rw [outcome_of_error hwork]
    exact outcome_of_error (run_bind_error.mpr (.inl hrun))

/-- The scanner of a scan, for the configured tags or for others. -/
def scannerFor (engine : Engine) (spelling : String) (tags : Option (List String)) : Scanner :=
  .ofTags (engine.config.effectiveTags tags) (engine.config.passedOver spelling)

/-- A scan gives what the listing fails with, or what the files give that are listed and not passed
over. -/
theorem scanned_eq (path : Option String) (tags : Option (List String))
    (hdata : engine.config.dataDir = .text spelling) :
    engine.scanned path tags =
      Source.listed engine.config.root (engine.workspace.listing (listedPart path)) >>= fun names =>
        outcome ((engine.scannerFor spelling tags).scanFiles engine.config.root
          (names.filter fun name => !ignored (engine.config.passedOver spelling) name))
          engine.workspace.files := by
  obtain ⟨part, hpart⟩ := exists_listedPart path
  obtain ⟨engine₁, hfiles, hrun⟩ := run_listTracked engine part
  have hlift (scanner : Scanner) : (liftExcept (Except.ok scanner : Except Fault Scanner) :
      EngineM Scanner).run engine = .ok scanner engine := rfl
  have hreport (text : String) : (report .debug .scanner text).run engine₁ =
      .ok () { engine₁ with workspace := engine₁.workspace.report .debug .scanner text } := rfl
  have hplace (remarks : List Remark) (engine' : Engine) (place : Path) : outcome (do
      report .info .engine s!"Found {remarks.length} annotation(s) under {place.text}"
      return remarks) engine' = .ok remarks := rfl
  rw [hpart]
  unfold listedPart at hpart
  rw [scanned, scan, outcome, run_get_bind]
  dsimp only
  rw [hpart, Scanner.ofConfig_given hdata, run_bind_of_ok (hlift _)]
  cases hlisted : Source.listed engine.config.root (engine.workspace.listing (.text part)) with
  | error fault =>
    rw [hlisted] at hrun
    exact outcome_of_error (run_bind_error.mpr (.inl hrun))
  | ok names =>
    rw [hlisted] at hrun
    rw [run_bind_of_ok hrun, run_bind_of_ok (hreport _), ← hfiles]
    refine outcome_onFiles_bind (fun remarks engine' => ?_) _
    cases path with
    | none => exact hplace remarks engine' engine.config.root
    | some s =>
      split
      · exact hplace remarks engine' (engine.config.root.child s)
      · exact hplace remarks engine' engine.config.root

theorem ofLine?_scannerFor (file : String) (number : Int) (line : String) :
    Remark.ofLine? (engine.scannerFor spelling tags).tags file number line =
      Remark.ofLine? (engine.config.effectiveTags tags) file number line :=
  Remark.ofLine?_congr (normalForms_upper _) file number line

section Lists

variable (hdata : engine.config.dataDir = .text spelling)
variable (hlists : engine.Lists (listedPart path) entries)

include hlists

theorem checkPath_taken : ∀ name ∈ engine.config.taken spelling entries,
    checkPath (engine.config.root.child name) = .ok () :=
  fun name hname => hlists.checkPath name (Config.mem_taken.mp hname).listed

include hdata

theorem scanned_lists : engine.scanned path tags =
    outcome ((engine.scannerFor spelling tags).scanFiles engine.config.root
      (engine.config.taken spelling entries)) engine.workspace.files := by
  rw [scanned_eq path tags hdata, hlists.listed]
  rfl

theorem scanned_ok (tags : Option (List String))
    (hread : ∀ name, engine.config.Takes spelling entries name →
      (Source.bytes? engine.workspace.files engine.config.root name).isSome) :
    engine.scanned path tags = .ok ((engine.config.taken spelling entries).flatMap
      ((engine.scannerFor spelling tags).remarksIn engine.workspace.files engine.config.root)) := by
  rw [scanned_lists hdata hlists]
  exact outcome_of_ok (Scanner.run_scanFiles_ok _ (checkPath_taken hlists)
    fun name hname => hread name (Config.mem_taken.mp hname))

theorem scanned_error (tags : Option (List String))
    (h : (engine.config.taken spelling entries).find? (fun name =>
      (Source.bytes? engine.workspace.files engine.config.root name).isNone) = some name) :
    ∃ cause, engine.scanned path tags = .error (.sourceUnreadable name cause) := by
  obtain ⟨cause, hrun⟩ := Scanner.run_scanFiles_error (engine.scannerFor spelling tags)
    (checkPath_taken hlists) h
  rw [scanned_lists hdata hlists]
  exact ⟨cause, outcome_of_error hrun⟩

theorem scanned_agrees {files : Files} (h : ∀ name, engine.config.Takes spelling entries name →
      files.look (engine.config.root.child name) =
        engine.workspace.files.look (engine.config.root.child name)) :
    scanned { engine with workspace.files := files } path tags = engine.scanned path tags := by
  let other : Engine := { engine with workspace.files := files }
  have hother : other.Lists (listedPart path) entries := ⟨hlists.root, hlists.ended⟩
  have hdata' : other.config.dataDir = .text spelling := hdata
  have hagrees : Agrees ((engine.scannerFor spelling tags).scanFiles engine.config.root
      (engine.config.taken spelling entries)) files engine.workspace.files :=
    Scanner.agrees_scanFiles _ (checkPath_taken hlists)
      fun name hname => h name (Config.mem_taken.mp hname)
  exact (scanned_lists hdata' hother).trans
    (hagrees.outcome_eq.trans (scanned_lists hdata hlists).symm)

end Lists

/-- The remarks of files that are taken in are ordered by the files, then by the lines. -/
theorem pairwise_taken (scanner : Scanner) (files : Files) (root : Path) (spelling : String)
    (entries : List String) :
    ((config.taken spelling entries).flatMap (scanner.remarksIn files root)).Pairwise fun a b =>
      entries.idxOf a.file < entries.idxOf b.file ∨ a.file = b.file ∧ a.line < b.line := by
  have hfile {name : String} {a : Remark} (ha : a ∈ scanner.remarksIn files root name) :
      a.file = name := (scanner.remarksIn_ascend files root name).1 a ha
  refine List.pairwise_flatMap.mpr ⟨fun name _ => ?_, ?_⟩
  · refine (scanner.remarksIn_ascend files root name).2.imp_of_mem fun ha hb hlt => .inr ⟨?_, hlt⟩
    rw [hfile ha, hfile hb]
  · refine ((pairwise_distinct entries).filter _).imp fun hlt a ha b hb => .inl ?_
    rwa [hfile ha, hfile hb]

/-- A scan gives the remarks of the lines of the files that are listed and not passed over, each
once, in the order of the listing and of the lines. If one of these files cannot be read, the first
one stops the scan. What other files hold does not count. -/
theorem scan_line_by_line (path : Option String) (tags : Option (List String))
    (hdata : engine.config.dataDir = .text spelling)
    (hlists : engine.Lists (listedPart path) entries) :
    ((∀ name, engine.config.Takes spelling entries name →
        (Source.bytes? engine.workspace.files engine.config.root name).isSome) →
      ∃ remarks, engine.scanned path tags = .ok remarks ∧
        (∀ a, a ∈ remarks ↔ ∃ name bytes n line, engine.config.Takes spelling entries name ∧
          Source.bytes? engine.workspace.files engine.config.root name = some bytes ∧
          (Text.lines (Source.textOf bytes).toList)[n]? = some line ∧
          Remark.ofLine? (engine.config.effectiveTags tags) name ((n + 1 : Nat) : Int)
            (String.ofList line) = some a) ∧
        (remarks.Pairwise fun a b => entries.idxOf a.file < entries.idxOf b.file ∨
          a.file = b.file ∧ a.line < b.line) ∧
        (remarks.map Remark.position).Nodup) ∧
    ((∃ name, engine.config.Takes spelling entries name ∧
        Source.bytes? engine.workspace.files engine.config.root name = none) →
      ∃ before name after cause, entries = before ++ name :: after ∧
        (∀ other ∈ before, ¬engine.config.PassesOver spelling other →
          (Source.bytes? engine.workspace.files engine.config.root other).isSome) ∧
        ¬engine.config.PassesOver spelling name ∧
        Source.bytes? engine.workspace.files engine.config.root name = none ∧
        engine.scanned path tags = .error (.sourceUnreadable name cause)) ∧
    ∀ files, (∀ name, engine.config.Takes spelling entries name →
        files.look (engine.config.root.child name) =
          engine.workspace.files.look (engine.config.root.child name)) →
      scanned { engine with workspace.files := files } path tags = engine.scanned path tags := by
  refine ⟨fun hread => ⟨_, scanned_ok hdata hlists tags hread, fun a => ?_, ?_, ?_⟩,
    fun ⟨name, htakes, hnone⟩ => ?_, fun files => scanned_agrees hdata hlists⟩
  · simp only [List.mem_flatMap, Config.mem_taken, Scanner.mem_remarksIn, ofLine?_scannerFor]
    constructor
    · rintro ⟨name, htakes, bytes, hbytes, n, line, hline, hfound⟩
      exact ⟨name, bytes, n, line, htakes, hbytes, hline, hfound⟩
    · rintro ⟨name, bytes, n, line, htakes, hbytes, hline, hfound⟩
      exact ⟨name, htakes, bytes, hbytes, n, line, hline, hfound⟩
  · exact pairwise_taken _ _ _ _ _
  · refine List.pairwise_map.mpr ((pairwise_taken _ _ _ _ _).imp fun {a b} horder heq => ?_)
    obtain ⟨hfile, hline⟩ := Prod.mk.inj heq
    rcases horder with hlt | ⟨-, hlt⟩
    · rw [hfile] at hlt
      exact Nat.lt_irrefl _ hlt
    · exact Int.ne_of_lt hlt hline
  · obtain ⟨before, name, after, hentries, hfind, hunread, hkept, hbefore⟩ :=
      Config.find?_taken (p := fun name =>
        (Source.bytes? engine.workspace.files engine.config.root name).isNone)
        ⟨name, htakes, Option.isNone_iff_eq_none.mpr hnone⟩
    obtain ⟨cause, hscanned⟩ := scanned_error hdata hlists tags hfind
    refine ⟨before, name, after, cause, hentries, fun other hother hkept' => ?_, hkept,
      Option.isNone_iff_eq_none.mp hunread, hscanned⟩
    simpa using hbefore other hother hkept'

/-- A project whose listing names one file twice, and two that are passed over: one below the data
directory and one that is gone. -/
def projectListedTwice : Engine where
  config := (projectWithNotes "data/").config
  workspace := {
    (projectWithNotes "data/").workspace with
    listing := fun _ => .ended 0
      (Source.listingBytes ["main.py", "data/notes.txt", "vendor/gone.js", "main.py"]) [] }

theorem scan_line_by_line_twice : ∃ remarks,
    projectListedTwice.scanned none none = .ok remarks ∧ (remarks.map Remark.position).Nodup ∧
      ∀ a, a ∈ remarks ↔ Remark.ofLine? ["TODO"] "main.py" 1 "# TODO: once" = some a := by
  let entries := ["main.py", "data/notes.txt", "vendor/gone.js", "main.py"]
  have hlists : projectListedTwice.Lists (listedPart none) entries :=
    ⟨Files.checkPath_iff.mpr (by decide), _, _, _, rfl, by rfl, by decide +kernel⟩
  have htaken : projectListedTwice.config.taken "data/" entries = ["main.py"] := by decide +kernel
  have hmain (name : String) :
      projectListedTwice.config.Takes "data/" entries name ↔ name = "main.py" := by
    rw [← Config.mem_taken, htaken, List.mem_singleton]
  have hbytes : Source.bytes? projectListedTwice.workspace.files projectListedTwice.config.root
      "main.py" = some (Text.encode "# TODO: once") := by decide +kernel
  have hlines : Text.lines (Source.textOf (Text.encode "# TODO: once")).toList =
      ["# TODO: once".toList] := by decide +kernel
  have htags : projectListedTwice.config.effectiveTags none = ["TODO"] := by decide +kernel
  obtain ⟨remarks, hscanned, hmem, -, hnodup⟩ := (scan_line_by_line none none rfl hlists).1
    fun name htakes => by
      rw [(hmain name).mp htakes, hbytes]
      rfl
  refine ⟨remarks, hscanned, hnodup, fun a => (hmem a).trans ⟨?_, fun hfound => ?_⟩⟩
  · rintro ⟨name, bytes, n, line, htakes, hname, hline, hfound⟩
    obtain rfl := (hmain name).mp htakes
    obtain rfl := Option.some.inj (hbytes.symm.trans hname)
    rw [hlines] at hline
    obtain ⟨rfl, rfl⟩ : n = 0 ∧ line = "# TODO: once".toList := by
      simpa [List.getElem?_singleton, eq_comm] using hline
    rw [htags] at hfound
    exact hfound
  · refine ⟨"main.py", _, 0, _, (hmain _).mpr rfl, hbytes, by rw [hlines]; rfl, ?_⟩
    rw [htags]
    exact hfound

-- ---------------------------------------------------------------------------
-- Faults
-- ---------------------------------------------------------------------------

theorem scanned_spoiled (path : Option String) (tags : Option (List String))
    (hdata : engine.config.dataDir = .text spelling)
    (h : Source.Spoils (engine.workspace.listing (listedPart path)) fault) :
    engine.scanned path tags = .error fault := by
  rw [scanned_eq path tags hdata]
  refine bind_error.mpr (.inl ?_)
  cases hlisting : engine.workspace.listing (listedPart path) with
  | refused cause =>
    rw [hlisting] at h
    cases h
    rfl
  | failed code =>
    rw [hlisting] at h
    cases h
  | ended code output errors =>
    rw [hlisting] at h
    cases h with
    | undecodable hdecode => simp [Source.listed, hdecode]

/-- A scan that gives no remarks is stopped by a fault of the scan, by a listing whose output is no
UTF-8, by an argument that no program can be started with, or by a root that no call can be made
about. Output that is no UTF-8 does stop it, and not with a fault of the scan. -/
theorem scan_stops (path : Option String) (tags : Option (List String))
    (hdata : engine.config.dataDir = .text spelling) :
    (∀ fault, engine.scanned path tags = .error fault →
      fault.faultClass = .scan ∨
      Source.Spoils (engine.workspace.listing (listedPart path)) fault ∨
      checkPath engine.config.root ≠ .ok () ∧ fault = .nullByte) ∧
    ∀ output errors malformed,
      engine.workspace.listing (listedPart path) = .ended 0 output errors →
      Text.decodeBytes output = .error malformed →
      engine.scanned path tags = .error (.decoding malformed) := by
  refine ⟨fun fault h => ?_, fun output errors malformed hlisting hdecode => ?_⟩
  · rw [scanned_eq path tags hdata] at h
    rcases bind_error.mp h with hlisted | ⟨names, hlisted, hfiles⟩
    · exact (Source.listed_error hlisted).imp_right .inl
    · obtain ⟨files, hrun⟩ := outcome_eq_error.mp hfiles
      have hnames : ∀ name ∈ names.filter fun name =>
          !ignored (engine.config.passedOver spelling) name, '\x00' ∉ name.toList :=
        fun name hname => (Source.listed_ok hlisted name (List.mem_filter.mp hname).1).2
      exact (Scanner.stopsBy_scanFiles _ _ hnames _ hrun).imp_right .inr
  · refine scanned_spoiled path tags hdata ?_
    rw [hlisting]
    exact .undecodable hdecode

/-- A project whose listing ends in some way. -/
def projectListed (listing : ListingOutcome) : Engine where
  config := (projectWithNotes "data").config
  workspace := { (projectWithNotes "data").workspace with listing := fun _ => listing }

theorem scan_stops_damaged : (projectListed (.ended 0 [0xFF, 0x00] [])).scanned none none =
    .error (.decoding ⟨0, [0xFF], .startByte⟩) :=
  (scan_stops none none rfl).2 _ _ _ rfl rfl

/-- Not every scan gives remarks or is stopped by a fault of the scan, though the root can be used
and the listing ends well. -/
theorem scan_stops_otherwise : ¬∀ (engine : Engine) (spelling : String) (path : Option String)
    (tags : Option (List String)) (output errors : Text.Bytes),
      engine.config.dataDir = .text spelling → checkPath engine.config.root = .ok () →
      engine.workspace.listing (listedPart path) = .ended 0 output errors →
      (∃ remarks, engine.scanned path tags = .ok remarks) ∨
        ∃ fault, engine.scanned path tags = .error fault ∧ fault.faultClass = .scan := by
  intro h
  have hdecode : Text.decodeBytes [0xFF, 0x00] = .error ⟨0, [0xFF], .startByte⟩ := rfl
  have hscanned : (projectListed (.ended 0 [0xFF, 0x00] [])).scanned none none =
      .error (.decoding ⟨0, [0xFF], .startByte⟩) :=
    scanned_spoiled none none rfl (.undecodable hdecode)
  have hroot : checkPath (projectListed (.ended 0 [0xFF, 0x00] [])).config.root = .ok () :=
    Files.checkPath_iff.mpr (by decide)
  rcases h _ _ none none _ _ rfl hroot rfl with ⟨remarks, hok⟩ | ⟨fault, herror, hclass⟩
  · rw [hscanned] at hok
    cases hok
  · rw [hscanned] at herror
    cases herror
    cases hclass

end Engine

end Marginalia
