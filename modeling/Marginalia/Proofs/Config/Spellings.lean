import Marginalia.Proofs.Config.Plain
import Marginalia.Proofs.Config.Usable
import Marginalia.Proofs.Data.Json
import Marginalia.Proofs.Files.Replacement

/-!
# Spellings of settings

What to scan for can be written in several ways. However it is written, in objects or in plain
lines, as lists or as texts with commas, the same configuration is loaded.
-/

namespace Marginalia.Config

open Text (brokenLines encodeChars lower unifyNewlines)

variable {tags ignore : List String} {resolved : Bool} {tagsValue ignoreValue settings : Data}
variable {config : Config} {root path : Path} {files : Files} {cs : List Char}
variable {groups entries : List (String × Data)} {lines : List (List Char)}

-- ---------------------------------------------------------------------------
-- Settings that are applied
-- ---------------------------------------------------------------------------

/-- A group of settings that says what to scan for. -/
structure SetsGroup (tags ignore : List String) (resolved : Bool)
    (entries : List (String × Data)) : Prop where
  tags : ∃ value, valueOf? entries "tags" = some value ∧ Spells tags value
  ignore : ∃ value, valueOf? entries "ignore" = some value ∧ Spells ignore value
  resolved : valueOf? entries "include_resolved" = some (.bool resolved)

/-- Settings that say what to scan for, and nothing else. -/
structure SetsScan (tags ignore : List String) (resolved : Bool)
    (groups : List (String × Data)) : Prop where
  project : valueOf? groups "project" = none
  directories : valueOf? groups "directories" = none
  journal : valueOf? groups "journal" = none
  scan : ∃ entries, valueOf? groups "scan" = some (.object entries) ∧
    SetsGroup tags ignore resolved entries

theorem whenSet_absent {key : String} {change : Data → Except Fault Config}
    (h : valueOf? groups key = none) : whenSet (.object groups) key config change = .ok config := by
  rw [whenSet, Data.member?, h]
  rfl

theorem whenSet_present {key : String} {value : Data} {change : Data → Except Fault Config}
    (h : valueOf? groups key = some value) :
    whenSet (.object groups) key config change = change value := by
  rw [whenSet, Data.member?, h]
  rfl

theorem SetsGroup.applyScan (htags : ∀ item ∈ tags, IsItem item)
    (hignore : ∀ item ∈ ignore, IsItem item) (h : SetsGroup tags ignore resolved entries)
    (config : Config) : config.applyScan (.object entries) =
      .ok { config with tags, ignore, includeResolved := resolved } := by
  obtain ⟨tagsValue, htagsAt, htagsValue⟩ := h.tags
  obtain ⟨ignoreValue, hignoreAt, hignoreValue⟩ := h.ignore
  refine bind_ok.mpr ⟨{ config with tags }, ?_, bind_ok.mpr ⟨{ config with tags, ignore }, ?_, ?_⟩⟩
  · rw [whenSet_present htagsAt, htagsValue.stringList htags]
    rfl
  · rw [whenSet_present hignoreAt, hignoreValue.stringList hignore]
    rfl
  · rw [whenSet_present h.resolved]
    rfl

theorem SetsScan.ofSettings (htags : ∀ item ∈ tags, IsItem item)
    (hignore : ∀ item ∈ ignore, IsItem item) (h : SetsScan tags ignore resolved groups)
    (root : Path) : ofSettings root (.object groups) =
      .ok { root, tags, ignore, includeResolved := resolved } := by
  obtain ⟨entries, hscan, hgroup⟩ := h.scan
  refine bind_ok.mpr ⟨_, whenSet_absent h.project,
    bind_ok.mpr ⟨_, whenSet_absent h.directories, bind_ok.mpr ⟨_, ?_, whenSet_absent h.journal⟩⟩⟩
  rw [whenSet_present hscan]
  exact hgroup.applyScan htags hignore _

-- ---------------------------------------------------------------------------
-- Settings that are printed, and settings in lines
-- ---------------------------------------------------------------------------

/-- The settings that say what to scan for. -/
def scanSettings (tagsValue ignoreValue : Data) (resolved : Bool) : List (String × Data) :=
  [("scan", .object [("tags", tagsValue), ("ignore", ignoreValue),
    ("include_resolved", .bool resolved)])]

theorem setsScan_scanSettings (htags : Spells tags tagsValue) (hignore : Spells ignore ignoreValue)
    (resolved : Bool) :
    SetsScan tags ignore resolved (scanSettings tagsValue ignoreValue resolved) :=
  ⟨rfl, rfl, rfl, _, rfl, ⟨tagsValue, rfl, htags⟩, ⟨ignoreValue, rfl, hignore⟩, rfl⟩

/-- Lists and texts are as deep as a setting goes. -/
theorem Spells.writes {items : List String} {value : Data} (h : Spells items value)
    (level : Option Nat) : Json.Writes 1 (Json.render level value).toList value := by
  have htext (s : String) : Json.Writes 1 (Json.render level (.text s)).toList (.text s) :=
    (Json.writes_text level s).weaken (Nat.zero_le 1)
  cases h with
  | list =>
    refine Json.writes_list fun item hitem => ?_
    obtain ⟨s, -, rfl⟩ := List.mem_map.mp hitem
    exact Json.writes_text _ s
  | joined hne h => exact htext _
  | blank hnil h => exact htext _

theorem writes_scanSettings (htags : Spells tags tagsValue) (hignore : Spells ignore ignoreValue)
    (resolved : Bool) : Json.Writes 3
      (Json.print (.object (scanSettings tagsValue ignoreValue resolved))).toList
      (.object (scanSettings tagsValue ignoreValue resolved)) := by
  have hgroups : ["scan"].Nodup := by decide
  have hkeys : ["tags", "ignore", "include_resolved"].Nodup := by decide
  refine Json.writes_object hgroups ?_
  rw [scanSettings, List.forall_mem_singleton]
  refine Json.writes_object hkeys ?_
  simp only [List.forall_mem_cons]
  exact ⟨htags.writes _, hignore.writes _, (Json.writes_bool _ resolved).weaken (Nat.zero_le 1),
    List.forall_mem_nil _⟩

theorem read_scanSettings (htags : Spells tags tagsValue) (hignore : Spells ignore ignoreValue)
    (resolved : Bool) : Json.read (unifyNewlines
      (Json.print (.object (scanSettings tagsValue ignoreValue resolved))).toList) =
        .ok (.object (scanSettings tagsValue ignoreValue resolved)) := by
  have h := writes_scanSettings htags hignore resolved
  rw [Text.unifyNewlines_eq_self h.unreturned]
  exact h.read (by decide)

theorem PlainLines.setsScan (htags : ∀ item ∈ tags, IsItem item)
    (hignore : ∀ item ∈ ignore, IsItem item) (h : PlainLines tags ignore resolved lines) :
    SetsScan tags ignore resolved [("scan", .object (legacyEntries lines))] := by
  have hvalues := h.valueOf? htags hignore
  simp only [List.forall_mem_cons] at hvalues
  obtain ⟨htagsAt, hignoreAt, hresolvedAt, -⟩ := hvalues
  exact ⟨rfl, rfl, rfl, _, rfl, ⟨_, htagsAt, .list⟩, ⟨_, hignoreAt, .list⟩, hresolvedAt⟩

-- ---------------------------------------------------------------------------
-- Settings that are loaded
-- ---------------------------------------------------------------------------

/-- The text of a settings file in one of the spellings: the end of the name, or all of it, tells
how it is read. -/
inductive SpelledIn (tags ignore : List String) (resolved : Bool) (path : Path) (cs : List Char) :
    Prop
  | objects {groups : List (String × Data)} (hsuffix : lower path.suffix = ".json")
      (hread : Json.read (unifyNewlines cs) = .ok (.object groups))
      (hscan : SetsScan tags ignore resolved groups)
  | plain (hname : path.name = ".gitodos")
      (hlines : PlainLines tags ignore resolved (brokenLines (unifyNewlines cs)))

theorem run_decodedText (h : files.Holds path (encodeChars cs)) :
    (decodedText path).run files = .ok cs files := by
  rw [decodedText, EStateM.run_bind, h.run_readBytes]
  simp only [Text.decodeBytes_encodeChars]
  rfl

theorem run_applied {reader : FilesM Data} (hreader : reader.run files = .ok settings files)
    (hsettings : ofSettings root settings = .ok config) :
    (guarded path do liftResult (ofSettings root (← reader))).run files = .ok config files :=
  run_guarded_ok.mpr
    (run_bind_ok.mpr ⟨settings, files, hreader, run_liftResult_ok.mpr ⟨hsettings, rfl⟩⟩)

theorem loadFile_json (h : lower path.suffix = ".json") : loadFile root path =
    (guarded path do liftResult (ofSettings root (← loadJson path))) := by
  unfold loadFile
  rw [h]
  rfl

theorem loadFile_plain (h : path.name = ".gitodos") : loadFile root path =
    (guarded path do liftResult (ofSettings root (← loadLegacy path))) := by
  have hsuffix : lower path.suffix = "" := by
    rw [Path.suffix, h]
    decide
  unfold loadFile
  rw [hsuffix, h]
  rfl

theorem SpelledIn.run_loadFile (htags : ∀ item ∈ tags, IsItem item)
    (hignore : ∀ item ∈ ignore, IsItem item) (h : SpelledIn tags ignore resolved path cs)
    (hfile : files.Holds path (encodeChars cs)) (root : Path) : (loadFile root path).run files =
      .ok { root, tags, ignore, includeResolved := resolved } files := by
  have htext := run_decodedText hfile
  cases h with
  | @objects groups hsuffix hread hscan =>
    have hjson : (loadJson path).run files = .ok (.object groups) files := by
      rw [loadJson, EStateM.run_bind, htext]
      simp only [hread]
      rfl
    rw [loadFile_json hsuffix]
    exact run_applied hjson (hscan.ofSettings htags hignore root)
  | plain hname hlines =>
    have hplain : (loadLegacy path).run files =
        .ok (readLegacy (unifyNewlines cs)) files := by
      rw [loadLegacy, EStateM.run_bind, htext]
      rfl
    rw [loadFile_plain hname]
    exact run_applied hplain ((hlines.setsScan htags hignore).ofSettings htags hignore root)

/-- However it is written what to scan for, the same configuration is loaded, one that has defaults
in all its other fields. It can always be written: as printed objects with lists, or with texts
in which commas and blanks are between the items, and in lines that line feeds end. -/
theorem load_spellings (htags : ∀ item ∈ tags, IsItem item)
    (hignore : ∀ item ∈ ignore, IsItem item) (resolved : Bool) :
    (∀ root explicit path files cs,
      (settingsFile? root explicit).run files = .ok (some path) files →
      files.Holds path (encodeChars cs) → SpelledIn tags ignore resolved path cs →
      (load root explicit).run files =
        .ok { root, tags, ignore, includeResolved := resolved } files) ∧
    (∀ path tagsValue ignoreValue, lower path.suffix = ".json" →
      Spells tags tagsValue → Spells ignore ignoreValue → SpelledIn tags ignore resolved path
        (Json.print (.object (scanSettings tagsValue ignoreValue resolved))).toList) ∧
    ∀ path lines, path.name = ".gitodos" → PlainLines tags ignore resolved lines →
      SpelledIn tags ignore resolved path (lines.flatMap (· ++ ['\n'])) := by
  refine ⟨fun root explicit path files cs hpath hfile hspelled => ?_,
    fun path tagsValue ignoreValue hsuffix htagsValue hignoreValue => ?_,
    fun path lines hname hlines => ?_⟩
  · rw [load_eq]
    exact run_bind_ok.mpr
      ⟨some path, files, hpath, hspelled.run_loadFile htags hignore hfile root⟩
  · exact .objects hsuffix (read_scanSettings htagsValue hignoreValue resolved)
      (setsScan_scanSettings htagsValue hignoreValue resolved)
  · have hunbroken := hlines.unbroken htags hignore
    refine .plain hname ?_
    rw [Text.unifyNewlines_ended hunbroken, Text.brokenLines_ended hunbroken]
    exact hlines

/-- Lines that say what to scan for, with others among them. -/
def mixedLines : List (List Char) :=
  ["# old", "include_resolved = TRUE", "color = red", "", "ignore = ", "on", "tags = TODO, X=Y"].map
    String.toList

/-- A project with settings as a list, as a text, and in lines. -/
def spelledProject : Files where
  nodes := [
    (["project"], .directory),
    (["project", "list.json"], .file 0 (.bytes (encodeChars (Json.print (.object
      (scanSettings (.list [.text "TODO", .text "X=Y"]) (.list []) true))).toList))),
    (["project", "text.json"], .file 1 (.bytes (encodeChars (Json.print (.object
      (scanSettings (.text " TODO ,X=Y") (.text " ") true))).toList))),
    (["project", ".gitodos"], .file 2 (.bytes (encodeChars (mixedLines.flatMap (· ++ ['\n'])))))]
  current := []
  next := 3

theorem load_spellings_mixed :
    let loaded (name : String) :=
      (load ⟨.root, ["project"]⟩ (some ⟨.root, ["project", name]⟩)).run spelledProject
    let config : Config := { root := ⟨.root, ["project"]⟩, tags := ["TODO", "X=Y"], ignore := [],
                             includeResolved := true }
    loaded "list.json" = .ok config spelledProject ∧
      loaded "text.json" = .ok config spelledProject ∧
      loaded ".gitodos" = .ok config spelledProject := by
  have htags : ∀ item ∈ ["TODO", "X=Y"], IsItem item := by
    simp only [List.forall_mem_cons]
    exact ⟨⟨by decide, by decide, by decide, List.all_iff_forall_prop.mp (by decide)⟩,
      ⟨by decide, by decide, by decide, List.all_iff_forall_prop.mp (by decide)⟩,
      List.forall_mem_nil _⟩
  obtain ⟨hload, hobjects, hlines⟩ := load_spellings htags (List.forall_mem_nil _) true
  have hmixed : PlainLines ["TODO", "X=Y"] [] true mixedLines := by
    refine ⟨"TRUE", ["# old".toList, "color = red".toList, [], "on".toList], ?_, ?_, by decide⟩
    · exact .cons (.inr rfl) (.cons (.inr rfl) (.cons (.inr rfl) (.cons (.inr rfl) .nil)))
    · have hcolor : Idle "color = red".toList :=
        @Idle.other "color ".toList " red".toList (by decide) (by decide)
      simp only [List.forall_mem_cons]
      exact ⟨⟨.comment (by decide), List.all_iff_forall_prop.mp (by decide)⟩,
        ⟨hcolor, List.all_iff_forall_prop.mp (by decide)⟩,
        ⟨.blank (List.forall_mem_nil _), List.forall_mem_nil _⟩,
        ⟨.bare (by decide), List.all_iff_forall_prop.mp (by decide)⟩, List.forall_mem_nil _⟩
  have hspace : ∀ c ∈ [' '], Text.isBlank c = true := List.forall_mem_singleton.mpr rfl
  have htext : Spells ["TODO", "X=Y"] (.text " TODO ,X=Y") :=
    @Spells.joined _ [" TODO ".toList, "X=Y".toList] (by decide)
      (.cons ⟨[' '], [' '], hspace, hspace, rfl⟩ (.cons ⟨[], [], nofun, nofun, rfl⟩ .nil))
  have hblank : Spells [] (.text " ") := .blank rfl hspace
  refine ⟨?_, ?_, ?_⟩
  · exact hload _ _ _ _ _ rfl ⟨rfl, _, _, rfl, rfl⟩ (hobjects _ _ _ (by decide) .list .list)
  · exact hload _ _ _ _ _ rfl ⟨rfl, _, _, rfl, rfl⟩ (hobjects _ _ _ (by decide) htext hblank)
  · exact hload _ _ _ _ _ rfl ⟨rfl, _, _, rfl, rfl⟩ (hlines _ _ rfl hmixed)

end Marginalia.Config
