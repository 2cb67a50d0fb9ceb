import Marginalia.Proofs.Config.Departures
import Marginalia.Proofs.Files.Additions

/-!
# Configurations that can be used

Settings are checked while they are applied, all but the names of directories and files, which are
taken over as they are. What is applied later does not touch them, so that a configuration that was
loaded can be used if and only if the settings have texts there.
-/

namespace Marginalia

namespace Data

/-- The entry of a key, if there is one that can be had. -/
def valueAt? (d : Data) (key : String) : Option Data :=
  match d.member? key with
  | .ok value => value
  | .error _ => none

/-- The value of a setting, if there is one. -/
def setting? (settings : Data) (group key : String) : Option Data :=
  (settings.valueAt? group).bind (·.valueAt? key)

end Data

namespace Config

/-- All that asks for the configuration is answered. -/
structure Usable (config : Config) : Prop where
  dataPath : ∃ path, config.dataPath = .ok path
  snapshotPath : ∃ path, config.snapshotPath = .ok path
  databasePath : ∃ path, config.databasePath = .ok path
  scanner : ∃ scanner, Scanner.ofConfig config none = .ok scanner

variable {config config' : Config} {root path : Path} {settings group : Data}

-- ---------------------------------------------------------------------------
-- What can be used
-- ---------------------------------------------------------------------------

theorem childOf_ok {value : Data} :
    root.childOf value = .ok path ↔ ∃ s, value = .text s ∧ path = root.child s := by
  cases value <;> simp [Path.childOf, eq_comm]

theorem dataPath_ok : config.dataPath = .ok path ↔
    ∃ s, config.dataDir = .text s ∧ path = config.root.child s := childOf_ok

theorem usable_iff : config.Usable ↔ (∃ s, config.dataDir = .text s) ∧
    (∃ s, config.snapshotFile = .text s) ∧ ∃ s, config.databaseFile = .text s := by
  constructor
  · intro h
    obtain ⟨path, hpath⟩ := h.dataPath
    obtain ⟨s, hdata, -⟩ := dataPath_ok.mp hpath
    obtain ⟨path, hpath⟩ := h.snapshotPath
    obtain ⟨_, -, hchild⟩ := bind_ok.mp hpath
    obtain ⟨s', hsnapshot, -⟩ := childOf_ok.mp hchild
    obtain ⟨path, hpath⟩ := h.databasePath
    obtain ⟨_, -, hchild⟩ := bind_ok.mp hpath
    obtain ⟨s'', hdatabase, -⟩ := childOf_ok.mp hchild
    exact ⟨⟨s, hdata⟩, ⟨s', hsnapshot⟩, ⟨s'', hdatabase⟩⟩
  · rintro ⟨⟨s, hdata⟩, ⟨s', hsnapshot⟩, ⟨s'', hdatabase⟩⟩
    have hpath := dataPath_ok.mpr ⟨s, hdata, rfl⟩
    have hchild {file : Data} {name : String} (hfile : file = .text name) :
        (do (← config.dataPath).childOf file) = .ok ((config.root.child s).child name) :=
      bind_ok.mpr ⟨_, hpath, childOf_ok.mpr ⟨name, hfile, rfl⟩⟩
    refine ⟨⟨_, hpath⟩, ⟨_, hchild hsnapshot⟩, ⟨_, hchild hdatabase⟩, ?_⟩
    unfold Scanner.ofConfig
    rw [hdata]
    exact ⟨_, rfl⟩

-- ---------------------------------------------------------------------------
-- Settings
-- ---------------------------------------------------------------------------

/-- Two configurations that keep their files in the same places. -/
structure SamePlaces (config config' : Config) : Prop where
  dataDir : config'.dataDir = config.dataDir
  snapshotFile : config'.snapshotFile = config.snapshotFile
  databaseFile : config'.databaseFile = config.databaseFile

instance : Std.Refl SamePlaces where
  refl _ := ⟨rfl, rfl, rfl⟩

instance : IsTrans Config SamePlaces where
  trans _ _ _ h h' := ⟨h'.dataDir.trans h.dataDir, h'.snapshotFile.trans h.snapshotFile,
    h'.databaseFile.trans h.databaseFile⟩

theorem whenSet_ok {change : Data → Except Fault Config}
    (h : whenSet settings key config change = .ok config') :
    (settings.valueAt? key = none ∧ config' = config) ∨
      ∃ value, settings.valueAt? key = some value ∧ change value = .ok config' := by
  obtain ⟨value?, hmember, h⟩ := bind_ok.mp h
  rw [Data.valueAt?, hmember]
  cases value? with
  | none =>
    cases h
    exact .inl ⟨rfl, rfl⟩
  | some value => exact .inr ⟨value, rfl, h⟩

theorem whenSet_places {change : Data → Except Fault Config}
    (h : whenSet settings key config change = .ok config')
    (hchange : ∀ value config', change value = .ok config' → SamePlaces config config') :
    SamePlaces config config' := by
  rcases whenSet_ok h with ⟨-, rfl⟩ | ⟨value, -, h⟩
  · exact refl _
  · exact hchange value config' h

/-- A check that goes before a change of something else. -/
theorem places_of_check {check : Except Fault α} {change : α → Config}
    (h : (do .ok (change (← check))) = Except.ok config')
    (hchange : ∀ a, SamePlaces config (change a)) : SamePlaces config config' := by
  obtain ⟨a, -, h⟩ := bind_ok.mp h
  cases h
  exact hchange a

theorem applyProject_places (h : config.applyProject group = .ok config') :
    SamePlaces config config' :=
  whenSet_places h fun _ _ h => places_of_check h fun _ => ⟨rfl, rfl, rfl⟩

theorem applyScan_places (h : config.applyScan group = .ok config') :
    SamePlaces config config' := by
  obtain ⟨config₁, h₁, h⟩ := bind_ok.mp h
  obtain ⟨config₂, h₂, h⟩ := bind_ok.mp h
  have hsame₁ := whenSet_places h₁ fun _ _ h => places_of_check h fun _ => ⟨rfl, rfl, rfl⟩
  have hsame₂ := whenSet_places h₂ fun _ _ h => places_of_check h fun _ => ⟨rfl, rfl, rfl⟩
  have hsame := whenSet_places h fun _ _ h => places_of_check h fun _ => ⟨rfl, rfl, rfl⟩
  exact trans_of _ hsame₁ (trans_of _ hsame₂ hsame)

theorem applyJournal_places (h : config.applyJournal group = .ok config') :
    SamePlaces config config' := by
  obtain ⟨config₁, h₁, h⟩ := bind_ok.mp h
  obtain ⟨timeout?, -, h⟩ := bind_ok.mp h
  have hsame := whenSet_places h₁ fun _ _ h => places_of_check h fun _ => ⟨rfl, rfl, rfl⟩
  cases timeout? with
  | none =>
    cases h
    exact hsame
  | some timeout =>
    cases h
    exact ⟨hsame.dataDir, hsame.snapshotFile, hsame.databaseFile⟩

/-- A field that a setting does not change. -/
theorem whenSet_kept {change : Data → Config} (field : Config → Data)
    (h : whenSet settings key config (fun value => .ok (change value)) = .ok config')
    (hkept : ∀ value, field (change value) = field config) : field config' = field config := by
  rcases whenSet_ok h with ⟨-, rfl⟩ | ⟨value, -, h⟩
  · rfl
  · cases h
    exact hkept value

/-- A field that takes over the value of a setting as it is. -/
theorem whenSet_taken {change : Data → Config} (field : Config → Data)
    (h : whenSet settings key config (fun value => .ok (change value)) = .ok config')
    (htaken : ∀ value, field (change value) = value) :
    field config' = (settings.valueAt? key).getD (field config) := by
  rcases whenSet_ok h with ⟨hnone, rfl⟩ | ⟨value, hvalue, h⟩
  · rw [hnone]
    rfl
  · cases h
    rw [hvalue, htaken value]
    rfl

/-- The places that the settings name, and those by default where they name none. -/
structure PlacesOf (place : String → Option Data) (config config' : Config) : Prop where
  dataDir : config'.dataDir = (place "data").getD config.dataDir
  snapshotFile : config'.snapshotFile = (place "snapshot").getD config.snapshotFile
  databaseFile : config'.databaseFile = (place "database").getD config.databaseFile

theorem SamePlaces.placesOf {place : String → Option Data} (h : SamePlaces config config')
    (h' : PlacesOf place config' config'') : PlacesOf place config config'' :=
  ⟨h.dataDir ▸ h'.dataDir, h.snapshotFile ▸ h'.snapshotFile, h.databaseFile ▸ h'.databaseFile⟩

theorem PlacesOf.same {place : String → Option Data} (h : PlacesOf place config config')
    (h' : SamePlaces config' config'') : PlacesOf place config config'' :=
  ⟨h'.dataDir.trans h.dataDir, h'.snapshotFile.trans h.snapshotFile,
    h'.databaseFile.trans h.databaseFile⟩

theorem applyDirectories_places (h : config.applyDirectories group = .ok config') :
    PlacesOf group.valueAt? config config' := by
  obtain ⟨config₁, h₁, h⟩ := bind_ok.mp h
  obtain ⟨config₂, h₂, h⟩ := bind_ok.mp h
  have hdata := whenSet_taken dataDir h₁ fun _ => rfl
  have hdata₂ := whenSet_kept dataDir h₂ fun _ => rfl
  have hsnapshot₁ := whenSet_kept snapshotFile h₁ fun _ => rfl
  have hsnapshot := whenSet_taken snapshotFile h₂ fun _ => rfl
  have hdatabase₁ := whenSet_kept databaseFile h₁ fun _ => rfl
  have hdatabase₂ := whenSet_kept databaseFile h₂ fun _ => rfl
  refine ⟨?_, ?_, ?_⟩
  · rw [whenSet_kept dataDir h fun _ => rfl, hdata₂, hdata]
  · rw [whenSet_kept snapshotFile h fun _ => rfl, hsnapshot, hsnapshot₁]
  · rw [whenSet_taken databaseFile h fun _ => rfl, hdatabase₂, hdatabase₁]

theorem ofSettings_places (h : ofSettings root settings = .ok config) :
    PlacesOf (settings.setting? "directories") { root } config := by
  obtain ⟨config₁, h₁, h⟩ := bind_ok.mp h
  obtain ⟨config₂, h₂, h⟩ := bind_ok.mp h
  obtain ⟨config₃, h₃, h⟩ := bind_ok.mp h
  have hsame₁ := whenSet_places h₁ fun _ _ => applyProject_places
  have hsame₃ := whenSet_places h₃ fun _ _ => applyScan_places
  have hsame := whenSet_places h fun _ _ => applyJournal_places
  have hplaces : PlacesOf (settings.setting? "directories") config₁ config₂ := by
    rcases whenSet_ok h₂ with ⟨hnone, rfl⟩ | ⟨group, hgroup, h₂⟩
    · have hentry (key : String) : settings.setting? "directories" key = none := by
        rw [Data.setting?, hnone]
        rfl
      refine ⟨?_, ?_, ?_⟩
      all_goals rw [hentry]
      all_goals rfl
    · have hentry : settings.setting? "directories" = group.valueAt? := by
        funext key
        rw [Data.setting?, hgroup]
        rfl
      rw [hentry]
      exact applyDirectories_places h₂
  exact (hsame₁.placesOf hplaces).same (trans_of _ hsame₃ hsame)

/-- The settings have texts wherever they name directories and files. -/
def NamesPlaces (settings : Data) : Prop :=
  ∀ key ∈ ["data", "snapshot", "database"], ∀ value,
    settings.setting? "directories" key = some value → ∃ s, value = .text s

theorem exists_text_getD {value? : Option Data} {default : String} :
    (∃ s, value?.getD (.text default) = .text s) ↔ ∀ value, value? = some value →
      ∃ s, value = .text s := by
  cases value? with
  | none => exact ⟨fun _ => nofun, fun _ => ⟨default, rfl⟩⟩
  | some value => simp

theorem PlacesOf.usable_iff (h : PlacesOf (settings.setting? "directories") { root } config) :
    config.Usable ↔ NamesPlaces settings := by
  rw [Config.usable_iff, h.dataDir, h.snapshotFile, h.databaseFile, exists_text_getD,
    exists_text_getD, exists_text_getD]
  simp [NamesPlaces]

-- ---------------------------------------------------------------------------
-- Files of settings
-- ---------------------------------------------------------------------------

/-- The settings that a file writes. -/
def readSettings (path : Path) : FilesM Data :=
  let suffix := Text.lower path.suffix
  if suffix == ".py" then do return (← loadScript path).settings
  else if suffix == ".toml" then loadToml path
  else if suffix == ".json" then loadJson path
  else loadLegacy path

/-- The file with the settings of a project, if there is one. -/
def settingsFile? (root : Path) : Option Path → FilesM (Option Path)
  | some path => pure (some path)
  | none => findFile root

/-- The settings of a project, none if there is no file with settings. -/
def settingsFor (root : Path) (explicit : Option Path) : FilesM Data := do
  match ← settingsFile? root explicit with
  | some path => readSettings path
  | none => return .object []

theorem load_eq (root : Path) (explicit : Option Path) : load root explicit = (do
    match ← settingsFile? root explicit with
    | some path => loadFile root path
    | none => return { root }) := by
  cases explicit <;> rfl

variable {files files' : Files}

theorem run_liftResult_ok {result : Except Fault α} :
    (liftResult result).run files = .ok a files' ↔ result = .ok a ∧ files = files' := by
  cases result with
  | ok b => simp [liftResult]
  | error fault => exact ⟨fun h => (nomatch h), fun h => (nomatch h.1)⟩

theorem run_guarded_ok {reader : FilesM Config} :
    (guarded path reader).run files = .ok config files' ↔ reader.run files = .ok config files' := by
  simp only [EStateM.run, guarded]
  cases reader files <;> simp

theorem loadingFault_class (path : Path) (h : fault.isOrdinary = true) :
    (loadingFault path fault).faultClass = .config := by
  rw [loadingFault, h, Bool.not_true, if_neg Bool.false_ne_true]
  split <;> rfl

/-- What a reader is stopped by is a fault of the configuration, unless a script departs. -/
theorem run_guarded_error {reader : FilesM Config}
    (hreader : StopsBy (ScriptFault path files) reader files)
    (h : (guarded path reader).run files = .error fault files') :
    fault.faultClass = .config ∨
      ∃ departure, Departs path files departure ∧ fault = .departure departure := by
  simp only [EStateM.run, guarded] at h
  split at h
  · cases h
  · rename_i fault' files₁ hrun
    cases h
    rcases hreader hrun with hordinary | ⟨departure, hdeparts, rfl⟩
    · exact .inl (loadingFault_class path hordinary)
    · exact .inr ⟨departure, hdeparts, rfl⟩

theorem run_applied_ok {reader : FilesM Data}
    (h : (guarded path do liftResult (ofSettings root (← reader))).run files = .ok config files') :
    ∃ settings, reader.run files = .ok settings files' ∧ ofSettings root settings = .ok config := by
  obtain ⟨settings, files₁, hreader, h⟩ := run_bind_ok.mp (run_guarded_ok.mp h)
  obtain ⟨hsettings, rfl⟩ := run_liftResult_ok.mp h
  exact ⟨settings, hreader, hsettings⟩

theorem loadFile_ok (h : (loadFile root path).run files = .ok config files') :
    ∃ settings, (readSettings path).run files = .ok settings files' ∧
      PlacesOf (settings.setting? "directories") { root } config := by
  have happlied {reader : FilesM Data}
      (h : (guarded path do liftResult (ofSettings root (← reader))).run files =
        .ok config files') : ∃ settings, reader.run files = .ok settings files' ∧
          PlacesOf (settings.setting? "directories") { root } config := by
    obtain ⟨settings, hreader, hsettings⟩ := run_applied_ok h
    exact ⟨settings, hreader, ofSettings_places hsettings⟩
  unfold loadFile at h
  unfold readSettings
  dsimp only at h ⊢
  split at h
  case isTrue hscript =>
    rw [if_pos hscript]
    obtain ⟨script, files₁, hread, h⟩ := run_bind_ok.mp (run_guarded_ok.mp h)
    obtain ⟨config₁, files₂, hlift, h⟩ := run_bind_ok.mp h
    obtain ⟨hconfig, rfl⟩ := run_liftResult_ok.mp hlift
    cases h
    refine ⟨script.settings, run_bind_ok.mpr ⟨script, _, hread, rfl⟩, ?_⟩
    exact (ofSettings_places hconfig).same ⟨rfl, rfl, rfl⟩
  case isFalse hscript =>
    rw [if_neg hscript]
    split at h
    case isTrue htoml =>
      rw [if_pos htoml]
      exact happlied h
    case isFalse htoml =>
      rw [if_neg htoml]
      split at h
      case isTrue hjson =>
        rw [if_pos hjson]
        exact happlied h
      case isFalse hjson =>
        rw [if_neg hjson]
        split at h
        · exact happlied h
        · cases h

theorem loadFile_error (h : (loadFile root path).run files = .error fault files') :
    fault.faultClass = .config ∨
      ∃ departure, Departs path files departure ∧ fault = .departure departure := by
  have happlied {reader : FilesM Data} (hreader : Remains reader) :
      StopsBy (ScriptFault path files) (do liftResult (ofSettings root (← reader))) files :=
    (hreader.bind fun settings =>
      remains_liftResult (orderly_ofSettings root settings)).scriptFault path files _
  unfold loadFile at h
  dsimp only at h
  split at h
  · refine run_guarded_error (stopsBy_bind (stopsBy_loadScript path files) ?_) h
    intro script files₁ _
    exact ((remains_liftResult (orderly_ofSettings root _)).bind
      fun _ => remains_pure _).scriptFault path files _
  · split at h
    · exact run_guarded_error (happlied (remains_loadToml path)) h
    · split at h
      · exact run_guarded_error (happlied (remains_loadJson path)) h
      · split at h
        · exact run_guarded_error (happlied (remains_loadLegacy path)) h
        · cases h
          exact .inl rfl

-- ---------------------------------------------------------------------------
-- Loading
-- ---------------------------------------------------------------------------

theorem respects_decodedText (path : Path) : Respects Eq (decodedText path) := by
  refine (Files.respects_readBytes path).bind fun bytes => ?_
  split
  · exact respects_pure _
  · exact respects_throw _

theorem respects_loadToml (path : Path) : Respects Eq (loadToml path) := by
  refine (respects_decodedText path).bind fun cs => ?_
  split
  · exact respects_pure _
  all_goals exact respects_throw _

theorem respects_loadJson (path : Path) : Respects Eq (loadJson path) := by
  refine (respects_decodedText path).bind fun cs => ?_
  split
  · exact respects_pure _
  all_goals exact respects_throw _

theorem respects_loadLegacy (path : Path) : Respects Eq (loadLegacy path) :=
  (respects_decodedText path).bind fun _ => respects_pure _

theorem respects_loadScript (path : Path) : Respects Eq (loadScript path) := by
  intro files
  unfold loadScript
  refine ends_unless (fun _ => rfl) fun _ => ?_
  refine (respects_get.bind fun _ => (Files.respects_readContent _).bind fun content => ?_) files
  split
  · split
    · exact respects_throw _
    · exact respects_throw _
    · exact respects_pure _
  · exact respects_pure _
  · exact respects_throw _

theorem respects_liftResult (result : Except Fault α) : Respects Eq (liftResult result) := by
  cases result with
  | ok a => exact respects_pure a
  | error fault => exact respects_throw fault

theorem respects_guarded {reader : FilesM Config} (h : Respects Eq reader) :
    Respects Eq (guarded path reader) := by
  intro files
  cases hrun : reader.run files with
  | ok config files' => exact ends_of_ok (run_guarded_ok.mpr hrun) ((h files).ok hrun)
  | error fault files' =>
    have hguarded : (guarded path reader).run files = .error (loadingFault path fault) files' := by
      simp only [EStateM.run] at hrun
      simp only [EStateM.run, guarded, hrun]
    exact ends_of_error hguarded ((h files).error hrun)

theorem respects_loadFile (root path : Path) : Respects Eq (loadFile root path) := by
  unfold loadFile
  dsimp only
  split
  · exact respects_guarded ((respects_loadScript path).bind fun _ =>
      (respects_liftResult _).bind fun _ => respects_pure _)
  · split
    · exact respects_guarded ((respects_loadToml path).bind fun _ => respects_liftResult _)
    · split
      · exact respects_guarded ((respects_loadJson path).bind fun _ => respects_liftResult _)
      · split
        · exact respects_guarded ((respects_loadLegacy path).bind fun _ => respects_liftResult _)
        · exact respects_throw _

theorem respects_findAmong (root : Path) (names : List String) :
    Respects Eq (findAmong root names) := by
  induction names with
  | nil => exact respects_pure _
  | cons name rest ih =>
    refine (Files.respects_doesExist _).bind fun isThere => ?_
    split
    · exact respects_pure _
    · exact ih

theorem walk_error {names : List String} (h : files.walk place names = .error code) :
    Files.meansAbsent code = true ∨ code = errNameTooLong := by
  induction names generalizing place with
  | nil => cases h
  | cons name rest ih =>
    rw [Files.walk] at h
    split at h
    · cases h
      exact .inl rfl
    · cases h
      exact .inl rfl
    · split at h
      · cases h
        exact .inr rfl
      · split at h
        · exact ih h
        · exact ih h

theorem look_error (h : files.look path = .error code) :
    Files.meansAbsent code = true ∨ code = errNameTooLong := by
  unfold Files.look at h
  cases hplace : files.locate path with
  | error reason =>
    rw [hplace] at h
    cases h
    unfold Files.locate at hplace
    split at hplace
    · cases hplace
      exact .inr rfl
    · exact walk_error hplace
  | ok place =>
    cases hnode : files.node? place with
    | none =>
      obtain rfl : errNoEntry = code := by
        simpa [hplace, hnode, bind, Except.bind] using h
      exact .inl rfl
    | some node => simp [hplace, hnode, bind, Except.bind] at h

/-- A path that is too long to be followed cannot be asked for. -/
theorem doesExist_error (h : (Files.doesExist path).run files = .error fault files') :
    fault = Files.refusal path errNameTooLong := by
  rcases run_bind_error.mp h with hfind | ⟨node?, files₁, -, h⟩
  · simp only [EStateM.run, Files.find?] at hfind
    split at hfind
    · cases hfind
    · split at hfind
      · cases hfind
      · rename_i code hlook
        split at hfind
        · cases hfind
        · rename_i hpresent
          cases hfind
          rw [(look_error hlook).resolve_left hpresent]
  · cases h

theorem findAmong_error {names : List String}
    (h : (findAmong root names).run files = .error fault files') :
    ∃ name ∈ names, fault = Files.refusal (root.child name) errNameTooLong := by
  induction names generalizing files with
  | nil => cases h
  | cons name rest ih =>
    rcases run_bind_error.mp h with hfault | ⟨isThere, files₁, -, h⟩
    · exact ⟨name, List.mem_cons_self, doesExist_error hfault⟩
    · split at h
      · cases h
      · obtain ⟨other, hother, hfault⟩ := ih h
        exact ⟨other, List.mem_cons_of_mem _ hother, hfault⟩

theorem respects_settingsFile? (root : Path) (explicit : Option Path) :
    Respects Eq (settingsFile? root explicit) := by
  cases explicit with
  | some path => exact respects_pure _
  | none => exact respects_findAmong root fileNames

theorem respects_load (root : Path) (explicit : Option Path) :
    Respects Eq (load root explicit) := by
  rw [load_eq]
  refine (respects_settingsFile? root explicit).bind fun path? => ?_
  cases path? with
  | some path => exact respects_loadFile root path
  | none => exact respects_pure _

theorem load_ok (h : (load root explicit).run files = .ok config files') :
    ∃ settings, (settingsFor root explicit).run files = .ok settings files' ∧
      PlacesOf (settings.setting? "directories") { root } config := by
  rw [load_eq] at h
  obtain ⟨path?, files₁, hpath, h⟩ := run_bind_ok.mp h
  cases path? with
  | some path =>
    obtain ⟨settings, hread, hplaces⟩ := loadFile_ok h
    exact ⟨settings, run_bind_ok.mpr ⟨some path, files₁, hpath, hread⟩, hplaces⟩
  | none =>
    cases h
    exact ⟨.object [], run_bind_ok.mpr ⟨none, _, hpath, rfl⟩, rfl, rfl, rfl⟩

/-- The settings of a project are a script that leaves the program. -/
def SettingsDepart (root : Path) (explicit : Option Path) (files : Files)
    (departure : Departure) : Prop :=
  ∃ path, (settingsFile? root explicit).run files = .ok (some path) files ∧
    Departs path files departure

theorem load_error (h : (load root explicit).run files = .error fault files') :
    fault.faultClass = .config ∨ explicit = none ∧
      (∃ name ∈ fileNames, fault = Files.refusal (root.child name) errNameTooLong) ∨
      ∃ departure, SettingsDepart root explicit files departure ∧ fault = .departure departure := by
  rw [load_eq] at h
  rcases run_bind_error.mp h with hfind | ⟨path?, files₁, hfind, h⟩
  · cases explicit with
    | some path => cases hfind
    | none => exact .inr (.inl ⟨rfl, findAmong_error hfind⟩)
  · obtain rfl := (respects_settingsFile? root explicit files).ok hfind
    cases path? with
    | some path =>
      refine (loadFile_error h).imp_right fun ⟨departure, hdeparts, hfault⟩ => ?_
      exact .inr ⟨departure, ⟨path, hfind, hdeparts⟩, hfault⟩
    | none => cases h

/-- Loading leaves the files alone. It fails with a fault of the configuration, because the project
is too far from the root to look for its settings, or because its script leaves the program. A
configuration that is loaded can be used if and only if the settings have texts where they name
directories and files. -/
theorem load_usable (root : Path) (explicit : Option Path) (files : Files) :
    match (load root explicit).run files with
    | .ok config files' => files' = files ∧ ∃ settings,
        (settingsFor root explicit).run files = .ok settings files ∧
          (config.Usable ↔ NamesPlaces settings)
    | .error fault files' => files' = files ∧ (fault.faultClass = .config ∨
        explicit = none ∧
          (∃ name ∈ fileNames, fault = Files.refusal (root.child name) errNameTooLong) ∨
        ∃ departure, SettingsDepart root explicit files departure ∧
          fault = .departure departure) := by
  have hsame := respects_load root explicit files
  cases h : (load root explicit).run files with
  | ok config files' =>
    obtain rfl := hsame.ok h
    obtain ⟨settings, hsettings, hplaces⟩ := load_ok h
    exact ⟨rfl, settings, hsettings, hplaces.usable_iff⟩
  | error fault files' =>
    obtain rfl := hsame.error h
    exact ⟨rfl, load_error h⟩

/-- A project whose settings name a number as the data directory. -/
def numberedProject : Files where
  nodes := [
    (["project"], .directory),
    (["project", "issues_config.json"],
      .file 0 (.bytes (Text.encode "\x7b\"directories\": \x7b\"data\": 5\x7d\x7d")))]
  current := []
  next := 1

/-- Whether the data directory of a project has a path, if its configuration is loaded. -/
def hasDataPath? (root : Path) (files : Files) : Option Bool :=
  match (load root none).run files with
  | .ok config _ => some config.dataPath.toBool
  | .error _ _ => none

theorem load_unusable : ∃ config files',
    (load ⟨.root, ["project"]⟩ none).run numberedProject = .ok config files' ∧ ¬ config.Usable := by
  have hload : hasDataPath? ⟨.root, ["project"]⟩ numberedProject = some false := by
    decide +kernel
  unfold hasDataPath? at hload
  cases h : (load ⟨.root, ["project"]⟩ none).run numberedProject with
  | error fault files' => simp [h] at hload
  | ok config files' =>
    refine ⟨config, files', rfl, fun husable => ?_⟩
    obtain ⟨path, hpath⟩ := husable.dataPath
    simp [h, hpath, Except.toBool] at hload

end Config

end Marginalia
