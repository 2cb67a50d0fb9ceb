import Marginalia.Proofs.Config.Usable
import Marginalia.Proofs.Engine.Frame
import Marginalia.Proofs.Files.Refusals
import Marginalia.Proofs.Journal.Stops
import Marginalia.Proofs.Snapshot.RoundTrip

/-!
# What stops an engine

An engine whose journal is not open yet, in any workspace. Besides the faults of the program itself,
its work is stopped by a configuration that names a place by something else than a text, by a
listing that is no text, by refusals of the file system, and by what stops work on the journal. What
is wrong with the journal is read off the files as they are at the start: everything that is done to
them before the journal is opened only adds to them.
-/

namespace Marginalia

open Files (checkPath)
open Journal (Store Handle JournalM)

-- ---------------------------------------------------------------------------
-- Configurations
-- ---------------------------------------------------------------------------

namespace Config

variable {config : Config} {path : Path}

/-- A configuration that names a place by something else than a text, as the fault shows it. -/
inductive Misnames (config : Config) : Fault → Prop
  | place {value : Data}
      (h : value = config.dataDir ∨ value = config.snapshotFile ∨ value = config.databaseFile)
      (hkind : ∀ s, value ≠ .text s) : Misnames config (.noPathPart value.kind)
  | ignored (hkind : ∀ s, config.dataDir ≠ .text s) :
      Misnames config (.noMember config.dataDir.kind "strip")

theorem childOf_error {root : Path} {value : Data} (h : root.childOf value = .error fault) :
    (∀ s, value ≠ .text s) ∧ fault = .noPathPart value.kind := by
  cases value <;> cases h <;> exact ⟨nofun, rfl⟩

theorem dataPath_error (h : config.dataPath = .error fault) : config.Misnames fault := by
  obtain ⟨hkind, rfl⟩ := childOf_error h
  exact .place (.inl rfl) hkind

theorem snapshotPath_error (h : config.snapshotPath = .error fault) : config.Misnames fault := by
  rcases bind_error.mp h with h | ⟨directory, -, h⟩
  · exact dataPath_error h
  · obtain ⟨hkind, rfl⟩ := childOf_error h
    exact .place (.inr (.inl rfl)) hkind

theorem databasePath_error (h : config.databasePath = .error fault) : config.Misnames fault := by
  rcases bind_error.mp h with h | ⟨directory, -, h⟩
  · exact dataPath_error h
  · obtain ⟨hkind, rfl⟩ := childOf_error h
    exact .place (.inr (.inr rfl)) hkind

/-- Texts are tags. -/
theorem overrideTags_texts (tags : List String) :
    overrideTags (some (.list (tags.map .text))) = .ok (some tags) := by
  have hitems : (tags.map Data.text).mapM (Data.textFor "strip") = .ok tags := by
    induction tags with
    | nil => rfl
    | cons tag rest ih =>
      rw [List.map_cons, List.mapM_cons, ih]
      rfl
  exact bind_ok.mpr ⟨_, rfl, bind_ok.mpr ⟨tags, hitems, rfl⟩⟩

theorem ofConfig_error {tags : Option Data} (htags : ∃ names, overrideTags tags = .ok names)
    (h : Scanner.ofConfig config tags = .error fault) : config.Misnames fault := by
  obtain ⟨names, hnames⟩ := htags
  rcases bind_error.mp h with h | ⟨directory, -, h⟩
  · cases hdata : config.dataDir with
    | text s =>
      rw [hdata] at h
      cases h
    | _ =>
      rw [hdata] at h
      cases h
      exact hdata ▸ .ignored (by simp [hdata])
  · rw [hnames] at h
    cases h

end Config

namespace Engine

variable {engine engine' : Engine} {P : Fault → Prop} {handle : Handle}

/-- The tables of the journal that the configuration names, as they are in its file. -/
def tables (engine : Engine) : Store :=
  match engine.config.databasePath with
  | .ok path => Journal.tablesAt engine.workspace.files
      (path.placeFrom engine.workspace.files.current)
  | .error _ => .fresh

/-- An engine with the same configuration, at the same time, with files that were added to. -/
structure Extends (engine engine' : Engine) : Prop where
  config : engine'.config = engine.config
  files : engine.workspace.files.Extends engine'.workspace.files
  journal : engine'.journal = engine.journal
  now : engine'.workspace.now = engine.workspace.now

theorem Looked.extends (h : engine.Looked engine') : engine.Extends engine' :=
  ⟨h.config, h.files ▸ refl _, h.journal, h.now⟩

theorem Extends.tables (h : engine.Extends engine') : engine'.tables = engine.tables := by
  unfold Engine.tables
  rw [h.config, h.files.current]
  split
  · exact Journal.tablesAt_of_extends h.files _
  · rfl

/-- What is in the way of opening the journal. -/
inductive Unopened (engine : Engine) : Fault → Prop
  | misnamed (h : engine.config.Misnames fault) : Unopened engine fault
  | unopened (hpath : engine.config.databasePath = .ok path)
      (h : Journal.Unopened path engine.workspace.files fault) : Unopened engine fault

theorem Extends.unopened (h : engine.Extends engine') (hfault : engine'.Unopened fault) :
    engine.Unopened fault := by
  cases hfault with
  | misnamed hmisnamed => exact .misnamed (h.config ▸ hmisnamed)
  | unopened hpath hunopened => exact .unopened (h.config ▸ hpath) (hunopened.of_extends h.files)

-- ---------------------------------------------------------------------------
-- The journal
-- ---------------------------------------------------------------------------

theorem stopsBy_onFiles {work : FilesM α} (h : StopsBy P work engine.workspace.files) :
    StopsBy P (onFiles work) engine := by
  intro fault engine' hrun
  simp only [EStateM.run, onFiles] at hrun
  split at hrun
  · cases hrun
  · cases hrun
    exact h ‹_›

theorem run_onFiles_ok {work : FilesM α} (h : (onFiles work).run engine = .ok a engine') :
    ∃ files, work.run engine.workspace.files = .ok a files ∧
      engine' = { engine with workspace.files := files } := by
  simp only [EStateM.run, onFiles] at h
  split at h
  · cases h
    exact ⟨_, ‹_›, rfl⟩
  · cases h

theorem stopsBy_openJournal (hclosed : engine.journal = none) :
    StopsBy (OwnOr engine.Unopened) openJournal engine := by
  refine stopsBy_get_bind ?_
  rw [hclosed]
  refine stopsBy_bind (stopsBy_liftExcept fun fault hfault =>
    .inr (.misnamed (Config.databasePath_error hfault))) fun path engine₁ hlift => ?_
  obtain ⟨hpath, rfl⟩ := run_liftExcept_ok.mp hlift
  refine stopsBy_bind (stopsBy_onFiles ?_) fun _ _ _ =>
    stopsBy_bind (stopsBy_of_ok rfl) fun _ _ _ => stopsBy_pure _
  exact (Journal.stopsBy_openFile path _ _).mono fun _ hfault =>
    hfault.imp_right (.unopened hpath)

/-- The journal was opened, and nothing was done with it since. -/
structure Opened (engine engine' : Engine) (handle : Handle) : Prop where
  journal : engine'.journal = some handle
  current : handle.current engine'.workspace.files = .ok handle.store
  store : handle.store = { engine.tables with version := some Journal.layoutVersion }
  now : engine'.workspace.now = engine.workspace.now
  connection : handle.connection = {}

theorem opened_openJournal (hclosed : engine.journal = none)
    (h : openJournal.run engine = .ok handle engine') : engine.Opened engine' handle := by
  unfold openJournal at h
  rw [run_get_bind, hclosed] at h
  obtain ⟨path, engine₁, hlift, h⟩ := run_bind_ok.mp h
  obtain ⟨hpath, rfl⟩ := run_liftExcept_ok.mp hlift
  obtain ⟨handle, engine₂, hrun, h⟩ := run_bind_ok.mp h
  obtain ⟨files, hopen, rfl⟩ := run_onFiles_ok hrun
  cases h
  have hopening := (Journal.openFile_opening path _ _).ok hopen
  have htables : engine.tables = Journal.tablesAt engine.workspace.files
      (path.placeFrom engine.workspace.files.current) := by
    rw [tables, hpath]
  exact ⟨rfl, hopening.current, htables ▸ hopening.tables, rfl, Journal.connection_openFile hopen⟩

/-- The session in which work on a journal starts that was just opened. -/
theorem Opened.session (h : engine.Opened engine' handle) :
    ∃ session, engine'.sessionOf handle handle.store = session ∧ session.Clean ∧
      session.store = { engine.tables with version := some Journal.layoutVersion } ∧
      session.now = engine.workspace.now := by
  refine ⟨_, rfl, ?_, h.store, h.now⟩
  simp [Journal.Session.Clean, sessionOf, Journal.Session.connected, h.connection]

theorem stopsBy_onJournal {work : JournalM α} (hopen : StopsBy P openJournal engine)
    (hwork : ∀ handle engine', openJournal.run engine = .ok handle engine' →
      handle.current engine'.workspace.files = .ok handle.store ∧
        StopsBy P work (engine'.sessionOf handle handle.store)) :
    StopsBy P (onJournal work) engine := by
  refine stopsBy_bind hopen fun handle engine₁ hrun => stopsBy_get_bind ?_
  obtain ⟨hcurrent, hwork⟩ := hwork handle engine₁ hrun
  refine stopsBy_bind (stopsBy_of_ok (run_liftExcept_ok.mpr ⟨hcurrent, rfl⟩)) fun store t ht => ?_
  obtain ⟨hstore, rfl⟩ := run_liftExcept_ok.mp ht
  obtain rfl : handle.store = store := Except.ok.inj (hcurrent.symm.trans hstore)
  intro fault engine₂ hfault
  simp only [EStateM.run] at hfault
  split at hfault
  · cases hfault
  · cases hfault
    exact hwork ‹_›

/-- Work that is the first to be done on the journal. -/
theorem stopsBy_onFreshJournal {work : JournalM α} (hclosed : engine.journal = none)
    (hopen : ∀ fault, engine.Unopened fault → P fault)
    (hwork : ∀ session, session.Clean →
      session.store = { engine.tables with version := some Journal.layoutVersion } →
      session.now = engine.workspace.now → StopsBy (OwnOr P) work session) :
    StopsBy (OwnOr P) (onJournal work) engine := by
  refine stopsBy_onJournal ((stopsBy_openJournal hclosed).mono fun fault hfault =>
    hfault.imp_right (hopen fault)) fun handle engine₁ hrun => ?_
  have hopened := opened_openJournal hclosed hrun
  obtain ⟨session, hsession, hclean, hstore, hnow⟩ := hopened.session
  rw [hsession]
  exact ⟨hopened.current, hwork session hclean hstore hnow⟩

theorem stopsBy_locked {block : EngineM α} {path : Path}
    (hlock : ∀ fault, path.Bars fault → P fault)
    (hblock : ∀ engine', engine.Extends engine' → StopsBy (OwnOr P) block engine') :
    StopsBy (OwnOr P) (locked path block) engine := by
  refine stopsBy_bind (stopsBy_onFiles ((Files.stopsBy_acquire path _).mono ?_))
    fun number engine₁ hlifted => ?_
  · rintro fault (rfl | hfault)
    · exact .inl rfl
    · exact .inr (hlock fault hfault)
  · obtain ⟨files, hacquire, rfl⟩ := run_onFiles_ok hlifted
    have hextends : engine.Extends { engine with workspace.files := files } :=
      ⟨rfl, Files.extends_acquire hacquire, rfl, rfl⟩
    intro fault engine₂ hrun
    simp only [EStateM.run] at hrun
    split at hrun
    · cases hrun
    · cases hrun
      exact hblock _ hextends ‹_›

/-- What is in the way of work on the journal under its lock. -/
inductive Unlocked (engine : Engine) : Fault → Prop
  | unopened (h : engine.Unopened fault) : Unlocked engine fault
  | barred (hpath : engine.config.databasePath = .ok path) (h : path.Bars fault) :
      Unlocked engine fault

theorem stopsBy_onLockedJournal {work : JournalM α} (hclosed : engine.journal = none)
    (hlock : ∀ fault, engine.Unlocked fault → P fault)
    (hwork : ∀ session, session.Clean →
      session.store = { engine.tables with version := some Journal.layoutVersion } →
      session.now = engine.workspace.now → StopsBy (OwnOr P) work session) :
    StopsBy (OwnOr P) (onLockedJournal work) engine := by
  refine stopsBy_get_bind (stopsBy_bind (stopsBy_liftExcept fun fault hfault =>
    .inr (hlock fault (.unopened (.misnamed (Config.databasePath_error hfault)))))
    fun path engine₁ hlift => ?_)
  obtain ⟨hpath, rfl⟩ := run_liftExcept_ok.mp hlift
  refine stopsBy_locked (fun fault hfault => hlock fault (.barred hpath hfault))
    fun engine₁ hextends => ?_
  -- The lock file is there by now, which is no part of the journal.
  refine stopsBy_onFreshJournal (hextends.journal.trans hclosed)
    (fun fault hfault => hlock fault (.unopened (hextends.unopened hfault))) ?_
  rw [hextends.tables, hextends.now]
  exact hwork

-- ---------------------------------------------------------------------------
-- Work on the journal
-- ---------------------------------------------------------------------------

/-- What is in the way of cancelling a record. -/
inductive Uncancelled (engine : Engine) (n : Int) : Fault → Prop
  | unlocked (h : engine.Unlocked fault) : Uncancelled engine n fault
  | tables (h : engine.tables.Bars fault) : Uncancelled engine n fault
  | number (h : Journal.Unstorable (.int n) fault) : Uncancelled engine n fault

theorem stopsBy_cancel (hclosed : engine.journal = none) (n : Int) :
    StopsBy (OwnOr (engine.Uncancelled n)) (cancel (.int n)) engine := by
  refine stopsBy_onLockedJournal hclosed (fun _ => .unlocked) fun session hclean hstore _ => ?_
  refine (Journal.stopsBy_cancel hclean n).mono fun fault hfault => hfault.imp_right ?_
  rw [hstore]
  exact fun hfault => hfault.elim (fun h => .tables h.version) .number

/-- What is in the way of listing records. -/
inductive Unlisted (engine : Engine) (limit offset type : Data) : Fault → Prop
  | unopened (h : engine.Unopened fault) : Unlisted engine limit offset type fault
  | tables (h : engine.tables.Bars fault) : Unlisted engine limit offset type fault
  | values (h : Journal.Unlisted limit offset type fault) : Unlisted engine limit offset type fault

section Listing

variable {limit offset status type : Data}

theorem stopsBy_list_session {session : Journal.Session} (hclean : session.Clean)
    (hstore : session.store = { engine.tables with version := some Journal.layoutVersion })
    (hlimit : Journal.IsNumber limit) (hoffset : Journal.IsNumber offset)
    (htype : Journal.IsWord type) (status : Option Journal.Status) :
    StopsBy (OwnOr (engine.Unlisted limit offset type)) (Journal.list limit offset status type)
      session := by
  refine (Journal.stopsBy_list hclean hlimit hoffset htype status).mono fun fault hfault => .inr ?_
  rw [hstore] at hfault
  exact hfault.elim (fun h => .tables h.version) .values

theorem stopsBy_listActive (hclosed : engine.journal = none) (hlimit : Journal.IsNumber limit)
    (hoffset : Journal.IsNumber offset) :
    StopsBy (OwnOr (engine.Unlisted limit offset .null)) (listActive limit offset) engine :=
  stopsBy_onFreshJournal hclosed (fun _ => .unopened) fun _ hclean hstore _ =>
    stopsBy_list_session hclean hstore hlimit hoffset (.inl rfl) _

/-- A status that can be chosen on a command line: none, a double dash, or one by its name. -/
def IsStatus (status : Data) : Prop :=
  status = .null ∨ status = .list [] ∨ ∃ known : Journal.Status, status = .text known.name

theorem stopsBy_list (hclosed : engine.journal = none) (hlimit : Journal.IsNumber limit)
    (hoffset : Journal.IsNumber offset) (hstatus : IsStatus status)
    (htype : Journal.IsWord type) :
    StopsBy (OwnOr (engine.Unlisted limit offset type)) (list limit offset status type)
      engine := by
  have hopen : StopsBy (OwnOr (engine.Unlisted limit offset type)) openJournal engine :=
    (stopsBy_openJournal hclosed).mono fun _ hfault => hfault.imp_right .unopened
  refine stopsBy_bind hopen fun handle engine₁ hrun => ?_
  have hopened := opened_openJournal hclosed hrun
  have hwork (known : Option Journal.Status) : StopsBy (OwnOr (engine.Unlisted limit offset type))
      (onJournal (Journal.list limit offset known type)) engine₁ := by
    -- The journal is open by now, and is not opened again.
    have hagain : openJournal.run engine₁ = .ok handle engine₁ := by
      unfold openJournal
      rw [run_get_bind, hopened.journal]
      rfl
    refine stopsBy_onJournal (stopsBy_of_ok hagain) fun handle' engine₂ hrun' => ?_
    obtain ⟨rfl, rfl⟩ := EStateM.Result.ok.inj (hagain.symm.trans hrun')
    obtain ⟨session, hsession, hclean, hstore, -⟩ := hopened.session
    rw [hsession]
    exact ⟨hopened.current, stopsBy_list_session hclean hstore hlimit hoffset htype known⟩
  split
  · rename_i hholds
    obtain ⟨known, hknown⟩ : ∃ known, Journal.Status.ofData status = .ok known := by
      rcases hstatus with rfl | rfl | ⟨known, rfl⟩
      · cases hholds
      · cases hholds
      · exact ⟨known, by simp [Journal.Status.ofData, Data.text?, Journal.Status.ofName?_name]⟩
    rw [hknown]
    exact hwork (some known)
  · exact stopsBy_bind (stopsBy_pure _) fun known t ht => by
      cases ht
      exact hwork none

end Listing

/-- What is in the way of counting records. -/
inductive Uncounted (engine : Engine) : Fault → Prop
  | unopened (h : engine.Unopened fault) : Uncounted engine fault
  | clock (h : (engine.workspace.now.daysBefore? Journal.week).map Time.Moment.millisText = none) :
      Uncounted engine .dateRange

theorem stopsBy_stats (hclosed : engine.journal = none) :
    StopsBy (OwnOr engine.Uncounted) stats engine := by
  refine stopsBy_onFreshJournal hclosed (fun _ => .unopened) fun session _ _ hnow => ?_
  rintro fault t hrun
  obtain ⟨hclock, rfl⟩ := Journal.stopsBy_stats session hrun
  exact .inr (.clock (hnow ▸ hclock))

-- ---------------------------------------------------------------------------
-- What work on the journal gives
-- ---------------------------------------------------------------------------

theorem run_onJournal_ok {work : JournalM α} (h : (onJournal work).run engine = .ok a engine') :
    ∃ session session', work.run session = .ok a session' := by
  have hends : Ends (fun a _ => ∃ session session', work.run session = .ok a session')
      (fun _ => True) (onJournal work) engine :=
    ends_onJournal ⟨fun _ => ⟨trivial, fun _ _ => ⟨fun hrun => ⟨_, _, hrun⟩, fun _ => trivial⟩⟩,
      fun _ => trivial⟩
  exact hends.ok h

theorem run_onLockedJournal_ok {work : JournalM α}
    (h : (onLockedJournal work).run engine = .ok a engine') :
    ∃ session session', work.run session = .ok a session' := by
  obtain ⟨path, engine₁, -, h⟩ := run_bind_ok.mp (run_get_bind.symm.trans h)
  obtain ⟨lock, engine₂, -, h⟩ := run_bind_ok.mp h
  simp only [EStateM.run] at h
  split at h
  · cases h
    exact run_onJournal_ok ‹_›
  · cases h

theorem isRead_cancel (h : (cancel value).run engine = .ok entry engine') : entry.IsRead := by
  obtain ⟨session, session', hrun⟩ := run_onLockedJournal_ok h
  exact Journal.isRead_cancel hrun

theorem isRead_listActive {limit offset : Data}
    (h : (listActive limit offset).run engine = .ok entries engine') :
    ∀ entry ∈ entries, entry.IsRead := by
  obtain ⟨session, session', hrun⟩ := run_onJournal_ok h
  exact Journal.isRead_list hrun

theorem isRead_list {limit offset status type : Data}
    (h : (list limit offset status type).run engine = .ok entries engine') :
    ∀ entry ∈ entries, entry.IsRead := by
  obtain ⟨handle, engine₁, -, h⟩ := run_bind_ok.mp h
  split at h
  all_goals
    obtain ⟨known, engine₂, -, h⟩ := run_bind_ok.mp h
    obtain ⟨session, session', hrun⟩ := run_onJournal_ok h
    exact Journal.isRead_list hrun

-- ---------------------------------------------------------------------------
-- Scans
-- ---------------------------------------------------------------------------

/-- What is in the way of a scan. -/
inductive Unscanned (engine : Engine) (directory : Data) : Fault → Prop
  | misnamed (h : engine.config.Misnames fault) : Unscanned engine directory fault
  | listing (h : Source.Spoils (engine.workspace.listing
      (if directory.holds then directory else .text ".")) fault) : Unscanned engine directory fault
  | root (h : checkPath engine.config.root ≠ .ok ()) : Unscanned engine directory .nullByte

theorem stopsBy_listTracked {directory : Data} (htext : ∃ s, directory = .text s) :
    StopsBy (fun fault => fault.faultClass = .scan ∨
      Source.Spoils (engine.workspace.listing directory) fault) (listTracked directory) engine := by
  obtain ⟨s, rfl⟩ := htext
  refine stopsBy_get_bind (stopsBy_bind (stopsBy_of_ok rfl) fun _ engine₁ _ => ?_)
  exact stopsBy_bind (stopsBy_of_ok rfl) fun _ _ _ =>
    stopsBy_liftExcept fun fault hfault => Source.listed_error hfault

theorem names_listTracked {directory : Data}
    (h : (listTracked directory).run engine = .ok names engine') :
    ∀ name ∈ names, '\x00' ∉ name.toList := by
  unfold listTracked at h
  rw [run_get_bind] at h
  obtain ⟨_, engine₁, -, h⟩ := run_bind_ok.mp h
  obtain ⟨_, engine₂, -, h⟩ := run_bind_ok.mp h
  obtain ⟨hlisted, -⟩ := run_liftExcept_ok.mp h
  exact fun name hname => (Source.listed_ok hlisted name hname).2

theorem stopsBy_scan {directory : Data} {tags : Option Data} (hdirectory : Journal.IsWord directory)
    (htags : ∃ names, Config.overrideTags tags = .ok names) :
    StopsBy (OwnOr (engine.Unscanned directory)) (scan directory tags) engine := by
  have htext (hholds : directory.holds = true) : ∃ s, directory = .text s := by
    rcases hdirectory with rfl | rfl | h
    · cases hholds
    · cases hholds
    · exact h
  have hshown : ∃ s, (if directory.holds then directory else .text ".") = .text s := by
    split
    · exact htext ‹_›
    · exact ⟨".", rfl⟩
  have hown {fault : Fault} (h : fault.faultClass = .scan) :
      OwnOr (engine.Unscanned directory) fault := .inl (h ▸ rfl)
  unfold scan
  refine stopsBy_get_bind (stopsBy_bind (stopsBy_liftExcept fun fault hfault =>
    .inr (.misnamed (Config.ofConfig_error htags hfault))) fun scanner engine₁ hlift => ?_)
  obtain ⟨-, rfl⟩ := run_liftExcept_ok.mp hlift
  refine stopsBy_bind ((stopsBy_listTracked hshown).mono fun fault hfault =>
    hfault.elim hown fun h => .inr (.listing h)) fun listed engine₁ hlisted => ?_
  refine stopsBy_bind (stopsBy_of_ok rfl) fun _ engine₂ _ => ?_
  refine stopsBy_bind (stopsBy_onFiles ?_) fun remarks engine₃ _ => ?_
  · refine (scanner.stopsBy_scanFiles _ (fun name hname => ?_) _).mono fun fault hfault => ?_
    · exact names_listTracked hlisted name (List.mem_of_mem_filter hname)
    · rcases hfault with hclass | ⟨hroot, rfl⟩
      · exact hown hclass
      · exact .inr (.root hroot)
  · have hrest (place : Path) (engine' : Engine) : StopsBy (OwnOr (engine.Unscanned directory)) (do
        report .info .engine s!"Found {remarks.length} annotation(s) under {place.text}"
        return remarks) engine' :=
      stopsBy_bind (stopsBy_of_ok rfl) fun _ _ _ => stopsBy_pure _
    split
    · obtain ⟨s, rfl⟩ := htext ‹_›
      exact stopsBy_bind (stopsBy_pure _) fun place engine₄ _ => hrest place engine₄
    · exact stopsBy_bind (stopsBy_pure _) fun place engine₄ _ => hrest place engine₄

/-- What is in the way of a scan into the journal. -/
inductive Unsynced (engine : Engine) : Fault → Prop
  | unscanned (h : engine.Unscanned .null fault) : Unsynced engine fault
  | unlocked (h : engine.Unlocked fault) : Unsynced engine fault
  | hindered {remarks : List Remark} {after : Engine}
      (hscan : scanAll.run engine = .ok remarks after)
      (h : Journal.Hinders engine.tables engine.workspace.now remarks.length fault) :
      Unsynced engine fault

theorem Extends.unlocked (h : engine.Extends engine') (hfault : engine'.Unlocked fault) :
    engine.Unlocked fault := by
  cases hfault with
  | unopened hunopened => exact .unopened (h.unopened hunopened)
  | barred hpath hbars => exact .barred (h.config ▸ hpath) hbars

theorem stopsBy_sync (hclosed : engine.journal = none) :
    StopsBy (OwnOr engine.Unsynced) (sync none) engine := by
  rw [sync_eq]
  have hscan : StopsBy (OwnOr engine.Unsynced) scanAll engine :=
    (stopsBy_scan (.inl rfl) ⟨none, rfl⟩).mono fun _ hfault => hfault.imp_right .unscanned
  refine stopsBy_bind (stopsBy_bind hscan fun _ _ _ => stopsBy_pure _)
    fun items engine₁ hitems => ?_
  obtain ⟨remarks, engine₂, hrun, hpure⟩ := run_bind_ok.mp hitems
  cases hpure
  have hextends := ((looked_scan .null none engine).ok hrun).extends
  rw [syncItems_eq]
  refine stopsBy_bind (stopsBy_onLockedJournal (hextends.journal.trans hclosed)
    (fun _ hfault => .unlocked (hextends.unlocked hfault)) fun session _ hstore hnow => ?_)
    fun _ _ _ => stopsBy_bind (stopsBy_of_ok rfl) fun _ _ _ => stopsBy_pure _
  have hreadable : ∀ o ∈ remarks.map Remark.observe, o.type?.isSome ∧ o.title?.isSome := by
    refine List.forall_mem_map.mpr fun a _ => ⟨rfl, rfl⟩
  refine (Journal.stopsBy_sync hreadable).mono fun fault hfault => hfault.imp_right fun hfault => ?_
  rw [hstore, hnow, hextends.tables, hextends.now, List.length_map] at hfault
  exact .hindered hrun hfault.version

/-- What is in the way of writing a snapshot of remarks. -/
inductive Unwritten (engine : Engine) (remarks : List Remark) (target : Option Path) : Fault → Prop
  | misnamed (h : engine.config.Misnames fault) : Unwritten engine remarks target fault
  | clock (h : engine.workspace.now.snapshotStamp? = none) :
      Unwritten engine remarks target .dateRange
  /-- The number of a line is too long to be written. -/
  | numeral (hmem : a ∈ remarks) (h : Text.isWritable a.line = false) :
      Unwritten engine remarks target (.numeral .unwritable)
  | barred (hpath : target.elim engine.config.snapshotPath .ok = .ok path) (h : path.Bars fault) :
      Unwritten engine remarks target fault

theorem Looked.unwritten {target : Option Path} (h : engine.Looked engine')
    (hfault : engine'.Unwritten remarks target fault) : engine.Unwritten remarks target fault := by
  cases hfault with
  | misnamed hmisnamed => exact .misnamed (h.config ▸ hmisnamed)
  | clock hclock => exact .clock (h.now ▸ hclock)
  | numeral hmem hline => exact .numeral hmem hline
  | barred hpath hbars => exact .barred (h.config ▸ hpath) hbars

theorem stopsBy_writeSnapshot (remarks : List Remark) (target : Option Path) :
    StopsBy (OwnOr (engine.Unwritten remarks target))
      (writeSnapshot (remarks.map Remark.observe) target) engine := by
  have hwrite (path : Path) (hpath : target.elim engine.config.snapshotPath .ok = .ok path) :
      StopsBy (OwnOr (engine.Unwritten remarks target)) (do
        let stamp ← liftExcept engine.workspace.snapshotStamp
        let text ← liftExcept (Snapshot.writeUnchecked stamp (remarks.map Remark.observe))
        onFiles (Files.withLock path (Files.replaceText path (.ok text.toList)))
        return path) engine := by
    refine stopsBy_bind (stopsBy_liftExcept fun fault hfault => ?_) fun stamp engine₁ hlift => ?_
    · unfold Workspace.snapshotStamp at hfault
      split at hfault
      · cases hfault
      · cases hfault
        exact .inr (.clock ‹_›)
    · obtain ⟨-, rfl⟩ := run_liftExcept_ok.mp hlift
      refine stopsBy_bind (stopsBy_liftExcept fun fault hfault => .inr ?_) fun text engine₁ _ => ?_
      · rw [Snapshot.writeUnchecked_observe] at hfault
        split at hfault
        · cases hfault
        · rename_i hlines
          cases hfault
          obtain ⟨a, ha, hline⟩ := List.all_eq_false.mp (Bool.eq_false_of_not_eq_true hlines)
          exact .numeral ha (Bool.eq_false_of_not_eq_true hline)
      refine stopsBy_bind (stopsBy_onFiles ((Files.stopsBy_replaced path _ _).mono ?_))
        fun _ _ _ => stopsBy_pure _
      rintro fault (rfl | hfault)
      · exact .inl rfl
      · exact .inr (.barred hpath hfault)
  unfold writeSnapshot
  refine stopsBy_get_bind ?_
  cases target with
  | some path =>
    refine stopsBy_bind (stopsBy_pure _) fun path' engine₁ hpure => ?_
    cases hpure
    exact hwrite path rfl
  | none =>
    refine stopsBy_bind (stopsBy_liftExcept fun fault hfault =>
      .inr (.misnamed (Config.snapshotPath_error hfault))) fun path engine₁ hlift => ?_
    obtain ⟨hpath, rfl⟩ := run_liftExcept_ok.mp hlift
    exact hwrite path hpath

-- ---------------------------------------------------------------------------
-- Setting up
-- ---------------------------------------------------------------------------

/-- What is in the way of making the data directory and the journal. -/
inductive Unset (engine : Engine) : Fault → Prop
  | unopened (h : engine.Unopened fault) : Unset engine fault
  | refused (hpath : engine.config.dataPath = .ok path) (h : Files.IsRefusal path.Near fault) :
      Unset engine fault

theorem stopsBy_setUp (hclosed : engine.journal = none) :
    StopsBy (OwnOr engine.Unset) setUp engine := by
  unfold setUp
  refine stopsBy_get_bind (stopsBy_bind (stopsBy_liftExcept fun fault hfault =>
    .inr (.unopened (.misnamed (Config.dataPath_error hfault)))) fun path engine₁ hlift => ?_)
  obtain ⟨hpath, rfl⟩ := run_liftExcept_ok.mp hlift
  refine stopsBy_bind (stopsBy_onFiles ((Files.refuses_ensureDirectory path _).mono
    fun fault hfault => .inr (.refused hpath hfault))) fun _ engine₁ hlifted => ?_
  obtain ⟨files, hmade, rfl⟩ := run_onFiles_ok hlifted
  have hextends : engine.Extends { engine with workspace.files := files } :=
    ⟨rfl, (Files.extends_ensureDirectory path _).ok hmade, rfl, rfl⟩
  refine stopsBy_bind ((stopsBy_openJournal (hextends.journal.trans hclosed)).mono fun _ hfault =>
    hfault.imp_right fun h => .unopened (hextends.unopened h)) fun _ _ _ => stopsBy_pure _

theorem path_setUp (h : setUp.run engine = .ok path engine') :
    engine.config.dataPath = .ok path := by
  obtain ⟨path', engine₁, hlift, h⟩ := run_bind_ok.mp (run_get_bind.symm.trans h)
  obtain ⟨hpath, rfl⟩ := run_liftExcept_ok.mp hlift
  obtain ⟨_, engine₂, -, h⟩ := run_bind_ok.mp h
  obtain ⟨_, engine₃, -, h⟩ := run_bind_ok.mp h
  cases h
  exact hpath

end Engine

end Marginalia
