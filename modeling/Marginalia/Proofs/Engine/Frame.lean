import Marginalia.Proofs.Engine.Sync
import Marginalia.Proofs.Journal.Failures

/-!
# What an engine leaves alone

The snapshot, the journal and the files beside them are different files. Work on the journal then
never touches the snapshot, writing a snapshot never touches the journal, and what fails changes
neither: a transaction takes back what it did, and a snapshot takes its place in one step.
-/

namespace Marginalia

open Files (Misses Keeps)
open Journal (Handle JournalM Session)

/-- The lock file and the draft of a file. -/
def Path.siblings (path : Path) : List Path :=
  [path.lock, path.draft].filterMap Except.toOption

/-- The files that a journal in use may keep beside its file. -/
def Path.sideFiles (path : Path) : List Path :=
  ["-wal", "-shm", "-journal"].map fun suffix =>
    { path with parts := path.parts.dropLast ++ [path.name ++ suffix] }

/-- A configuration under which the snapshot, the journal and what lies beside them are in different
places. -/
structure Layout where
  config : Config
  /-- The place that relative paths start from. -/
  current : Place
  snapshot : Path
  database : Path
  snapshotPath : config.snapshotPath = .ok snapshot
  databasePath : config.databasePath = .ok database
  apart : ((snapshot :: snapshot.siblings ++ database :: database.siblings ++
    database.sideFiles).map (Path.placeFrom current)).Nodup

namespace Layout

def snapshotPlace (layout : Layout) : Place := layout.snapshot.placeFrom layout.current

def journalPlace (layout : Layout) : Place := layout.database.placeFrom layout.current

variable (layout : Layout)

theorem misses_snapshot {path : Path}
    (h : path ∈ layout.snapshot.siblings ++ layout.database :: layout.database.siblings) :
    Misses layout.current layout.snapshotPlace path := by
  have hapart := layout.apart
  simp only [List.cons_append, List.map_cons, List.nodup_cons] at hapart
  exact fun hsame =>
    hapart.1 (List.mem_map.mpr ⟨path, List.mem_append_left _ h, hsame.symm⟩)

theorem misses_journal {path : Path} (h : path ∈ layout.snapshot :: layout.snapshot.siblings) :
    Misses layout.current layout.journalPlace path := by
  have hapart := layout.apart
  rw [List.map_append, List.map_append, List.nodup_append, List.nodup_append] at hapart
  exact fun hsame => hapart.1.2.2 _ (List.mem_map_of_mem h) _ List.mem_cons_self hsame.symm

end Layout

theorem Path.lock_mem_siblings {path lock : Path} (h : path.lock = .ok lock) :
    lock ∈ path.siblings := by
  simp [siblings, h, Except.toOption]

theorem Path.draft_mem_siblings {path draft : Path} (h : path.draft = .ok draft) :
    draft ∈ path.siblings := by
  simp [siblings, h, Except.toOption]

namespace Engine

/-- An engine over the files of a layout. -/
structure Follows (layout : Layout) (engine : Engine) : Prop where
  config : engine.config = layout.config
  current : engine.workspace.files.current = layout.current
  place : ∀ handle ∈ engine.journal, handle.place = layout.journalPlace

theorem Follows.database_eq {layout : Layout} {engine : Engine} {path : Path}
    (h : engine.Follows layout) (hpath : engine.config.databasePath = .ok path) :
    path = layout.database := by
  rw [h.config, layout.databasePath] at hpath
  exact (Except.ok.inj hpath).symm

theorem Follows.snapshot_eq {layout : Layout} {engine : Engine} {path : Path}
    (h : engine.Follows layout) (hpath : engine.config.snapshotPath = .ok path) :
    path = layout.snapshot := by
  rw [h.config, layout.snapshotPath] at hpath
  exact (Except.ok.inj hpath).symm

/-- The file at a place stays as it is, for engines over the files of a layout. -/
def Frames (layout : Layout) (place : Place) (engine engine' : Engine) : Prop :=
  engine.Follows layout → engine'.Follows layout ∧
    engine'.workspace.files.file? place = engine.workspace.files.file? place

variable {layout : Layout} {place : Place} {engine engine' : Engine}

instance : Std.Refl (Frames layout place) where
  refl _ h := ⟨h, rfl⟩

instance : IsTrans Engine (Frames layout place) where
  trans _ _ _ h h' hfollows := by
    obtain ⟨hfollows', hfile⟩ := h hfollows
    exact ⟨(h' hfollows').1, (h' hfollows').2.trans hfile⟩

theorem Follows.looked (hfollows : engine.Follows layout) (h : engine.Looked engine') :
    engine'.Follows layout :=
  ⟨h.config.trans hfollows.config, h.files ▸ hfollows.current, h.journal ▸ hfollows.place⟩

theorem frames_of_looked (h : engine.Looked engine') : Frames layout place engine engine' :=
  fun hfollows => ⟨hfollows.looked h, by rw [h.files]⟩

theorem frames_of_keeps {files : Files}
    (h : Keeps layout.current place engine.workspace.files files) :
    Frames layout place engine { engine with workspace.files := files } := by
  intro hfollows
  obtain ⟨hcurrent, hfile⟩ := h hfollows.current
  exact ⟨⟨hfollows.config, hcurrent, hfollows.place⟩, hfile⟩

theorem frames_onFiles {work : FilesM α} (h : Respects (Keeps layout.current place) work) :
    Respects (Frames layout place) (onFiles work) := fun _ =>
  ends_onFiles ((h _).mono (fun _ _ => frames_of_keeps) fun _ => frames_of_keeps)

/-- Only engines over the files of the layout count. -/
theorem respects_frames {m : EngineM α} (h : ∀ engine, engine.Follows layout →
    Ends (fun _ => Frames layout place engine) (Frames layout place engine) m engine) :
    Respects (Frames layout place) m := by
  intro engine
  by_cases hfollows : engine.Follows layout
  · exact h engine hfollows
  · exact ⟨fun _ h => absurd h hfollows, fun _ h => absurd h hfollows⟩

-- ---------------------------------------------------------------------------
-- Work on the journal
-- ---------------------------------------------------------------------------

section Journal

variable (hplace : Misses layout.current place layout.database)
include hplace

theorem frames_openJournal : Respects (Frames layout place) openJournal := by
  refine respects_frames fun engine hfollows => ends_get_bind ?_
  split
  · exact ends_pure (refl engine)
  · refine ends_bind (ends_liftExcept (fun path hpath => ?_) (refl engine))
    obtain rfl := hfollows.database_eq hpath
    refine ends_bind (ends_onFiles ?_)
    refine (Journal.openFile_opening _ _ _).mono (fun handle files hopening => ?_)
      fun files h => frames_of_keeps (h.others hplace)
    refine ends_bind (ends_of_ok rfl (ends_pure fun _ => ?_))
    obtain ⟨hfollows', hfile⟩ := frames_of_keeps (hopening.keeps hplace) hfollows
    refine ⟨⟨hfollows'.config, hfollows'.current, ?_⟩, hfile⟩
    rintro _ ⟨⟩
    obtain ⟨_, _, _, -, hhandle, -⟩ := hopening
    rw [hhandle, hfollows.current]
    rfl

theorem frames_keep (hjournal : engine.journal = some handle) (session : Session) :
    Frames layout place engine (engine.keep handle session) := by
  intro hfollows
  have hhandle : handle.place = layout.journalPlace := hfollows.place handle hjournal
  have hother : place ≠ handle.place := hhandle ▸ hplace
  have hsave : Keeps layout.current place engine.workspace.files
      (handle.save session.store engine.workspace.files) := by
    unfold Handle.save
    split
    · exact Files.keeps_write hother _ _
    · exact refl _
  obtain ⟨hcurrent, hfile⟩ := hsave hfollows.current
  refine ⟨⟨hfollows.config, hcurrent, ?_⟩, hfile⟩
  rintro _ ⟨⟩
  exact hhandle

theorem frames_onJournal (work : JournalM α) : Respects (Frames layout place) (onJournal work) := by
  intro engine
  refine ends_onJournal (((frames_openJournal hplace engine).and (openJournal_ends engine)).mono
    (fun handle engine₁ h => ?_) fun _ h => h.1)
  obtain ⟨hframes, -, hjournal⟩ := h
  refine ⟨hframes, fun store _ => ?_⟩
  exact ⟨fun _ => trans_of _ hframes (frames_keep hplace hjournal _),
    fun _ => trans_of _ hframes (frames_keep hplace hjournal _)⟩

end Journal

-- ---------------------------------------------------------------------------
-- Locks
-- ---------------------------------------------------------------------------

theorem frames_locked {block : EngineM α} {path : Path}
    (hlock : ∀ lock, path.lock = .ok lock → Misses layout.current place lock)
    (hblock : Respects (Frames layout place) block) :
    Respects (Frames layout place) (locked path block) := by
  refine (frames_onFiles (Files.keeps_acquire hlock)).bind fun number engine => ?_
  have hunlocked (engine : Engine) : Frames layout place engine (engine.unlocked number) :=
    frames_of_keeps (Files.keeps_unlocked _ number)
  constructor
  · intro a engine' hrun
    simp only [EStateM.run] at hrun
    split at hrun
    · cases hrun
      exact trans_of _ ((hblock engine).ok ‹_›) (hunlocked _)
    · cases hrun
  · intro fault engine' hrun
    simp only [EStateM.run] at hrun
    split at hrun
    · cases hrun
    · cases hrun
      exact trans_of _ ((hblock engine).error ‹_›) (hunlocked _)

/-- The journal's lock is held while something is done to the journal. -/
def onLockedJournal (work : JournalM α) : EngineM α := do
  let path ← liftExcept (← get).config.databasePath
  locked path (onJournal work)

theorem frames_onLockedJournal (work : JournalM α) :
    Respects (Frames layout layout.snapshotPlace) (onLockedJournal work) := by
  refine respects_frames fun engine hfollows => ends_get_bind ?_
  refine ends_bind (ends_liftExcept (fun path hpath => ?_) (refl engine))
  obtain rfl := hfollows.database_eq hpath
  refine frames_locked (fun lock hlock => ?_) (frames_onJournal ?_ work) engine
  · refine layout.misses_snapshot (List.mem_append_right _ (List.mem_cons_of_mem _ ?_))
    exact Path.lock_mem_siblings hlock
  · exact layout.misses_snapshot (List.mem_append_right _ List.mem_cons_self)

theorem syncItems_eq (items : List Observation) : syncItems items = (do
    let counts ← onLockedJournal (Journal.sync items)
    report .info .engine
      (s!"Synced {counts.scanned} annotation(s): {counts.journaled} journaled, " ++
        s!"{counts.skipped} skipped, {counts.completed} completed")
    return counts) := by
  simp only [syncItems, onLockedJournal, bind_assoc]

theorem frames_sync (observations : Option (List Observation)) :
    Respects (Frames layout layout.snapshotPlace) (sync observations) := by
  rw [sync_eq]
  have hitems : Respects (Frames layout layout.snapshotPlace) (itemsOf observations) := by
    cases observations with
    | some items => exact respects_pure items
    | none =>
      exact ((looked_scan _ _).mono fun _ _ => frames_of_looked).bind fun _ => respects_pure _
  refine hitems.bind fun items => ?_
  rw [syncItems_eq]
  refine (frames_onLockedJournal _).bind fun counts => ?_
  exact ((looked_report _ _ _).mono fun _ _ => frames_of_looked).bind fun _ => respects_pure _

-- ---------------------------------------------------------------------------
-- Looking into the journal
-- ---------------------------------------------------------------------------

theorem store_of_noWrite {session session' : Session}
    (h : Journal.Moves Journal.NoWrite session fault session')
    (hclosed : session.inTransaction = false) : session'.store = session.store := by
  cases h with
  | kept saved closings store => exact Journal.eq_of_noWrite store
  | lost full opened => simp [hclosed] at opened

/-- Work that only looks into the journal changes no record that is seen. -/
theorem spared_onJournal {work : JournalM α} (hwork : Journal.Moving Journal.NoWrite work) :
    Respects Spared (onJournal work) := by
  intro engine
  refine ends_onJournal ((openJournal_ends engine).mono (fun handle engine₁ h => ?_) fun _ => id)
  obtain ⟨hspared, hjournal⟩ := h
  refine ⟨hspared, fun store hcurrent => ?_⟩
  have hkeep (session : Session) (hstore : session.store = store) :
      engine.Spared (engine₁.keep handle session) :=
    trans_of _ hspared (spared_keep hjournal hcurrent (congrArg _ hstore))
  exact ⟨fun hrun => hkeep _ (store_of_noWrite (hwork.ok hrun) rfl),
    fun hrun => hkeep _ (store_of_noWrite (hwork.error hrun) rfl)⟩

theorem moving_list (limit offset : Data) (status : Option Journal.Status) (type : Data) :
    Journal.Moving Journal.NoWrite (Journal.list limit offset status type) := by
  refine Journal.moving_bind (Journal.moving_liftExcept _) fun filter => ?_
  have hpage : Journal.Moving Journal.NoWrite (do
      let records ← Journal.query fun store => store.list limit offset status filter
      liftExcept (records.mapM Journal.Record.entry)) :=
    Journal.moving_bind (Journal.moving_query _) fun _ => Journal.moving_liftExcept _
  split
  · exact Journal.moving_bind (Journal.moving_parameter _ _) fun _ => hpage
  · exact hpage

theorem moving_stats : Journal.Moving Journal.NoWrite Journal.stats := by
  refine Journal.moving_bind (Journal.moving_query _) fun store =>
    Journal.moving_bind Journal.moving_get fun session => ?_
  split
  · exact Journal.moving_pure _
  · exact Journal.moving_throw _

theorem spared_openJournal : Respects Spared openJournal := fun engine =>
  (openJournal_ends engine).mono (fun _ _ h => h.1) fun _ => id

theorem respects_list {S : Engine → Engine → Prop} [Std.Refl S] [IsTrans Engine S]
    (hopen : Respects S openJournal)
    (hlist : ∀ limit offset status type,
      Respects S (onJournal (Journal.list limit offset status type)))
    (limit offset status type : Data) : Respects S (list limit offset status type) := by
  refine hopen.bind fun _ => ?_
  split
  · rw [map_eq_pure_bind]
    exact ((respects_liftExcept _).bind fun _ => respects_pure _).bind fun _ => hlist _ _ _ _
  · exact (respects_pure _).bind fun _ => hlist _ _ _ _

-- ---------------------------------------------------------------------------
-- Cancelling
-- ---------------------------------------------------------------------------

/-- A journal that only the program wrote, in its file and as it was last seen. -/
structure OwnJournal (place : Place) (engine : Engine) : Prop where
  stored : ∀ number store isFiled, engine.workspace.files.node? place =
    some (.file number (.journal store isFiled)) → store.Own
  seen : ∀ handle ∈ engine.journal, handle.place = place ∧ handle.store.Own

theorem stored_of_adds {files files' : Files} (h : files.Adds files')
    (hnode : files'.node? place = some (.file number (.journal store isFiled))) :
    files.node? place = some (.file number (.journal store isFiled)) := by
  cases hold : files.node? place with
  | none => cases h.bare hold hnode
  | some node => rw [← hnode, h.kept hold]

theorem OwnJournal.takes (hown : engine.OwnJournal place)
    (h : engine.workspace.files.Takes number files) :
    OwnJournal place { engine with workspace.files := files } := by
  obtain ⟨files₁, hadds, -, rfl⟩ := h
  exact ⟨fun _ _ _ hnode => hown.stored _ _ _ (stored_of_adds hadds hnode), hown.seen⟩

theorem own_of_opened {content : Content} {tables : Option Journal.Store} {store : Journal.Store}
    (hcontent : ∀ store isFiled, content = .journal store isFiled → store.Own)
    (htables : Journal.tablesIn content = .ok tables)
    (hopened : (tables.getD .fresh).opened = .ok store) : store.Own := by
  obtain rfl := Journal.Store.opened_ok hopened
  refine Journal.Store.Own.version ?_ _
  unfold Journal.tablesIn at htables
  split at htables
  · cases htables
    exact hcontent _ _ rfl
  · split at htables
    · cases htables
      exact Journal.Store.own_fresh
    · cases htables

/-- The tables that work on the journal starts from are ones that only the program wrote. -/
theorem openJournal_own (hfollows : engine.Follows layout)
    (hown : engine.OwnJournal layout.journalPlace) :
    Ends (fun handle engine₁ => ∀ store,
        handle.current engine₁.workspace.files = .ok store → store.Own)
      (fun _ => True) openJournal engine := by
  refine ends_get_bind ?_
  split
  · rename_i handle hjournal
    refine ends_pure fun store hcurrent => ?_
    obtain ⟨hplace, hseen⟩ := hown.seen handle hjournal
    by_cases hfile : ∃ old isFiled,
        handle.content? engine.workspace.files = some (.journal old isFiled)
    · obtain ⟨old, isFiled, hfile⟩ := hfile
      obtain rfl : old = store := by simpa [Journal.current_of_journal hfile] using hcurrent
      exact hown.stored _ _ _ (hplace ▸ Journal.content?_eq_some.mp hfile)
    · rw [Journal.current_of_other (fun old isFiled h => hfile ⟨old, isFiled, h⟩) hcurrent]
      exact hseen
  · refine ends_bind (ends_liftExcept (fun path hpath => ?_) trivial)
    obtain rfl := hfollows.database_eq hpath
    refine ends_bind (ends_onFiles ?_)
    refine (Journal.openFile_opening _ _ _).mono (fun handle files hopening => ?_)
      fun _ _ => trivial
    refine ends_bind (ends_of_ok rfl (ends_pure fun store hcurrent => ?_))
    obtain ⟨files₁, content, tables, hprepares, hplace, hnode, htables, hopened, rfl⟩ := hopening
    rw [hfollows.current] at hplace
    have hfile : handle.content? (files₁.write handle.place (.journal handle.store tables.isSome)) =
        some (.journal handle.store tables.isSome) := by
      simp [Journal.content?_eq_some, Files.node?_write hnode]
    obtain rfl : handle.store = store := by simpa [Journal.current_of_journal hfile] using hcurrent
    refine own_of_opened (fun old isFiled hcontent => ?_) htables hopened
    rw [hcontent, hplace] at hnode
    exact hown.stored _ _ _ (stored_of_adds hprepares.adds hnode)

/-- A record that cannot be cancelled leaves all journals as they are. -/
theorem cancel_ends (hfollows : engine.Follows layout)
    (hown : engine.OwnJournal layout.journalPlace) (id : Data) :
    Ends (fun _ _ => True) engine.Spared (cancel id) engine := by
  refine ends_get_bind (ends_bind (ends_liftExcept (fun path hpath => ?_) (refl engine)))
  obtain rfl := hfollows.database_eq hpath
  refine locked_ends _ engine fun number files hacquired => ?_
  have hlock (lock : Path) (h : layout.database.lock = .ok lock) :
      Misses layout.current layout.snapshotPlace lock :=
    layout.misses_snapshot
      (List.mem_append_right _ (List.mem_cons_of_mem _ (Path.lock_mem_siblings h)))
  have hfollows' := (frames_of_keeps ((Files.keeps_acquire hlock _).ok hacquired) hfollows).1
  have hown' := hown.takes ((Files.acquire_ends _ _).ok hacquired)
  refine ends_onJournal (((openJournal_ends _).and (openJournal_own hfollows' hown')).mono
    (fun handle engine₁ h => ?_) fun _ h => h.1)
  obtain ⟨⟨hspared, hjournal⟩, hstores⟩ := h
  refine ⟨hspared, fun store hcurrent => ⟨fun _ => trivial, fun hrun => ?_⟩⟩
  have hmoves := (Journal.sparing_cancel id).spares _ _ _ (hstores store hcurrent) hrun
  exact trans_of _ hspared
    (spared_keep hjournal hcurrent (congrArg _ (store_of_noWrite hmoves rfl)))

-- ---------------------------------------------------------------------------
-- Snapshots
-- ---------------------------------------------------------------------------

/-- Writing a snapshot changes the files and nothing else of the engine. -/
theorem writeSnapshot_ends {R E : Files → Prop} (observations : List Observation)
    (hstopped : E engine.workspace.files) (hwrite : ∀ path stamp text,
      engine.config.snapshotPath = .ok path → engine.workspace.snapshotStamp = .ok stamp →
        Snapshot.writeUnchecked stamp observations = .ok text →
        Ends (fun _ => R) E (Files.withLock path (Files.replaceText path (.ok text.toList)))
          engine.workspace.files) :
    Ends (fun _ engine' => ∃ files, engine' = { engine with workspace.files := files } ∧ R files)
      (fun engine' => ∃ files, engine' = { engine with workspace.files := files } ∧ E files)
      (writeSnapshot observations none) engine := by
  refine ends_get_bind (ends_bind (ends_liftExcept (fun path hpath => ?_) ⟨_, rfl, hstopped⟩))
  refine ends_bind (ends_liftExcept (fun stamp hstamp => ?_) ⟨_, rfl, hstopped⟩)
  refine ends_bind (ends_liftExcept (fun text htext => ?_) ⟨_, rfl, hstopped⟩)
  have hends := hwrite path stamp text hpath hstamp htext
  refine ends_bind (ends_onFiles (hends.mono (fun _ files h => ?_) fun files h => ?_))
  · exact ends_pure ⟨files, rfl, h⟩
  · exact ⟨files, rfl, h⟩

/-- The records of the journal at a place are the same, in its file and as the engine sees them. -/
structure SameRecords (place : Place) (engine engine' : Engine) : Prop where
  stored : engine'.workspace.files.recordsAt place = engine.workspace.files.recordsAt place
  seen : engine'.recordsAt place = engine.recordsAt place

/-- The file at a place is the same one, with the same content. -/
def SameFile (place : Place) (engine engine' : Engine) : Prop :=
  engine'.workspace.files.file? place = engine.workspace.files.file? place

theorem SameRecords.trans {engine'' : Engine} (h : SameRecords place engine engine')
    (h' : SameRecords place engine' engine'') : SameRecords place engine engine'' :=
  ⟨h'.stored.trans h.stored, h'.seen.trans h.seen⟩

theorem Spared.sameRecords (h : engine.Spared engine') (place : Place) :
    SameRecords place engine engine' := ⟨h.stored place, h.seen place⟩

theorem recordsAt_file? (files : Files) (place : Place) :
    files.recordsAt place = (files.file? place).elim [] fun file => file.2.records := by
  unfold Files.recordsAt Files.file?
  cases files.node? place with
  | none => rfl
  | some node => cases node <;> rfl

theorem content?_file? (handle : Handle) (files : Files) : handle.content? files =
    (files.file? handle.place).bind fun file =>
      if file.1 == handle.number then some file.2 else none := by
  unfold Handle.content? Files.file?
  cases files.node? handle.place with
  | none => rfl
  | some node => cases node <;> rfl

theorem sameRecords_of_file? {files : Files}
    (h : files.file? place = engine.workspace.files.file? place) :
    SameRecords place engine { engine with workspace.files := files } := by
  have hstored : files.recordsAt place = engine.workspace.files.recordsAt place := by
    rw [recordsAt_file?, recordsAt_file?, h]
  refine ⟨hstored, ?_⟩
  unfold recordsAt
  cases hjournal : engine.journal with
  | none => exact hstored
  | some handle =>
    by_cases hplace : handle.place = place
    · simp only [hplace, if_true, Handle.records, content?_file?, h]
    · simp only [hplace, if_false, hstored]

/-- Writing a snapshot leaves the journal alone, and a snapshot that cannot be written leaves the
one that is there. -/
theorem writeSnapshot_frame (hfollows : engine.Follows layout) (observations : List Observation) :
    Ends (fun _ engine' => SameRecords layout.journalPlace engine engine')
      (fun engine' => SameRecords layout.journalPlace engine engine' ∧
        SameFile layout.snapshotPlace engine engine')
      (writeSnapshot observations none) engine := by
  let keeps (place : Place) (files : Files) : Prop :=
    Keeps layout.current place engine.workspace.files files
  refine (writeSnapshot_ends (R := keeps layout.journalPlace)
    (E := fun files => keeps layout.journalPlace files ∧ keeps layout.snapshotPlace files)
    observations ⟨fun h => ⟨h, rfl⟩, fun h => ⟨h, rfl⟩⟩
    fun path stamp text hpath _ _ => ?_).mono ?_ ?_
  · obtain rfl := hfollows.snapshot_eq hpath
    have hends (place : Place)
        (h : ∀ path ∈ layout.snapshot.siblings, Misses layout.current place path) :
        Ends (fun _ files => Misses layout.current place layout.snapshot → keeps place files)
          (keeps place)
          (Files.withLock layout.snapshot (Files.replaceText layout.snapshot (.ok text.toList)))
          engine.workspace.files :=
      Files.replaced_ends (fun lock hlock => h lock (Path.lock_mem_siblings hlock))
        (fun draft hdraft => h draft (Path.draft_mem_siblings hdraft)) _
    have hjournal := hends layout.journalPlace fun path hpath =>
      layout.misses_journal (List.mem_cons_of_mem _ hpath)
    have hsnapshot := hends layout.snapshotPlace fun path hpath =>
      layout.misses_snapshot (List.mem_append_left _ hpath)
    exact (hjournal.and hsnapshot).mono
      (fun _ _ h => h.1 (layout.misses_journal List.mem_cons_self)) fun _ h => h
  · rintro _ _ ⟨files, rfl, hkept⟩
    exact sameRecords_of_file? (hkept hfollows.current).2
  · rintro _ ⟨files, rfl, hkept, hkept'⟩
    exact ⟨sameRecords_of_file? (hkept hfollows.current).2, (hkept' hfollows.current).2⟩

end Engine

end Marginalia
