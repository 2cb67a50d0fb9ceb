import Marginalia.Proofs.Engine.Looking
import Marginalia.Proofs.Journal.Opening
import Marginalia.Proofs.Journal.Sync
import Marginalia.Proofs.Journal.Writes

/-!
# Scans that fail

Bringing the journal in line with the files can fail at many points: before the lock is had, while
the files are read, when the journal is opened, and at any observation. Wherever that happens, all
journals have the records they had, and no lock is held that was not held before. The parts up to
the one transaction only add to the files; the transaction takes back what it did.
-/

namespace Marginalia

open Journal (Record Handle JournalM Session)

namespace Engine

variable {engine engine' : Engine}

/-- The records of the journal at a place, as the engine sees them: an open journal keeps its tables
when its file is gone. -/
def recordsAt (engine : Engine) (place : Place) : List Record :=
  match engine.journal with
  | some handle =>
    if handle.place = place then handle.records engine.workspace.files
    else engine.workspace.files.recordsAt place
  | none => engine.workspace.files.recordsAt place

/-- All journals have the records they had, and the same locks are held. -/
structure Spared (engine engine' : Engine) : Prop where
  locks : engine'.workspace.files.locks = engine.workspace.files.locks
  stored : ∀ place, engine'.workspace.files.recordsAt place = engine.workspace.files.recordsAt place
  seen : ∀ place, engine'.recordsAt place = engine.recordsAt place

instance : Std.Refl Spared where
  refl _ := ⟨rfl, fun _ => rfl, fun _ => rfl⟩

instance : IsTrans Engine Spared where
  trans _ _ _ h h' := ⟨h'.locks.trans h.locks,
    fun place => (h'.stored place).trans (h.stored place),
    fun place => (h'.seen place).trans (h.seen place)⟩

theorem spared_of_adds (hfiles : engine.workspace.files.Adds engine'.workspace.files)
    (hjournal : engine'.journal = engine.journal) : engine.Spared engine' := by
  refine ⟨hfiles.locks, hfiles.recordsAt, fun place => ?_⟩
  unfold recordsAt
  rw [hjournal]
  cases engine.journal with
  | none => exact hfiles.recordsAt place
  | some handle =>
    dsimp only
    rw [hfiles.handleRecords, hfiles.recordsAt]

theorem spared_of_looked (h : engine.Looked engine') : engine.Spared engine' :=
  spared_of_adds (by rw [h.files]; exact refl _) h.journal

theorem spared_scan (directory : Data) (tags : Option Data) :
    Respects Spared (scan directory tags) :=
  (looked_scan directory tags).mono fun _ _ => spared_of_looked

-- ---------------------------------------------------------------------------
-- The journal
-- ---------------------------------------------------------------------------

/-- Opening a journal changes no record that is seen. -/
theorem spared_of_opens (hclosed : engine.journal = none)
    (hopens : Journal.Opens engine.workspace.files handle engine'.workspace.files)
    (hjournal : engine'.journal = some handle) : engine.Spared engine' := by
  refine ⟨hopens.locks, hopens.recordsAt, fun place => ?_⟩
  simp only [recordsAt, hjournal, hclosed]
  split
  · subst ‹handle.place = place›
    exact hopens.records
  · exact hopens.recordsAt place

theorem openJournal_ends (engine : Engine) :
    Ends (fun handle engine' => engine.Spared engine' ∧ engine'.journal = some handle)
      engine.Spared openJournal engine := by
  refine ends_get_bind ?_
  split
  · exact ends_pure ⟨refl engine, ‹_›⟩
  · rename_i hclosed
    refine ends_bind (ends_liftExcept (fun path _ => ends_bind (ends_onFiles ?_)) (refl engine))
    refine (Journal.openFile_ends _ _ _).mono (fun handle files hopens => ?_) fun files hadds => ?_
    · exact ends_bind (ends_of_ok rfl (ends_pure ⟨spared_of_opens hclosed hopens rfl, rfl⟩))
    · exact spared_of_adds hadds rfl

/-- Tables with the same records can be kept without anyone seeing it. -/
theorem spared_keep {session : Session} (hjournal : engine.journal = some handle)
    (hcurrent : handle.current engine.workspace.files = .ok store)
    (hrecords : session.store.records = store.records) :
    engine.Spared (engine.keep handle session) := by
  refine ⟨Journal.locks_save, Journal.recordsAt_save hcurrent hrecords, fun place => ?_⟩
  simp only [recordsAt, hjournal, keep]
  split
  · exact Journal.records_save hcurrent hrecords rfl rfl rfl
  · exact Journal.recordsAt_save hcurrent hrecords place

/-- The session in which work on an open journal starts. -/
def sessionOf (engine : Engine) (handle : Handle) (store : Journal.Store) : Session where
  store := store
  tags := handle.tags
  now := engine.workspace.now
  connection := some handle.connection

theorem ends_onJournal {work : JournalM α} {R : α → Engine → Prop} {E : Engine → Prop}
    (h : Ends (fun handle engine₁ => E engine₁ ∧
        ∀ store, handle.current engine₁.workspace.files = .ok store →
          Ends (fun a session => R a (engine₁.keep handle session))
            (fun session => E (engine₁.keep handle session)) work (engine₁.sessionOf handle store))
      E openJournal engine) : Ends R E (onJournal work) engine := by
  refine ends_bind (h.mono (fun handle engine₁ h => ?_) fun _ => id)
  obtain ⟨hstopped, hwork⟩ := h
  refine ends_get_bind (ends_bind (ends_liftExcept (fun store hcurrent => ?_) hstopped))
  have hends := hwork store hcurrent
  constructor
  · intro a engine' hrun
    simp only [EStateM.run] at hrun
    split at hrun
    · cases hrun
      exact hends.ok ‹_›
    · cases hrun
  · intro fault engine' hrun
    simp only [EStateM.run] at hrun
    split at hrun
    · cases hrun
    · cases hrun
      exact hends.error ‹_›

/-- Work on the journal that takes back what it did when it fails. -/
theorem onJournal_ends {work : JournalM α} (engine : Engine)
    (hwork : ∀ session fault session', session.inTransaction = false →
      work.run session = .error fault session' → session'.store = session.store) :
    Ends (fun _ _ => True) engine.Spared (onJournal work) engine := by
  refine ends_onJournal ((openJournal_ends engine).mono (fun handle engine₁ h => ?_) fun _ => id)
  obtain ⟨hspared, hjournal⟩ := h
  refine ⟨hspared, fun store hcurrent => ⟨fun _ => trivial, fun hfails => ?_⟩⟩
  have hstore := hwork _ _ _ rfl hfails
  exact trans_of Spared hspared (spared_keep hjournal hcurrent (congrArg _ hstore))

-- ---------------------------------------------------------------------------
-- The lock
-- ---------------------------------------------------------------------------

/-- The engine with a lock given back. -/
def unlocked (engine : Engine) (number : Nat) : Engine :=
  { engine with workspace.files.locks := engine.workspace.files.locks.filter (· != number) }

/-- A block that is left by a fault while the lock is held: giving the lock back leaves the engine
as it was before the lock was taken. -/
theorem spared_unlocked (htakes : engine.workspace.files.Takes number files)
    (hblock : Spared { engine with workspace.files := files } engine') :
    engine.Spared (engine'.unlocked number) := by
  obtain ⟨files₁, hadds, hfree, rfl⟩ := htakes
  have hbefore : engine.Spared { engine with workspace.files := files₁ } := spared_of_adds hadds rfl
  refine ⟨?_, fun place => (hblock.stored place).trans (hbefore.stored place),
    fun place => (hblock.seen place).trans (hbefore.seen place)⟩
  have hlocks : engine'.workspace.files.locks = number :: engine.workspace.files.locks := by
    rw [hblock.locks, ← hadds.locks]
  simp only [unlocked, hlocks, Files.filter_locks hfree]

theorem locked_ends {block : EngineM α} (path : Path) (engine : Engine)
    (hblock : ∀ number files, (Files.acquire path).run engine.workspace.files = .ok number files →
      Ends (fun _ _ => True) (Spared { engine with workspace.files := files }) block
        { engine with workspace.files := files }) :
    Ends (fun _ _ => True) engine.Spared (locked path block) engine := by
  refine ends_bind (ends_onFiles ?_)
  refine (Files.acquire_ends path _).run.mono (fun number files h => ?_) fun files hadds => ?_
  · obtain ⟨htakes, hacquired⟩ := h
    refine ⟨fun _ => trivial, fun {fault engine'} hrun => ?_⟩
    simp only [EStateM.run] at hrun
    split at hrun
    · cases hrun
    · rename_i hfails
      cases hrun
      exact spared_unlocked htakes ((hblock number files hacquired).error hfails)
  · exact spared_of_adds hadds rfl

-- ---------------------------------------------------------------------------
-- Scans into the journal
-- ---------------------------------------------------------------------------

/-- The observations that are given, or those of a scan of the whole project. -/
def itemsOf : Option (List Observation) → EngineM (List Observation)
  | some items => pure items
  | none => do pure ((← scanAll).map Remark.observe)

/-- Brings the journal in line with observations that are there. -/
def syncItems (items : List Observation) : EngineM Journal.SyncCounts := do
  let path ← liftExcept (← get).config.databasePath
  let counts ← locked path (onJournal (Journal.sync items))
  report .info .engine (s!"Synced {counts.scanned} annotation(s): {counts.journaled} journaled, " ++
    s!"{counts.skipped} skipped, {counts.completed} completed")
  return counts

theorem sync_eq (observations : Option (List Observation)) :
    sync observations = itemsOf observations >>= syncItems := by
  cases observations with
  | some items => rfl
  | none => exact (bind_assoc scanAll _ _).symm

theorem spared_itemsOf (observations : Option (List Observation)) :
    Respects Spared (itemsOf observations) := by
  cases observations with
  | some items => exact respects_pure items
  | none => exact (spared_scan _ _).bind fun _ => respects_pure _

theorem onJournal_sync_ends (items : List Observation) (engine : Engine) :
    Ends (fun _ _ => True) engine.Spared (onJournal (Journal.sync items)) engine :=
  onJournal_ends engine fun _ _ _ hclosed hrun =>
    (Journal.transaction_error_outside (Journal.moving_scan items) hclosed hrun).2.2

theorem syncItems_ends (items : List Observation) (engine : Engine) :
    Ends (fun _ _ => True) engine.Spared (syncItems items) engine := by
  refine ends_get_bind (ends_bind (ends_liftExcept (fun path _ => ends_bind ?_) (refl engine)))
  refine (locked_ends path engine fun _ _ _ => onJournal_sync_ends items _).mono
    (fun counts _ _ => ?_) ?_
  · exact ends_bind (ends_of_ok rfl (ends_pure trivial))
  · exact fun _ => id

theorem sync_ends (observations : Option (List Observation)) (engine : Engine) :
    Ends (fun _ _ => True) engine.Spared (sync observations) engine := by
  rw [sync_eq]
  refine (spared_itemsOf observations).then (refl engine) fun items engine₁ h => ?_
  exact (syncItems_ends items engine₁).mono (fun _ _ => id) fun _ => trans_of Spared h

/-- However a scan fails, all journals keep their records, and no lock is left behind. -/
theorem sync_spares (h : (sync observations).run engine = .error fault engine') :
    engine.Spared engine' := (sync_ends observations engine).error h

/-- An engine with a journal that has records. Another writer holds a lock. -/
def usedEngine : Engine where
  config := { root := ⟨.root, ["project"]⟩ }
  workspace := {
    files := {
      nodes := [
        (["project"], .directory),
        (["project", ".inline-issues"], .directory),
        (["project", ".inline-issues", "journal.db"],
          .file 0 (.journal Journal.usedJournal.store true))]
      current := []
      next := 1
      locks := [7] }
    listing := fun _ => .failed 2
    now := Journal.usedJournal.now }

/-- The second observation has no message. -/
def halfScan : List Observation := [
  Journal.remarkAt 1 "TODO" "new" .normal,
  { Journal.remarkAt 2 "TODO" "" .normal with message := .null }]

theorem sync_spares_halfScan :
    ∃ fault engine', (sync (some halfScan)).run usedEngine = .error fault engine' ∧
      usedEngine.Spared engine' := by
  have hfails : (match (sync (some halfScan)).run usedEngine with
      | .ok _ _ => false
      | .error fault _ => fault.message == "NOT NULL constraint failed: issues.title") = true := by
    decide +kernel
  cases h : (sync (some halfScan)).run usedEngine with
  | ok counts engine' => simp [h] at hfails
  | error fault engine' => exact ⟨fault, engine', rfl, sync_spares h⟩

end Engine

end Marginalia
