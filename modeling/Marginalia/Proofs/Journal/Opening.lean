import Marginalia.Journal.Database
import Marginalia.Proofs.Files.Frame
import Marginalia.Proofs.Journal.Program

/-!
# Journals in files

The records that lie at the places of a tree of files, and those that an open journal shows. What is
only added to the files leaves both as they are; so does opening a journal, and storing tables with
the records that are there.
-/

namespace Marginalia

open Files (Adds node?_write)
open Journal (Record Handle)

variable {files files' : Files} {place : Place}

def Content.records : Content → List Record
  | .journal store _ => store.records
  | _ => []

/-- The records in the file at a place. -/
def Files.recordsAt (files : Files) (place : Place) : List Record :=
  ((files.node? place).bind Node.content?).elim [] Content.records

/-- The records that an open journal shows: those in its file, or the last ones it saw when its file
is gone or overwritten. -/
def Journal.Handle.records (handle : Handle) (files : Files) : List Record :=
  match handle.content? files with
  | some (.journal store _) => store.records
  | _ => handle.store.records

-- ---------------------------------------------------------------------------
-- Additions
-- ---------------------------------------------------------------------------

theorem Files.Adds.recordsAt (h : Adds files files') (place : Place) :
    files'.recordsAt place = files.recordsAt place := by
  cases hnode : files.node? place with
  | some node => simp [Files.recordsAt, hnode, h.kept hnode]
  | none =>
    cases hnode' : files'.node? place with
    | none => simp [Files.recordsAt, hnode, hnode']
    | some node =>
      cases node with
      | directory => simp [Files.recordsAt, hnode, hnode', Node.content?]
      | file number content =>
        obtain rfl := h.bare hnode hnode'
        simp [Files.recordsAt, hnode, hnode', Node.content?, Content.records]

theorem Files.Adds.handleRecords (h : Adds files files') (handle : Handle) :
    handle.records files' = handle.records files := by
  cases hnode : files.node? handle.place with
  | some node => simp [Handle.records, Handle.content?, hnode, h.kept hnode]
  | none =>
    cases hnode' : files'.node? handle.place with
    | none => simp [Handle.records, Handle.content?, hnode, hnode']
    | some node =>
      cases node with
      | directory => simp [Handle.records, Handle.content?, hnode, hnode']
      | file number content =>
        obtain rfl := h.bare hnode hnode'
        by_cases hnumber : number = handle.number
        · simp [Handle.records, Handle.content?, hnode, hnode', hnumber]
        · simp [Handle.records, Handle.content?, hnode, hnode', hnumber]

namespace Journal

-- ---------------------------------------------------------------------------
-- Writing
-- ---------------------------------------------------------------------------

theorem recordsAt_write (hnode : files.node? place = some (.file number old))
    (hrecords : content.records = old.records) (other : Place) :
    (files.write place content).recordsAt other = files.recordsAt other := by
  unfold Files.recordsAt
  rw [node?_write hnode]
  split
  · rename_i h
    simp [h, hnode, hrecords, Node.content?]
  · rfl

theorem content?_eq_some {handle : Handle} : handle.content? files = some content ↔
    files.node? handle.place = some (.file handle.number content) := by
  unfold Handle.content?
  split
  · simp_all
  · simp_all

/-- A journal whose file is there stores its tables in it. -/
theorem save_of_journal {handle : Handle}
    (h : handle.content? files = some (.journal old isFiled)) (store : Store) :
    handle.save store files = files.write handle.place (.journal store isFiled) := by
  simp [Handle.save, h]

theorem save_of_other {handle : Handle}
    (h : ∀ old isFiled, handle.content? files ≠ some (.journal old isFiled)) (store : Store) :
    handle.save store files = files := by
  unfold Handle.save
  split
  · exact absurd ‹_› (h _ _)
  · rfl

theorem current_of_journal {handle : Handle}
    (h : handle.content? files = some (.journal old isFiled)) : handle.current files = .ok old := by
  simp [Handle.current, h]

theorem current_of_other {handle : Handle}
    (h : ∀ old isFiled, handle.content? files ≠ some (.journal old isFiled))
    (hcurrent : handle.current files = .ok store) : store = handle.store := by
  unfold Handle.current at hcurrent
  split at hcurrent
  · cases hcurrent
    rfl
  · exact absurd ‹_› (h _ _)
  · split at hcurrent
    · cases hcurrent
      rfl
    · cases hcurrent

section Saving

variable {handle handle' : Handle} {store store' : Store}

theorem locks_save : (handle.save store files).locks = files.locks := by
  unfold Handle.save
  split
  · exact Files.locks_write _ _ _
  · rfl

/-- Tables with the same records change no file that holds records. -/
theorem recordsAt_save (hcurrent : handle.current files = .ok store)
    (hrecords : store'.records = store.records) (place : Place) :
    (handle.save store' files).recordsAt place = files.recordsAt place := by
  by_cases hjournal : ∃ old isFiled, handle.content? files = some (.journal old isFiled)
  · obtain ⟨old, isFiled, hold⟩ := hjournal
    obtain rfl : old = store := by simpa [current_of_journal hold] using hcurrent
    have hcontent : (Content.journal store' isFiled).records =
        (Content.journal old isFiled).records := hrecords
    rw [save_of_journal hold, recordsAt_write (content?_eq_some.mp hold) hcontent]
  · rw [save_of_other fun old isFiled h => hjournal ⟨old, isFiled, h⟩]

theorem records_save (hcurrent : handle.current files = .ok store)
    (hrecords : store'.records = store.records) (hplace : handle'.place = handle.place)
    (hnumber : handle'.number = handle.number) (hstore : handle'.store = store') :
    handle'.records (handle.save store' files) = handle.records files := by
  have hcontent (files : Files) : handle'.content? files = handle.content? files := by
    simp [Handle.content?, hplace, hnumber]
  by_cases hjournal : ∃ old isFiled, handle.content? files = some (.journal old isFiled)
  · obtain ⟨old, isFiled, hold⟩ := hjournal
    obtain rfl : old = store := by simpa [current_of_journal hold] using hcurrent
    have hnew : handle.content? (files.write handle.place (.journal store' isFiled)) =
        some (.journal store' isFiled) := by
      simp [content?_eq_some, node?_write (content?_eq_some.mp hold)]
    rw [save_of_journal hold]
    simp only [Handle.records, hcontent, hnew, hold, hrecords]
  · have hother (old : Store) (isFiled : Bool) :
        handle.content? files ≠ some (.journal old isFiled) := fun h => hjournal ⟨old, isFiled, h⟩
    have hsame := current_of_other hother hcurrent
    rw [save_of_other hother]
    unfold Handle.records
    rw [hcontent]
    split
    · rfl
    · rw [hstore, hrecords, hsame]

end Saving

-- ---------------------------------------------------------------------------
-- Opening
-- ---------------------------------------------------------------------------

/-- How a journal is opened: its file is there then and holds tables with the records that were in
it before. -/
def Opens (files : Files) (handle : Handle) (files' : Files) : Prop :=
  ∃ files₁ content isFiled, Adds files files₁ ∧
    files₁.node? handle.place = some (.file handle.number content) ∧
    handle.store.records = content.records ∧
    files' = files₁.write handle.place (.journal handle.store isFiled)

section Opens

variable {handle : Handle}

theorem Opens.locks (h : Opens files handle files') : files'.locks = files.locks := by
  obtain ⟨files₁, content, isFiled, hadds, -, -, rfl⟩ := h
  rw [Files.locks_write, hadds.locks]

theorem Opens.recordsAt (h : Opens files handle files') (place : Place) :
    files'.recordsAt place = files.recordsAt place := by
  obtain ⟨files₁, content, isFiled, hadds, hnode, hrecords, rfl⟩ := h
  have hwritten : (Content.journal handle.store isFiled).records = content.records := hrecords
  rw [recordsAt_write hnode hwritten, hadds.recordsAt]

theorem Opens.records (h : Opens files handle files') :
    handle.records files' = files.recordsAt handle.place := by
  rw [← h.recordsAt]
  obtain ⟨files₁, content, isFiled, -, hnode, -, rfl⟩ := h
  simp [Handle.records, Handle.content?, Files.recordsAt, node?_write hnode, Node.content?,
    Content.records]

end Opens

/-- The tables in a file, those of a new journal if it holds none. -/
def tablesOf : Content → Store
  | .journal store _ => store
  | _ => .fresh

theorem tables_of_tablesIn {content : Content} (h : tablesIn content = .ok tables) :
    tables.getD .fresh = tablesOf content := by
  unfold tablesIn at h
  split at h
  · cases h
    rfl
  · rename_i hjournal
    split at h <;> cases h
    unfold tablesOf
    split
    · exact absurd rfl (hjournal _ _)
    · rfl

theorem records_of_tablesIn (h : tablesIn content = .ok tables)
    (hopened : (tables.getD .fresh).opened = .ok store) : store.records = content.records := by
  obtain rfl := Store.opened_ok hopened
  rw [tables_of_tablesIn h]
  cases content <;> rfl

/-- What is done before a journal at a path is opened: directories are made, and an empty file where
the path leads to if nothing is there. -/
structure Prepares (path : Path) (files files' : Files) : Prop where
  adds : Adds files files'
  start : files'.current = files.current
  others : ∀ {current place}, Files.Misses current place path →
    Files.Keeps current place files files'

instance : Std.Refl (Prepares path) where
  refl files := ⟨refl files, rfl, fun _ => refl files⟩

instance : IsTrans Files (Prepares path) where
  trans _ _ _ h h' := ⟨trans_of Adds h.adds h'.adds, h'.start.trans h.start,
    fun hmiss => trans_of _ (h.others hmiss) (h'.others hmiss)⟩

theorem prepares_makeDirectory {directory : Path}
    (h : files.makeDirectory directory = .ok files') : Prepares path files files' := by
  have hroot : Files.Keeps files.current [] files files' := Files.keeps_makeDirectory h
  exact ⟨Files.adds_makeDirectory h, (hroot rfl).1, fun _ => Files.keeps_makeDirectory h⟩

theorem prepares_make (hplace : files.locate path = .ok place)
    (hnone : files.node? place = none) : Prepares path files (files.make place (.bytes [])) :=
  ⟨Files.adds_make hnone, rfl, fun hmiss hcurrent =>
    Files.keeps_make (hmiss.locate hcurrent hplace) files _ hcurrent⟩

/-- How a journal at a path is opened: its file is there then and holds the tables of the handle,
which are those that the file is opened with. -/
def Opening (path : Path) (files : Files) (handle : Handle) (files' : Files) : Prop :=
  ∃ files₁ content tables, Prepares path files files₁ ∧
    handle.place = path.placeFrom files.current ∧
    files₁.node? handle.place = some (.file handle.number content) ∧
    tablesIn content = .ok tables ∧ (tables.getD .fresh).opened = .ok handle.store ∧
    files' = files₁.write handle.place (.journal handle.store tables.isSome)

theorem Opening.opens {handle : Handle} (h : Opening path files handle files') :
    Opens files handle files' := by
  obtain ⟨files₁, content, tables, hprepares, -, hnode, htables, hopened, rfl⟩ := h
  exact ⟨files₁, content, tables.isSome, hprepares.adds, hnode,
    records_of_tablesIn htables hopened, rfl⟩

theorem Opening.keeps {handle : Handle} {current : Place}
    (h : Opening path files handle files') (hmiss : Files.Misses current place path) :
    Files.Keeps current place files files' := by
  intro hcurrent
  obtain ⟨files₁, content, tables, hprepares, hplace, -, -, -, rfl⟩ := h
  have hother : place ≠ handle.place := by rwa [hplace, hcurrent]
  exact trans_of _ (hprepares.others hmiss) (Files.keeps_write hother files₁ _) hcurrent

theorem openFile_opening (path : Path) (tags : List String) (files : Files) :
    Ends (Opening path files) (Prepares path files) (openFile path tags) files := by
  unfold openFile
  have hparent : Respects (Prepares path) (Files.ensureDirectory path.parent) :=
    Files.respects_ensureDirectory (fun _ _ _ => prepares_makeDirectory) _
  refine hparent.then (refl files) fun _ files₁ h => ?_
  refine (respects_liftExcept _).then h fun _ files₁ h => ends_get_bind ?_
  split
  · rename_i place hlocate
    have hplace : place = path.placeFrom files.current := h.start ▸ Files.locate_ok hlocate
    refine ends_unless (fun _ => h) fun _ => ends_get_bind ?_
    refine ends_when (P := Prepares path files) (fun hnone => ?_) (fun _ => h) fun files₂ h => ?_
    · exact ends_of_ok rfl (trans_of _ h (prepares_make hlocate (by simpa using hnone)))
    · refine ends_get_bind ?_
      split
      · rename_i number content hnode
        refine ends_bind (ends_liftExcept (fun tables htables => ?_) h)
        refine ends_unless (fun _ => h) fun _ => ?_
        refine ends_bind (ends_liftExcept (fun store hstore => ?_) h)
        refine ends_bind (ends_of_ok rfl (ends_pure ?_))
        exact ⟨files₂, content, tables, h, hplace, hnode, htables, hstore, rfl⟩
      · exact ends_throw h
  · exact ends_throw h

theorem openFile_ends (path : Path) (tags : List String) (files : Files) :
    Ends (Opens files) (Adds files) (openFile path tags) files :=
  (openFile_opening path tags files).mono (fun _ _ => Opening.opens) fun _ h => h.adds

end Journal

end Marginalia
