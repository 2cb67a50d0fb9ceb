import Marginalia.Proofs.Files.Additions

/-!
# What calls leave alone

A call about a path changes no file but the one that the path leads to. Which place that is shows
in the path: without links, double dots lead to the place above. A file that is replaced is changed
last, by one call, so that what fails before leaves it as it was.
-/

namespace Marginalia

/-- The place that one more name leads to. -/
def Place.step (place : Place) (name : String) : Place :=
  if name == ".." then place.dropLast else place ++ [name]

/-- The place that a path leads to, if it leads anywhere, for relative paths that start from a given
place. -/
def Path.placeFrom (current : Place) (path : Path) : Place :=
  path.parts.foldl Place.step (if path.anchor == .relative then current else [])

namespace Files

/-- The number and the content of the file at a place. -/
def file? (files : Files) (place : Place) : Option (Nat × Content) :=
  match files.node? place with
  | some (.file number content) => some (number, content)
  | _ => none

/-- The file at a place stays as it is, and so does the start of relative paths. -/
def Keeps (current place : Place) (files files' : Files) : Prop :=
  files.current = current → files'.current = current ∧ files'.file? place = files.file? place

variable {current place other : Place} {files files' : Files} {path : Path}

instance : Std.Refl (Keeps current place) where
  refl _ h := ⟨h, rfl⟩

instance : IsTrans Files (Keeps current place) where
  trans _ _ _ h h' hcurrent := by
    obtain ⟨hcurrent', hfile⟩ := h hcurrent
    exact ⟨(h' hcurrent').1, (h' hcurrent').2.trans hfile⟩

-- ---------------------------------------------------------------------------
-- Places
-- ---------------------------------------------------------------------------

theorem walk_ok {names : List String} (h : files.walk place names = .ok other) :
    other = names.foldl Place.step place := by
  induction names generalizing place with
  | nil => simpa [walk, eq_comm] using h
  | cons name rest ih =>
    rw [List.foldl_cons, Place.step]
    simp only [walk] at h
    split at h
    · cases h
    · cases h
    · split at h
      · cases h
      · split at h
        · rw [if_pos ‹_›]
          exact ih h
        · rw [if_neg ‹_›]
          exact ih h

theorem locate_ok (h : files.locate path = .ok place) : place = path.placeFrom files.current := by
  unfold locate at h
  split at h
  · cases h
  · exact walk_ok h

theorem node?_put_ne (h : place ≠ other) (files : Files) (node : Node) :
    (files.put other node).node? place = files.node? place := by
  by_cases hplace : place = []
  · subst hplace
    simp
  · simp [node?, put, hplace, List.lookup_cons, beq_eq_false_iff_ne.mpr h, lookup_filter_ne h]

theorem keeps_put (h : place ≠ other) (files : Files) (node : Node) :
    Keeps current place files (files.put other node) :=
  fun hcurrent => ⟨hcurrent, by simp only [file?, node?_put_ne h]⟩

theorem keeps_make (h : place ≠ other) (files : Files) (content : Content) :
    Keeps current place files (files.make other content) :=
  keeps_put h files _

theorem keeps_write (h : place ≠ other) (files : Files) (content : Content) :
    Keeps current place files (files.write other content) := by
  unfold write
  split
  · exact keeps_put h files _
  · exact keeps_make h files content

theorem node?_erase_ne (h : place ≠ other) (files : Files) :
    (files.erase other).node? place = files.node? place := by
  simp only [node?, erase, lookup_filter_ne h]

theorem keeps_erase (h : place ≠ other) (files : Files) :
    Keeps current place files (files.erase other) :=
  fun hcurrent => ⟨hcurrent, by simp only [file?, node?_erase_ne h]⟩

-- ---------------------------------------------------------------------------
-- Calls
-- ---------------------------------------------------------------------------

theorem keeps_makeDirectory (h : files.makeDirectory path = .ok files') :
    Keeps current place files files' := by
  unfold makeDirectory at h
  obtain ⟨other, -, h⟩ := bind_ok.mp h
  split at h
  · cases h
  · rename_i hnone
    cases h
    refine fun hcurrent => ⟨hcurrent, ?_⟩
    simp only [file?, node?_put (ne_root_of_node?_eq_none hnone)]
    by_cases hplace : place = other
    · simp [hplace, hnone]
    · simp [hplace]

/-- The path of a call leads to another place than the one that is looked at. -/
def Misses (current place : Place) (path : Path) : Prop := place ≠ path.placeFrom current

theorem Misses.locate (h : Misses current place path) (hcurrent : files.current = current)
    (hlocate : files.locate path = .ok other) : place ≠ other := by
  rw [locate_ok hlocate, hcurrent]
  exact h

theorem keeps_touch (hpath : Misses current place path) (h : files.touch path = .ok files') :
    Keeps current place files files' := by
  intro hcurrent
  unfold touch at h
  obtain ⟨other, hother, h⟩ := bind_ok.mp h
  split at h
  · cases h
    exact ⟨hcurrent, rfl⟩
  · cases h
    exact keeps_make (hpath.locate hcurrent hother) files _ hcurrent

theorem keeps_unlink (hpath : Misses current place path) (h : files.unlink path = .ok files') :
    Keeps current place files files' := by
  intro hcurrent
  unfold unlink at h
  obtain ⟨other, hother, h⟩ := bind_ok.mp h
  split at h
  · cases h
  · cases h
  · cases h
    exact keeps_erase (hpath.locate hcurrent hother) files hcurrent

theorem keeps_openForWriting (hpath : Misses current place path)
    (h : files.openForWriting path = .ok (files', other)) :
    Keeps current place files files' ∧ (files.current = current → place ≠ other) := by
  unfold openForWriting at h
  obtain ⟨_, hother, h⟩ := bind_ok.mp h
  split at h
  · cases h
  · cases h
    exact ⟨fun hcurrent => keeps_write (hpath.locate hcurrent hother) files _ hcurrent,
      fun hcurrent => hpath.locate hcurrent hother⟩

theorem keeps_rename {source : Path} (hsource : Misses current place source)
    (htarget : Misses current place path) (h : files.rename source path = .ok files') :
    Keeps current place files files' := by
  intro hcurrent
  unfold rename at h
  obtain ⟨start, hstart, h⟩ := bind_ok.mp h
  split at h
  · cases h
  · obtain ⟨stop, hstop, h⟩ := bind_ok.mp h
    split at h
    · cases h
    · cases h
    · cases h
      have herased := keeps_erase (hsource.locate hcurrent hstart) files hcurrent
      exact trans_of (Keeps current place) (fun _ => herased)
        (keeps_put (htarget.locate hcurrent hstop) _ _) hcurrent

-- ---------------------------------------------------------------------------
-- Locks
-- ---------------------------------------------------------------------------

theorem keeps_ensureDirectory (path : Path) :
    Respects (Keeps current place) (ensureDirectory path) :=
  respects_ensureDirectory (fun _ _ _ => keeps_makeDirectory) path

theorem keeps_acquire (hlock : ∀ lock, path.lock = .ok lock → Misses current place lock) :
    Respects (Keeps current place) (acquire path) := fun files =>
  (acquire_ends_of (fun lock _ => keeps_ensureDirectory lock.parent)
    (fun lock hpath _ _ => keeps_touch (hlock lock hpath)) files).mono
    (fun _ _ ⟨_, h, _, heq⟩ => heq ▸ h) fun _ => id

/-- The files with a lock given back. -/
def unlocked (files : Files) (number : Nat) : Files :=
  { files with locks := files.locks.filter (· != number) }

/-- A block that runs while a lock is held, and what is left when the lock is given back. -/
theorem withLock_ends {block : FilesM α} {S : Files → Files → Prop} [IsTrans Files S]
    {T : Files → Prop} (hacquire : Ends (fun _ => S files) (S files) (acquire path) files)
    (hunlocked : ∀ files number, S files (files.unlocked number))
    (hT : ∀ files number, T files → T (files.unlocked number))
    (hblock : ∀ files', S files files' → Ends (fun _ => T) (S files) block files') :
    Ends (fun _ => T) (S files) (withLock path block) files := by
  refine ends_bind (hacquire.mono (fun number files' h => ?_) fun _ => id)
  have hends := hblock files' h
  constructor
  case ok =>
    intro a files'' hrun
    simp only [EStateM.run] at hrun
    split at hrun
    · cases hrun
      exact hT _ number (hends.ok ‹_›)
    · cases hrun
  case error =>
    intro fault files'' hrun
    simp only [EStateM.run] at hrun
    split at hrun
    · cases hrun
    · cases hrun
      exact trans_of S (hends.error ‹_›) (hunlocked _ number)

theorem keeps_unlocked (files : Files) (number : Nat) :
    Keeps current place files (files.unlocked number) := fun hcurrent => ⟨hcurrent, rfl⟩

-- ---------------------------------------------------------------------------
-- Replacement
-- ---------------------------------------------------------------------------

/-- Opens a draft: it is empty from then on. -/
def openDraft (draft : Path) : FilesM Place := fun files =>
  match checkPath draft with
  | .error fault => .error fault files
  | .ok () =>
    match files.openForWriting draft with
    | .ok (changed, place) => .ok place changed
    | .error code => .error (refusal draft code) files

/-- Puts a draft in the place of the file. -/
def moveDraft (draft path : Path) : FilesM Unit := fun files =>
  match files.rename draft path with
  | .ok changed => .ok () changed
  | .error code => .error (.system ⟨code, draft.text, some path.text⟩) files

theorem writeDraft_eq (draft path : Path) (text : Except Fault (List Char))
    (before : List Char) :
    writeDraft draft path text before = (do
      let place ← openDraft draft
      match text with
      | .error fault => do
        store place before
        throw fault
      | .ok cs => do
        store place cs
        moveDraft draft path) := rfl

variable {draft : Path} {text : Except Fault (List Char)} {before : List Char}

theorem openDraft_ends (hdraft : Misses current place draft) (files : Files) :
    Ends (fun other files' => Keeps current place files files' ∧
        (files.current = current → place ≠ other))
      (Keeps current place files) (openDraft draft) files := by
  constructor
  · intro other files' hrun
    simp only [EStateM.run, openDraft] at hrun
    repeat' split at hrun
    all_goals cases hrun
    exact keeps_openForWriting hdraft ‹_›
  · intro fault files' hrun
    simp only [EStateM.run, openDraft] at hrun
    repeat' split at hrun
    all_goals cases hrun
    all_goals exact refl _

theorem moveDraft_ends (hdraft : Misses current place draft) (files : Files) :
    Ends (fun _ files' => Misses current place path → Keeps current place files files')
      (Keeps current place files) (moveDraft draft path) files := by
  constructor
  · intro _ files' hrun
    simp only [EStateM.run, moveDraft] at hrun
    split at hrun
    · cases hrun
      exact fun hpath => keeps_rename hdraft hpath ‹_›
    · cases hrun
  · intro fault files' hrun
    simp only [EStateM.run, moveDraft] at hrun
    split at hrun
    · cases hrun
    · cases hrun
      exact refl _

theorem writeDraft_ends (hdraft : Misses current place draft) (files : Files) :
    Ends (fun _ files' => Misses current place path → Keeps current place files files')
      (Keeps current place files) (writeDraft draft path text before) files := by
  rw [writeDraft_eq]
  refine ends_bind ((openDraft_ends hdraft files).mono (fun other files₁ h => ?_) fun _ => id)
  have hstored (cs : List Char) :
      Keeps current place files (files₁.write other (.bytes (Text.encodeChars cs))) :=
    fun hcurrent => trans_of _ h.1 (keeps_write (h.2 hcurrent) files₁ _) hcurrent
  cases text with
  | error fault => exact ends_bind (ends_of_ok rfl (ends_throw (hstored before)))
  | ok cs =>
    refine ends_bind (ends_of_ok rfl ?_)
    exact (moveDraft_ends hdraft _).mono
      (fun _ _ hmoved hpath => trans_of _ (hstored cs) (hmoved hpath))
      fun _ => trans_of _ (hstored cs)

theorem discard_stops (fault : Fault) (files : Files) :
    Ends (fun _ _ => False) (fun _ => True) (discard draft fault : FilesM α) files := by
  have hthrow (files : Files) :
      Ends (fun _ _ => False) (fun _ => True) (throw fault : FilesM α) files := ends_throw trivial
  refine ends_bind ⟨fun _ => ?_, fun _ => trivial⟩
  split
  · exact ends_bind ⟨fun _ => hthrow _, fun _ => trivial⟩
  · exact ends_bind (ends_pure (hthrow _))

theorem abandon_stops (fault : Fault) (files : Files) :
    Ends (fun _ _ => False) (fun _ => True) (abandon draft fault : FilesM α) files := by
  unfold abandon
  split
  · exact discard_stops fault files
  · exact ends_throw trivial

/-- A draft that is finished is written to its end. -/
theorem run_finishDraft_ok (h : (finishDraft draft path text before).run files = .ok () files') :
    (writeDraft draft path text before).run files = .ok () files' := by
  simp only [EStateM.run, finishDraft] at h
  split at h
  · cases h
    assumption
  · exact ((abandon_stops _ _).ok h).elim

theorem run_finishDraft_error
    (h : (finishDraft draft path text before).run files = .error fault files') :
    ∃ cause files₁, (writeDraft draft path text before).run files = .error cause files₁ ∧
      (abandon draft cause : FilesM Unit).run files₁ = .error fault files' := by
  simp only [EStateM.run, finishDraft] at h
  split at h
  · cases h
  · exact ⟨_, _, ‹_›, h⟩

theorem keeps_discard (hdraft : Misses current place draft) (fault : Fault) :
    Respects (Keeps current place) (discard draft fault : FilesM α) := by
  refine (respects_doesExist draft).bind fun isThere => ?_
  split
  · exact (respects_change (S := Keeps current place) draft fun _ _ => keeps_unlink hdraft).bind
      fun _ => respects_throw _
  · exact (respects_pure _).bind fun _ => respects_throw _

theorem keeps_abandon (hdraft : Misses current place draft) (fault : Fault) :
    Respects (Keeps current place) (abandon draft fault : FilesM α) := by
  unfold abandon
  split
  · exact keeps_discard hdraft fault
  · exact respects_throw _

/-- A file that cannot be replaced stays, and so do all others, whatever happens. -/
theorem replaceText_ends (hdraft : ∀ draft, path.draft = .ok draft → Misses current place draft)
    (files : Files) :
    Ends (fun _ files' => Misses current place path → Keeps current place files files')
      (Keeps current place files) (replaceText path text before) files := by
  unfold replaceText
  dsimp only
  cases hpath : path.draft with
  | error fault => exact ends_throw (refl files)
  | ok draft =>
    refine ends_bind (ends_pure ?_)
    refine (keeps_ensureDirectory path.parent).then (refl files) fun _ files₁ h => ?_
    have hends : Ends
        (fun _ files' => Misses current place path → Keeps current place files₁ files')
        (Keeps current place files₁) (writeDraft draft path text before) files₁ :=
      writeDraft_ends (hdraft draft hpath) files₁
    have habandon (fault : Fault) :
        Respects (Keeps current place) (abandon draft fault : FilesM Unit) :=
      keeps_abandon (hdraft draft hpath) fault
    refine ⟨fun {_ files'} hrun hmiss => ?_, fun {fault files'} hrun => ?_⟩
    · exact trans_of _ h (hends.ok (run_finishDraft_ok hrun) hmiss)
    · obtain ⟨cause, files₂, hwrite, hrun⟩ := run_finishDraft_error hrun
      exact trans_of _ h (trans_of _ (hends.error hwrite) ((habandon cause _).error hrun))

/-- The same while a lock is held. -/
theorem replaced_ends (hlock : ∀ lock, path.lock = .ok lock → Misses current place lock)
    (hdraft : ∀ draft, path.draft = .ok draft → Misses current place draft) (files : Files) :
    Ends (fun _ files' => Misses current place path → Keeps current place files files')
      (Keeps current place files) (withLock path (replaceText path text before)) files := by
  refine withLock_ends (keeps_acquire hlock files) keeps_unlocked ?_ fun files' h => ?_
  · exact fun files' number hkept hpath => trans_of _ (hkept hpath) (keeps_unlocked files' number)
  · exact (replaceText_ends hdraft files').mono (fun _ _ hkept hpath => trans_of _ h (hkept hpath))
      fun _ => trans_of _ h

end Files

end Marginalia
