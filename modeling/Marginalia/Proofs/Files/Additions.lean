import Marginalia.Files.Replace
import Marginalia.Proofs.Ends
import Marginalia.Scan.Source

/-!
# What is only added to the files

Making directories and touching lock files takes nothing away: every place keeps what it holds, and
what is new is a directory or an empty file. Reading changes nothing. Locks are taken and given
back one at a time.
-/

namespace Marginalia.Files

variable {files files' files'' : Files}

-- ---------------------------------------------------------------------------
-- Places
-- ---------------------------------------------------------------------------

@[simp] theorem node?_root (files : Files) : files.node? [] = some .directory := rfl

theorem ne_root_of_node?_eq_none (h : files.node? place = none) : place ≠ [] := by
  rintro rfl
  simp at h

theorem lookup_filter_ne [BEq α] [LawfulBEq α] {k other : α} (h : other ≠ k) (l : List (α × β)) :
    (l.filter fun (key, _) => key != k).lookup other = l.lookup other := by
  induction l with
  | nil => rfl
  | cons entry rest ih =>
    obtain ⟨key, value⟩ := entry
    by_cases hk : key = k
    · subst hk
      simp [List.lookup_cons, ih, beq_eq_false_iff_ne.mpr h]
    · simp [List.lookup_cons, hk, ih]

theorem node?_put (hplace : place ≠ []) (files : Files) (node : Node) (other : Place) :
    (files.put place node).node? other =
      if other = place then some node else files.node? other := by
  by_cases hother : other = []
  · subst hother
    simp [hplace.symm]
  · by_cases h : other = place
    · subst h
      simp [node?, put, hplace]
    · simp [node?, put, hother, h, List.lookup_cons, beq_eq_false_iff_ne.mpr h,
        lookup_filter_ne h]

theorem node?_put_self (hplace : place ≠ []) (files : Files) (node : Node) :
    (files.put place node).node? place = some node := by
  rw [node?_put hplace, if_pos rfl]

theorem node?_write (h : files.node? place = some (.file number old)) (content : Content)
    (other : Place) : (files.write place content).node? other =
      if other = place then some (.file number content) else files.node? other := by
  have hplace : place ≠ [] := by
    rintro rfl
    simp at h
  simp only [write, h]
  exact node?_put hplace files _ other

theorem put_put (files : Files) (place : Place) (node node' : Node) :
    (files.put place node).put place node' = files.put place node' := by
  simp [put, List.filter_filter]

/-- What is written last is what counts. -/
theorem write_write (hnode : files.node? place = some (.file number old))
    (content content' : Content) :
    (files.write place content).write place content' = files.write place content' := by
  have hwritten : (files.write place content).node? place = some (.file number content) := by
    simp [node?_write hnode]
  unfold write at hwritten ⊢
  simp only [hnode] at hwritten ⊢
  simp only [hwritten, put_put]

@[simp] theorem locks_write (files : Files) (place : Place) (content : Content) :
    (files.write place content).locks = files.locks := by
  unfold write
  split <;> rfl

-- ---------------------------------------------------------------------------
-- Additions
-- ---------------------------------------------------------------------------

/-- The second files have all that the first ones have, and what they have besides holds
nothing. -/
structure Adds (files files' : Files) : Prop where
  locks : files'.locks = files.locks
  kept : files.node? place = some node → files'.node? place = some node
  bare : files.node? place = none → files'.node? place = some (.file number content) →
    content = .bytes []

instance : Std.Refl Adds where
  refl files := ⟨rfl, id, fun h h' => by simp [h] at h'⟩

instance : IsTrans Files Adds where
  trans files files' files'' h h' := by
    refine ⟨h'.locks.trans h.locks, fun hnode => h'.kept (h.kept hnode), ?_⟩
    intro place number content hnone hfile
    cases hnode : files'.node? place with
    | none => exact h'.bare hnode hfile
    | some node =>
      obtain rfl : node = .file number content := by simpa [h'.kept hnode] using hfile
      exact h.bare hnone hnode

theorem adds_put (hnone : files.node? place = none)
    (hbare : ∀ number content, node = .file number content → content = .bytes []) :
    Adds files (files.put place node) := by
  have hnode := node?_put (ne_root_of_node?_eq_none hnone) files node
  refine ⟨rfl, ?_, ?_⟩
  · intro other node' h
    have hother : other ≠ place := by
      rintro rfl
      simp [h] at hnone
    simpa [hnode, hother] using h
  · intro other number content h h'
    by_cases hother : other = place
    · exact hbare number content (by simpa [hnode, hother] using h')
    · simp [hnode, hother, h] at h'

theorem adds_make (hnone : files.node? place = none) :
    Adds files (files.make place (.bytes [])) := by
  have hput : Adds files (files.put place (.file files.next (.bytes []))) :=
    adds_put hnone fun _ _ h => by simpa [eq_comm] using (Node.file.inj h).2
  exact ⟨hput.locks, hput.kept, hput.bare⟩

theorem adds_makeDirectory {path : Path} (h : files.makeDirectory path = .ok files') :
    Adds files files' := by
  unfold makeDirectory at h
  obtain ⟨place, -, h⟩ := bind_ok.mp h
  split at h
  · cases h
  · cases h
    exact adds_put ‹_› fun _ _ h => nomatch h

theorem adds_touch {path : Path} (h : files.touch path = .ok files') : Adds files files' := by
  unfold touch at h
  obtain ⟨place, -, h⟩ := bind_ok.mp h
  split at h
  · cases h
    exact refl _
  · cases h
    exact adds_make ‹_›

theorem respects_change {S : Files → Files → Prop} [Std.Refl S] (path : Path)
    {call : Files → Except Nat Files}
    (h : ∀ files files', call files = .ok files' → S files files') :
    Respects S (change path call) := by
  intro files
  constructor
  · intro _ files' hrun
    simp only [EStateM.run, change] at hrun
    repeat' split at hrun
    all_goals cases hrun
    exact h _ _ ‹_›
  · intro fault files' hrun
    simp only [EStateM.run, change] at hrun
    repeat' split at hrun
    all_goals cases hrun
    all_goals exact refl _

-- ---------------------------------------------------------------------------
-- Looking
-- ---------------------------------------------------------------------------

section Looking

variable {S : Files → Files → Prop} [Std.Refl S]

theorem respects_query (path : Path) (call : Files → Except Nat α) :
    Respects S (query path call) := by
  refine respects_of_same fun files => ?_
  simp only [EStateM.run, query]
  split
  · exact .inr ⟨_, rfl⟩
  · split
    · exact .inl ⟨_, rfl⟩
    · exact .inr ⟨_, rfl⟩

theorem respects_find? (path : Path) : Respects S (find? path) := by
  refine respects_of_same fun files => ?_
  simp only [EStateM.run, find?]
  split
  · exact .inl ⟨_, rfl⟩
  · split
    · exact .inl ⟨_, rfl⟩
    · split
      · exact .inl ⟨_, rfl⟩
      · exact .inr ⟨_, rfl⟩

variable [IsTrans Files S]

theorem respects_doesExist (path : Path) : Respects S (doesExist path) :=
  (respects_find? path).bind fun _ => respects_pure _

theorem respects_isDirectory (path : Path) : Respects S (isDirectory path) :=
  (respects_find? path).bind fun _ => respects_pure _

theorem respects_readContent (path : Path) : Respects S (readContent path) := by
  refine (respects_query path _).bind fun node => ?_
  cases node with
  | directory => exact respects_throw _
  | file number content => exact respects_pure _

theorem respects_readBytes (path : Path) : Respects S (readBytes path) :=
  (respects_readContent path).bind fun _ => respects_pure _

theorem respects_readText (path : Path) : Respects S (readText path) := by
  refine (respects_readBytes path).bind fun bytes => ?_
  split
  · exact respects_pure _
  · exact respects_throw _

theorem run_readSource_ok (h : (readBytes (Path.child root name)).run files = .ok bytes files') :
    (Source.read root name).run files =
      .ok (String.ofList (Text.unifyNewlines (Text.repairBytes bytes))) files' := by
  unfold Source.read
  simp only [EStateM.run] at h ⊢
  rw [h]

theorem run_readSource_error
    (h : (readBytes (Path.child root name)).run files = .error fault files') :
    ∃ fault', (Source.read root name).run files = .error fault' files' := by
  unfold Source.read
  simp only [EStateM.run] at h ⊢
  rw [h]
  cases fault <;> exact ⟨_, rfl⟩

theorem respects_readSource (root : Path) (name : String) :
    Respects S (Source.read root name) := by
  intro files
  have hread := respects_readBytes (S := S) (root.child name) files
  cases h : (readBytes (root.child name)).run files with
  | ok bytes files' =>
    exact ends_of_ok (run_readSource_ok h) (hread.ok h)
  | error fault files' =>
    obtain ⟨fault', hrun⟩ := run_readSource_error h
    exact ends_of_error hrun (hread.error h)

theorem respects_scanFiles (scanner : Scanner) (root : Path) (names : List String) :
    Respects S (scanner.scanFiles root names) := by
  induction names with
  | nil => exact respects_pure _
  | cons name rest ih =>
    exact (respects_readSource root name).bind fun _ => ih.bind fun _ => respects_pure _

end Looking

-- ---------------------------------------------------------------------------
-- Directories
-- ---------------------------------------------------------------------------

/-- What is done when a directory cannot be made: perhaps there is one already. -/
def unlessDirectory (path : Path) (fault : Fault) : FilesM Unit := do
  if ← isDirectory path then pure () else throw fault

theorem run_ensureOne_ok {path : Path}
    (h : (change path (·.makeDirectory path)).run files = .ok () files') :
    (ensureOne path).run files = .ok () files' := by
  unfold ensureOne
  simp only [EStateM.run] at h ⊢
  rw [h]

theorem run_ensureOne_error {path : Path}
    (h : (change path (·.makeDirectory path)).run files = .error fault files') :
    (ensureOne path).run files = .error fault files' ∨
      (ensureOne path).run files = (unlessDirectory path fault).run files' := by
  unfold ensureOne
  simp only [EStateM.run] at h ⊢
  rw [h]
  cases fault
  case system fault => exact .inr rfl
  all_goals exact .inl rfl

theorem run_ensureNames_ok {path : Path} (hpath : path = ⟨anchor, (name :: above).reverse⟩)
    (h : (change path (·.makeDirectory path)).run files = .ok () files') :
    (ensureNames anchor (name :: above)).run files = .ok () files' := by
  subst hpath
  simp only [EStateM.run] at h ⊢
  rw [ensureNames]
  dsimp only
  rw [h]

/-- A directory that cannot be made is given up or tried once more, perhaps after those above. -/
theorem run_ensureNames_error {path : Path} (hpath : path = ⟨anchor, (name :: above).reverse⟩)
    (h : (change path (·.makeDirectory path)).run files = .error fault files') :
    ∃ next ∈ [throw fault, ensureOne path, do ensureNames anchor above; ensureOne path],
      (ensureNames anchor (name :: above)).run files = next.run files' := by
  subst hpath
  simp only [EStateM.run] at h ⊢
  rw [ensureNames]
  dsimp only
  rw [h]
  cases fault
  case system fault =>
    dsimp only
    split
    · exact ⟨_, by simp, rfl⟩
    · exact ⟨_, by simp, rfl⟩
  all_goals exact ⟨_, List.mem_cons_self, rfl⟩

section Directories

variable {S : Files → Files → Prop} [Std.Refl S] [IsTrans Files S]

theorem respects_unlessDirectory (path : Path) (fault : Fault) :
    Respects S (unlessDirectory path fault) := by
  refine (respects_isDirectory path).bind fun isThere => ?_
  cases isThere with
  | true => exact respects_pure _
  | false => exact respects_throw _

theorem respects_ensureOne {path : Path}
    (hmake : ∀ files files', files.makeDirectory path = .ok files' → S files files') :
    Respects S (ensureOne path) := by
  intro files
  have hchange := respects_change path hmake files
  cases h : (change path (·.makeDirectory path)).run files with
  | ok _ files' => exact ends_of_ok (run_ensureOne_ok h) (hchange.ok h)
  | error fault files' =>
    have hkept := hchange.error h
    rcases run_ensureOne_error h with hrun | hrun
    · exact ends_of_error hrun hkept
    · exact ((respects_unlessDirectory path fault).onward hkept).congr hrun

/-- Only the directories that a path goes through are made. -/
theorem respects_ensureNames (anchor : Anchor) (reversed : List String)
    (hmake : ∀ names, names <+: reversed.reverse → ∀ files files',
      files.makeDirectory ⟨anchor, names⟩ = .ok files' → S files files') :
    Respects S (ensureNames anchor reversed) := by
  induction reversed with
  | nil => exact respects_ensureOne (hmake [] List.prefix_rfl)
  | cons name above ih =>
    intro files
    generalize hpath : Path.mk anchor (name :: above).reverse = path
    have hone : ∀ files files', files.makeDirectory path = .ok files' → S files files' :=
      hpath ▸ hmake _ List.prefix_rfl
    have hchange := respects_change path hone files
    cases h : (change path (·.makeDirectory path)).run files with
    | ok _ files' => exact ends_of_ok (run_ensureNames_ok hpath.symm h) (hchange.ok h)
    | error fault files' =>
      obtain ⟨next, hmem, hrun⟩ := run_ensureNames_error hpath.symm h
      refine Ends.congr (Respects.onward ?_ (hchange.error h)) hrun
      simp only [List.mem_cons, List.not_mem_nil, or_false] at hmem
      obtain rfl | rfl | rfl := hmem
      · exact respects_throw _
      · exact respects_ensureOne hone
      · refine (ih fun names hnames => hmake names ?_).bind fun _ => respects_ensureOne hone
        rw [List.reverse_cons]
        exact hnames.trans (List.prefix_append _ _)

theorem respects_ensureDirectory
    (hmake : ∀ (path : Path) (files files' : Files),
      files.makeDirectory path = .ok files' → S files files') (path : Path) :
    Respects S (ensureDirectory path) :=
  respects_ensureNames _ _ fun _ _ => hmake _

end Directories

theorem adds_ensureDirectory (path : Path) : Respects Adds (ensureDirectory path) :=
  respects_ensureDirectory (fun _ _ _ => adds_makeDirectory) path

-- ---------------------------------------------------------------------------
-- Locks
-- ---------------------------------------------------------------------------

/-- The files with one more lock, which was free. -/
def Takes (files : Files) (number : Nat) (files' : Files) : Prop :=
  ∃ files₁, Adds files files₁ ∧ number ∉ files.locks ∧
    files' = { files₁ with locks := number :: files₁.locks }

/-- Taking a lock makes directories and touches the lock file, and only then adds the lock. -/
theorem acquire_ends_of {S : Files → Files → Prop} [Std.Refl S] [IsTrans Files S]
    (hmake : ∀ lock, path.lock = .ok lock → Respects S (ensureDirectory lock.parent))
    (htouch : ∀ lock, path.lock = .ok lock → ∀ files files', files.touch lock = .ok files' →
      S files files') (files : Files) :
    Ends (fun number files' => ∃ files₁, S files files₁ ∧ number ∉ files₁.locks ∧
        files' = { files₁ with locks := number :: files₁.locks })
      (S files) (acquire path) files := by
  unfold acquire
  dsimp only
  cases hpath : path.lock with
  | error fault => exact ends_throw (refl files)
  | ok lock =>
    refine ends_bind (ends_pure ?_)
    refine (hmake lock hpath).then (refl files) fun _ files₁ h => ?_
    refine (respects_change lock (htouch lock hpath)).then h fun _ files₂ h => ?_
    refine (respects_query lock _).then h fun node files₃ h => ?_
    cases node with
    | directory => exact ends_throw h
    | file number content =>
      refine ends_get_bind ?_
      split
      · exact ends_bind (ends_throw h)
      · rename_i hfree
        refine ends_bind (ends_of_ok rfl (ends_pure ⟨files₃, h, ?_, rfl⟩))
        simpa using hfree

/-- A lock that cannot be had leaves the locks as they are. -/
theorem acquire_ends (path : Path) (files : Files) :
    Ends (Takes files) (Adds files) (acquire path) files := by
  refine (acquire_ends_of (fun lock _ => adds_ensureDirectory lock.parent)
    (fun _ _ _ _ => adds_touch) files).mono (fun number files' h => ?_) fun _ => id
  obtain ⟨files₁, hadds, hfree, rfl⟩ := h
  exact ⟨files₁, hadds, hadds.locks ▸ hfree, rfl⟩

/-- Giving back the lock that was taken last leaves the other locks. -/
theorem filter_locks {locks : List Nat} (hfree : number ∉ locks) :
    (number :: locks).filter (· != number) = locks := by
  have hothers : locks.filter (· != number) = locks :=
    List.filter_eq_self.mpr fun other hmem => bne_iff_ne.mpr fun heq => hfree (heq ▸ hmem)
  simpa using hothers

end Marginalia.Files
