import Marginalia.Proofs.Files.Growth

/-!
# Whose lock it is

A lock belongs to the lock file, so that all spellings of a path that lead to one lock file share
it. What becomes of an attempt to take a lock is known from the lock file alone: if it is there, its
lock is held or can be had, and if it is not there, it is made and its number is new. Whatever else
stops an attempt is a refusal of a call.
-/

namespace Marginalia

/-- The text of a path starts with that of the directory it is in, unless the latter is a dot. -/
theorem Path.text_parent {path : Path} (h : path.parts ≠ []) :
    path.parent.text = "." ∨ ∃ rest, path.text = path.parent.text ++ rest := by
  have hparts := parts_eq_concat h
  by_cases hfront : path.parent.parts = []
  · have hparent : path.parent.text =
        if path.anchor = .relative then "." else path.anchor.text := by
      rw [text, hfront]
      cases hanchor : path.anchor <;> simp [parent, hanchor]
    rw [hparent]
    split
    · exact .inl rfl
    · refine .inr ⟨path.name, ?_⟩
      rw [text_of_ne_nil h, hparts, hfront]
      simp
  · refine .inr ⟨"/" ++ path.name, ?_⟩
    rw [text_of_ne_nil h, text_of_ne_nil hfront, hparts,
      String.intercalate_append_of_ne_nil hfront (List.cons_ne_nil _ _)]
    simp [String.append_assoc, parent]

theorem Path.addSuffix_error {path : Path} {more : String}
    (h : path.addSuffix more = .error fault) :
    path.name = "" ∧ fault = .emptyName path.text := by
  unfold addSuffix withSuffix at h
  dsimp only at h
  split at h
  · cases h
    exact ⟨by simpa using ‹path.name.toList.isEmpty = true›, rfl⟩
  · cases h

namespace Files

variable {files files' : Files} {path lock : Path} {place : Place} {number : Nat}

-- ---------------------------------------------------------------------------
-- Directories that are there
-- ---------------------------------------------------------------------------

theorem look_ok : files.look path = .ok node ↔
    ∃ place, files.locate path = .ok place ∧ files.node? place = some node := by
  unfold look
  rw [bind_ok]
  refine exists_congr fun place => and_congr_right fun _ => ?_
  cases files.node? place <;> simp

theorem walk_concat {front : List String} (h : files.walk place (front ++ [name]) = .ok other) :
    ∃ between, files.walk place front = .ok between ∧ files.node? between = some .directory := by
  induction front generalizing place with
  | nil =>
    rw [List.nil_append, walk] at h
    cases hnode : files.node? place with
    | none => simp [hnode] at h
    | some node =>
      cases node with
      | file number content => simp [hnode] at h
      | directory => exact ⟨place, rfl, hnode⟩
  | cons first rest ih =>
    rw [List.cons_append, walk] at h
    rw [walk]
    cases hnode : files.node? place with
    | none => simp [hnode] at h
    | some node =>
      cases node with
      | file number content => simp [hnode] at h
      | directory =>
        simp only [hnode] at h ⊢
        split
        · rw [if_pos ‹_›] at h
          cases h
        · rw [if_neg ‹_›] at h
          split
          · rw [if_pos ‹_›] at h
            exact ih h
          · rw [if_neg ‹_›] at h
            exact ih h

/-- What is in a directory is found through it. -/
theorem look_parent (hne : path.parts ≠ []) (h : files.look path = .ok node) :
    files.look path.parent = .ok .directory := by
  obtain ⟨place, hplace, -⟩ := look_ok.mp h
  unfold locate at hplace
  split at hplace
  · cases hplace
  · rename_i hlength
    rw [Path.parts_eq_concat hne] at hplace
    obtain ⟨between, hbetween, hnode⟩ := walk_concat hplace
    refine look_ok.mpr ⟨between, ?_, hnode⟩
    have hshort : ¬ pathLimit < path.parent.text.utf8ByteSize := by
      rcases Path.text_parent hne with htext | ⟨rest, htext⟩
      · rw [htext]
        decide
      · rw [htext, String.utf8ByteSize_append] at hlength
        omega
    rw [locate, if_neg hshort]
    exact hbetween

theorem checkPath_parent (hne : path.parts ≠ []) (h : checkPath path = .ok ()) :
    checkPath path.parent = .ok () := by
  rw [checkPath_iff] at h ⊢
  rcases Path.text_parent hne with htext | ⟨rest, htext⟩
  · rw [htext]
    decide
  · rw [htext, String.toList_append] at h
    exact fun hmem => h (List.mem_append_left _ hmem)

theorem run_change_ok {call : Files → Except Nat Files} :
    (change path call).run files = .ok () files' ↔
      checkPath path = .ok () ∧ call files = .ok files' := by
  simp only [EStateM.run, change]
  cases checkPath path with
  | error fault => simp
  | ok _ => cases call files <;> simp

theorem run_change_error {call : Files → Except Nat Files}
    (h : (change path call).run files = .error fault files') : files' = files := by
  simp only [EStateM.run, change] at h
  repeat' split at h
  all_goals cases h
  all_goals rfl

theorem run_isDirectory (hcheck : checkPath path = .ok ()) (h : files.look path = .ok .directory) :
    (isDirectory path).run files = .ok true files := by
  rw [isDirectory, EStateM.run_bind, run_find? hcheck h]
  rfl

theorem run_makeDirectory_there (hcheck : checkPath path = .ok ())
    (h : files.look path = .ok .directory) :
    (change path (·.makeDirectory path)).run files = .error (refusal path errExists) files := by
  obtain ⟨place, hplace, hnode⟩ := look_ok.mp h
  have hmake : files.makeDirectory path = .error errExists := by
    simp [makeDirectory, hplace, bind, Except.bind, hnode]
  simp [EStateM.run, change, hcheck, hmake]

theorem run_ensureOne_there (hcheck : checkPath path = .ok ())
    (h : files.look path = .ok .directory) : (ensureOne path).run files = .ok () files := by
  have hmake := run_makeDirectory_there hcheck h
  have hthere := run_isDirectory hcheck h
  simp only [EStateM.run] at hmake
  simp only [EStateM.run, ensureOne, hmake, refusal]
  change ((isDirectory path >>= fun isThere => _).run files) = _
  rw [EStateM.run_bind, hthere]
  rfl

/-- Nothing is made of a directory that is there. -/
theorem run_ensureDirectory_there (hcheck : checkPath path = .ok ())
    (h : files.look path = .ok .directory) : (ensureDirectory path).run files = .ok () files := by
  have hone := run_ensureOne_there hcheck h
  have hmake := run_makeDirectory_there hcheck h
  have hpath : path = ⟨path.anchor, path.parts.reverse.reverse⟩ := by rw [List.reverse_reverse]
  unfold ensureDirectory
  cases hreversed : path.parts.reverse with
  | nil =>
    rw [hreversed] at hpath
    rw [hpath] at hone
    exact hone
  | cons name above =>
    rw [hreversed] at hpath
    simp only [EStateM.run] at hmake hone ⊢
    rw [ensureNames, ← hpath]
    simp only [hmake, refusal]
    exact hone

theorem look_makeDirectory (h : files.makeDirectory path = .ok files') :
    files'.look path = .ok .directory := by
  have hgrows : Grows (fun _ _ _ => True) files files' := grows_makeDirectory trivial h
  unfold makeDirectory at h
  obtain ⟨place, hplace, h⟩ := bind_ok.mp h
  split at h
  · cases h
  · rename_i hnone
    cases h
    have hplace' := ne_root_of_node?_eq_none hnone
    exact look_ok.mpr ⟨place, hgrows.locate hplace, node?_put_self hplace' files _⟩

theorem look_find? (h : (find? path).run files = .ok (some node) files') :
    files'.look path = .ok node := by
  simp only [EStateM.run, find?] at h
  repeat' split at h
  all_goals cases h
  assumption

theorem look_isDirectory (h : (isDirectory path).run files = .ok true files') :
    files'.look path = .ok .directory := by
  obtain ⟨found, files₁, hfind, h⟩ := run_bind_ok.mp h
  have hresult : (found == some .directory) = true ∧ files₁ = files' := by simpa using h
  obtain ⟨hfound, rfl⟩ := hresult
  cases found with
  | none => cases hfound
  | some node =>
    cases node with
    | directory => exact look_find? hfind
    | file number content => cases hfound

theorem look_ensureOne (h : (ensureOne path).run files = .ok () files') :
    files'.look path = .ok .directory := by
  cases hmake : (change path (·.makeDirectory path)).run files with
  | ok _ files₁ =>
    rw [run_ensureOne_ok hmake] at h
    cases h
    exact look_makeDirectory (run_change_ok.mp hmake).2
  | error fault files₁ =>
    rcases run_ensureOne_error hmake with hrun | hrun
    · rw [hrun] at h
      cases h
    · rw [hrun] at h
      obtain ⟨isThere, files₂, hthere, h⟩ := run_bind_ok.mp h
      cases isThere with
      | true =>
        cases h
        exact look_isDirectory hthere
      | false => cases h

/-- Where a directory was to be made, there is one. -/
theorem look_ensureDirectory (h : (ensureDirectory path).run files = .ok () files') :
    files'.look path = .ok .directory := by
  have hpath : path = ⟨path.anchor, path.parts.reverse.reverse⟩ := by rw [List.reverse_reverse]
  unfold ensureDirectory at h
  cases hreversed : path.parts.reverse with
  | nil =>
    rw [hreversed] at h hpath
    rw [hpath]
    exact look_ensureOne h
  | cons name above =>
    rw [hreversed] at h hpath
    cases hmake : (change path (·.makeDirectory path)).run files with
    | ok _ files₁ =>
      rw [run_ensureNames_ok hpath hmake] at h
      cases h
      exact look_makeDirectory (run_change_ok.mp hmake).2
    | error fault files₁ =>
      obtain ⟨next, hmem, hrun⟩ := run_ensureNames_error hpath hmake
      rw [hrun] at h
      simp only [List.mem_cons, List.not_mem_nil, or_false] at hmem
      obtain rfl | rfl | rfl := hmem
      · cases h
      · exact look_ensureOne h
      · obtain ⟨_, files₂, -, h⟩ := run_bind_ok.mp h
        exact look_ensureOne h

-- ---------------------------------------------------------------------------
-- Refusals
-- ---------------------------------------------------------------------------

/-- A fault that a call about one of some paths ends with. -/
inductive IsRefusal (P : Path → Prop) : Fault → Prop
  | nullByte {path : Path} (h : P path) (hcheck : checkPath path = .error .nullByte) :
      IsRefusal P .nullByte
  | system {path : Path} (h : P path) (code : Int) (target : Option String) :
      IsRefusal P (.system ⟨code, path.text, target⟩)

/-- Work that ends with no other faults than calls about some paths do. -/
def Refuses (P : Path → Prop) (work : FilesM α) : Prop :=
  ∀ files, StopsBy (IsRefusal P) work files

variable {P P' : Path → Prop}

theorem IsRefusal.faultClass_ne {fault : Fault} (h : IsRefusal P fault) :
    fault.faultClass ≠ .lock := by
  cases h <;> exact nofun

theorem IsRefusal.mono {fault : Fault} (h : IsRefusal P fault) (hP : ∀ path, P path → P' path) :
    IsRefusal P' fault := by
  cases h with
  | nullByte h hcheck => exact .nullByte (hP _ h) hcheck
  | system h code target => exact .system (hP _ h) code target

theorem Refuses.mono {work : FilesM α} (h : Refuses P work) (hP : ∀ path, P path → P' path) :
    Refuses P' work := fun files => (h files).mono fun _ hfault => hfault.mono hP

theorem checkPath_error (h : checkPath path = .error fault) : fault = .nullByte := by
  unfold checkPath at h
  split at h
  · cases h
    rfl
  · cases h

theorem isRefusal_of_checkPath (hP : P path) (h : checkPath path = .error fault) :
    IsRefusal P fault := by
  obtain rfl := checkPath_error h
  exact .nullByte hP h

theorem refuses_pure (a : α) : Refuses P (pure a : FilesM α) := fun _ => stopsBy_pure a

theorem refuses_throw (h : IsRefusal P fault) : Refuses P (throw fault : FilesM α) :=
  fun _ => stopsBy_throw h

theorem Refuses.bind {work : FilesM α} {rest : α → FilesM β} (h : Refuses P work)
    (hrest : ∀ a, Refuses P (rest a)) : Refuses P (work >>= rest) :=
  fun files => stopsBy_bind (h files) fun a files _ => hrest a files

theorem refuses_change (hP : P path) (call : Files → Except Nat Files) :
    Refuses P (change path call) := by
  intro files fault files' hrun
  simp only [EStateM.run, change] at hrun
  split at hrun
  · cases hrun
    exact isRefusal_of_checkPath hP ‹_›
  · split at hrun
    · cases hrun
    · cases hrun
      exact .system hP _ _

theorem refuses_query (hP : P path) (call : Files → Except Nat α) :
    Refuses P (query path call) := by
  intro files fault files' hrun
  simp only [EStateM.run, query] at hrun
  split at hrun
  · cases hrun
    exact isRefusal_of_checkPath hP ‹_›
  · split at hrun
    · cases hrun
    · cases hrun
      exact .system hP _ _

theorem refuses_find? (hP : P path) : Refuses P (find? path) := by
  intro files fault files' hrun
  simp only [EStateM.run, find?] at hrun
  split at hrun
  · cases hrun
  · split at hrun
    · cases hrun
    · split at hrun
      · cases hrun
      · cases hrun
        exact .system hP _ _

theorem refuses_isDirectory (hP : P path) : Refuses P (isDirectory path) :=
  (refuses_find? hP).bind fun _ => refuses_pure _

theorem refuses_ensureOne (hP : P path) : Refuses P (ensureOne path) := by
  intro files fault files' hrun
  cases h : (change path (·.makeDirectory path)).run files with
  | ok _ files₁ =>
    rw [run_ensureOne_ok h] at hrun
    cases hrun
  | error fault₁ files₁ =>
    have hrefusal := refuses_change hP _ files h
    rcases run_ensureOne_error h with hone | hone
    · rw [hone] at hrun
      cases hrun
      exact hrefusal
    · rw [hone] at hrun
      refine ((refuses_isDirectory hP).bind fun isThere => ?_) _ hrun
      cases isThere with
      | true => exact refuses_pure ()
      | false => exact refuses_throw hrefusal

/-- Making a directory is refused with a fault about it or about one above it. -/
theorem refuses_ensureNames (anchor : Anchor) (reversed : List String)
    (hP : ∀ parts, parts <+: reversed.reverse → P ⟨anchor, parts⟩) :
    Refuses P (ensureNames anchor reversed) := by
  induction reversed with
  | nil => exact refuses_ensureOne (hP [] List.nil_prefix)
  | cons name above ih =>
    have hpath := hP _ (List.prefix_refl _)
    have habove := ih fun parts hparts => hP parts
      (hparts.trans (by rw [List.reverse_cons]; exact List.prefix_append _ _))
    intro files fault files' hrun
    generalize hname : Path.mk anchor (name :: above).reverse = path at hpath
    cases h : (change path (·.makeDirectory path)).run files with
    | ok _ files₁ =>
      rw [run_ensureNames_ok hname.symm h] at hrun
      cases hrun
    | error fault₁ files₁ =>
      obtain ⟨next, hmem, hnext⟩ := run_ensureNames_error hname.symm h
      rw [hnext] at hrun
      simp only [List.mem_cons, List.not_mem_nil, or_false] at hmem
      obtain rfl | rfl | rfl := hmem
      · exact refuses_throw (refuses_change hpath _ files h) _ hrun
      · exact refuses_ensureOne hpath _ hrun
      · exact (habove.bind fun _ => refuses_ensureOne hpath) _ hrun

-- ---------------------------------------------------------------------------
-- Lock files
-- ---------------------------------------------------------------------------

/-- The lock file of a path is there, and this is its number. -/
def Guards (files : Files) (path : Path) (number : Nat) : Prop :=
  ∃ lock content, path.lock = .ok lock ∧ checkPath lock = .ok () ∧
    files.look lock = .ok (.file number content)

/-- The lock file of a path is there once the directory is that it lies in. -/
def HasLock (files : Files) (path : Path) (number : Nat) : Prop :=
  ∃ files₁, (ensureDirectory path.parent).run files = .ok () files₁ ∧ files₁.Guards path number

/-- Takes the lock of a path whose directory is there. -/
def takeLock (path lock : Path) : FilesM Nat := do
  change lock (·.touch lock)
  match ← query lock (·.look lock) with
  | .directory => throw (refusal lock errIsDirectory)
  | .file number _ =>
    if (← get).locks.contains number then throw (.locked path.text)
    modify fun files => { files with locks := number :: files.locks }
    return number

theorem acquire_eq (hlock : path.lock = .ok lock) :
    acquire path = (do ensureDirectory path.parent; takeLock path lock) := by
  rw [← Path.parent_addSuffix hlock]
  unfold acquire
  rw [hlock]
  rfl

/-- A lock file that is there is held, or its lock is taken. -/
theorem run_takeLock_there (hlock : path.lock = .ok lock) (h : files.Guards path number) :
    (takeLock path lock).run files =
      if number ∈ files.locks then .error (.locked path.text) files
      else .ok number (files.withTaken number) := by
  obtain ⟨lock', content, hlock', hcheck, hlook⟩ := h
  obtain rfl : lock' = lock := Except.ok.inj (hlock'.symm.trans hlock)
  obtain ⟨place, hplace, hnode⟩ := look_ok.mp hlook
  have htouch : (change lock' (·.touch lock')).run files = .ok () files :=
    run_change_ok.mpr ⟨hcheck, by simp [touch, hplace, bind, Except.bind, hnode]⟩
  have hquery : (query lock' (·.look lock')).run files = .ok (.file number content) files :=
    run_query_ok.mpr ⟨hcheck, hlook, rfl⟩
  rw [takeLock, run_bind_of_ok htouch, run_bind_of_ok hquery]
  simp only [run_get_bind, List.contains_iff_mem]
  split <;> rfl

theorem run_acquire_hasLock (h : files.HasLock path number) :
    ∃ files₁, (ensureDirectory path.parent).run files = .ok () files₁ ∧
      (acquire path).run files =
        if number ∈ files.locks then .error (.locked path.text) files₁
        else .ok number (files₁.withTaken number) := by
  obtain ⟨files₁, hmake, hguards⟩ := h
  obtain ⟨lock, content, hlock, -⟩ := id hguards
  have hlocks : files₁.locks = files.locks := ((grows_ensureDirectory path files).ok hmake).locks
  refine ⟨files₁, hmake, ?_⟩
  rw [acquire_eq hlock, run_bind_of_ok hmake, run_takeLock_there hlock hguards, hlocks]

theorem look_withTaken (path : Path) (number : Nat) :
    (files.withTaken number).look path = .ok node ↔ files.look path = .ok node := by
  have hcurrent : (files.withTaken number).current = files.current := rfl
  rw [look_ok, look_ok]
  constructor
  · rintro ⟨place, hplace, hnode⟩
    exact ⟨place, locate_of_directories hcurrent.symm (fun _ => id) hplace, hnode⟩
  · rintro ⟨place, hplace, hnode⟩
    exact ⟨place, locate_of_directories hcurrent (fun _ => id) hplace, hnode⟩

theorem Guards.withTaken (h : files.Guards path number) (other : Nat) :
    (files.withTaken other).Guards path number := by
  obtain ⟨lock, content, hlock, hcheck, hlook⟩ := h
  exact ⟨lock, content, hlock, hcheck, (look_withTaken lock other).mpr hlook⟩

theorem Guards.run_ensureDirectory (h : files.Guards path number) :
    (ensureDirectory path.parent).run files = .ok () files := by
  obtain ⟨lock, content, hlock, hcheck, hlook⟩ := h
  have hne := Path.addSuffix_ne_nil hlock
  rw [← Path.parent_addSuffix hlock]
  exact run_ensureDirectory_there (checkPath_parent hne hcheck) (look_parent hne hlook)

theorem Guards.hasLock (h : files.Guards path number) : files.HasLock path number :=
  ⟨files, h.run_ensureDirectory, h⟩

theorem touch_ok (h : files.touch path = .ok files') :
    files' = files ∨ files'.look path = .ok (.file files.next (.bytes [])) := by
  unfold touch at h
  obtain ⟨place, hplace, h⟩ := bind_ok.mp h
  split at h
  · cases h
    exact .inl rfl
  · rename_i hnone
    cases h
    have hgrows : Grows (fun _ _ _ => True) files (files.make place (.bytes [])) :=
      grows_make hnone trivial
    have hplace' := ne_root_of_node?_eq_none hnone
    exact .inr (look_ok.mpr ⟨place, hgrows.locate hplace, node?_put_self hplace' files _⟩)

theorem run_takeLock_ok (hlock : path.lock = .ok lock)
    (h : (takeLock path lock).run files = .ok number files') :
    ∃ files₁, Grows path.MissingLock files files₁ ∧ files₁.Guards path number ∧
      number ∉ files.locks ∧ files' = files₁.withTaken number := by
  obtain ⟨_, files₁, htouch, h⟩ := run_bind_ok.mp h
  obtain ⟨node, files₂, hquery, h⟩ := run_bind_ok.mp h
  obtain ⟨hcheck, hlook, rfl⟩ := run_query_ok.mp hquery
  have hgrows : Grows path.MissingLock files files₁ :=
    grows_touch ⟨lock, files.next, hlock, rfl, rfl⟩ (run_change_ok.mp htouch).2
  cases node with
  | directory => cases h
  | file number' content =>
    dsimp only at h
    rw [run_get_bind] at h
    split at h
    case isTrue => cases h
    case isFalse hfree =>
      cases h
      rw [List.contains_iff_mem, hgrows.locks] at hfree
      exact ⟨files₁, hgrows, ⟨lock, content, hlock, hcheck, hlook⟩, hfree, rfl⟩

/-- A lock that is refused is held: a lock file that was just made has a number that none of the
locks has. -/
theorem run_takeLock_error (hlock : path.lock = .ok lock) (hP : P lock)
    (hnumbers : ∀ number ∈ files.locks, number < files.next)
    (h : (takeLock path lock).run files = .error fault files') :
    IsRefusal P fault ∨ ∃ number ∈ files.locks, files.Guards path number := by
  rcases run_bind_error.mp h with htouch | ⟨_, files₁, htouch, h⟩
  · exact .inl (refuses_change hP _ _ htouch)
  obtain ⟨hcheck, htouch⟩ := run_change_ok.mp htouch
  rcases run_bind_error.mp h with hquery | ⟨node, files₂, hquery, h⟩
  · exact .inl (refuses_query hP _ _ hquery)
  obtain ⟨-, hlook, rfl⟩ := run_query_ok.mp hquery
  cases node with
  | directory => exact .inl (refuses_throw (.system hP _ _) _ h)
  | file number content =>
    dsimp only at h
    rw [run_get_bind] at h
    split at h
    case isFalse => cases h
    case isTrue hheld =>
      have hgrows : Grows (fun _ _ _ => True) files files₁ := grows_touch trivial htouch
      have hmem : number ∈ files.locks := by
        rw [← hgrows.locks]
        exact List.contains_iff_mem.mp hheld
      rcases touch_ok htouch with rfl | hmade
      · exact .inr ⟨number, hmem, lock, content, hlock, hcheck, hlook⟩
      · rw [hlook] at hmade
        cases hmade
        exact absurd (hnumbers _ hmem) (Nat.lt_irrefl _)

/-- Where a lock is had, the directory was made first, then the lock file. -/
theorem run_acquire_ok (h : (acquire path).run files = .ok number files') :
    ∃ files₁ files₂, (ensureDirectory path.parent).run files = .ok () files₁ ∧
      Grows path.MissingLock files₁ files₂ ∧ files₂.Guards path number ∧
      number ∉ files.locks ∧ files' = files₂.withTaken number := by
  cases hlock : path.lock with
  | error fault =>
    rw [acquire, hlock] at h
    cases h
  | ok lock =>
    rw [acquire_eq hlock] at h
    obtain ⟨_, files₁, hmake, h⟩ := run_bind_ok.mp h
    obtain ⟨files₂, hgrows, hguards, hfree, rfl⟩ := run_takeLock_ok hlock h
    rw [((grows_ensureDirectory path files).ok hmake).locks] at hfree
    exact ⟨files₁, files₂, hmake, hgrows, hguards, hfree, rfl⟩

/-- What is made before the lock is taken. -/
theorem run_acquire_grows (h : (acquire path).run files = .ok number files') :
    ∃ files₁, Grows path.MissingBeside files files₁ ∧ files₁.Guards path number ∧
      number ∉ files.locks ∧ files' = files₁.withTaken number := by
  obtain ⟨files₁, files₂, hmake, htouch, hguards, hfree, rfl⟩ := run_acquire_ok h
  have hmade := (grows_ensureDirectory path files).ok hmake
  refine ⟨files₂, ?_, hguards, hfree, rfl⟩
  exact trans_of _ (hmade.mono fun _ _ _ => .inl) (htouch.mono fun _ _ _ => .inr)

theorem run_acquire_error (h : (acquire path).run files = .error fault files') :
    Grows path.MissingBeside files files' := by
  have hmake (lock : Path) (hlock : path.lock = .ok lock) :
      Respects (Grows path.MissingBeside) (ensureDirectory lock.parent) := by
    rw [Path.parent_addSuffix hlock]
    exact (grows_ensureDirectory path).mono fun _ _ h => h.mono fun _ _ _ => .inl
  have htouch (lock : Path) (hlock : path.lock = .ok lock) (files files' : Files)
      (h : files.touch lock = .ok files') : Grows path.MissingBeside files files' :=
    grows_touch (.inr ⟨lock, files.next, hlock, rfl, rfl⟩) h
  exact (acquire_ends_of hmake htouch files).error h

/-- The lock of a path is refused as taken if and only if it is. -/
theorem acquire_locked_iff (hnumbers : ∀ number ∈ files.locks, number < files.next) :
    (∃ fault files', (acquire path).run files = .error fault files' ∧ fault.faultClass = .lock) ↔
      ∃ number ∈ files.locks, files.HasLock path number := by
  constructor
  · rintro ⟨fault, files', h, hclass⟩
    cases hlock : path.lock with
    | error fault' =>
      rw [acquire, hlock] at h
      cases h
      rw [(Path.addSuffix_error hlock).2] at hclass
      cases hclass
    | ok lock =>
      rw [acquire_eq hlock] at h
      rcases run_bind_error.mp h with hmake | ⟨_, files₁, hmake, h⟩
      · have hrefuses : Refuses (fun _ => True) (ensureDirectory path.parent) :=
          refuses_ensureNames _ _ fun _ _ => trivial
        exact absurd hclass (hrefuses _ hmake).faultClass_ne
      · have hgrows := (grows_ensureDirectory path files).ok hmake
        rw [← hgrows.locks] at hnumbers
        have hnumbers' (number : Nat) (hmem : number ∈ files₁.locks) : number < files₁.next :=
          Nat.lt_of_lt_of_le (hnumbers number hmem) hgrows.next
        rcases run_takeLock_error (P := fun _ => True) hlock trivial hnumbers' h
          with hrefusal | ⟨number, hheld, hguards⟩
        · exact absurd hclass hrefusal.faultClass_ne
        · exact ⟨number, hgrows.locks ▸ hheld, files₁, hmake, hguards⟩
  · rintro ⟨number, hheld, h⟩
    obtain ⟨files₁, -, hrun⟩ := run_acquire_hasLock h
    rw [if_pos hheld] at hrun
    exact ⟨_, _, hrun, rfl⟩

end Files

end Marginalia
