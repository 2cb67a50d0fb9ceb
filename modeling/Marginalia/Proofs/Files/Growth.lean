import Marginalia.Proofs.Files.Replacement

/-!
# What is made on the way

Making a directory makes those above it that are missing, and touching a lock file makes an empty
file. Nothing else comes to be and nothing goes, relative paths start where they did, and a new file
has a number that no other one has.
-/

namespace Marginalia

/-- The directories that a path goes through, where they are missing. -/
def Path.MissingParent (path : Path) (current place : Place) (node : Node) : Prop :=
  node = .directory ∧
    ∃ names, names <+: path.parent.parts ∧ place = Path.placeFrom current ⟨path.anchor, names⟩

/-- The lock file of a path, where it is missing. -/
def Path.MissingLock (path : Path) (current place : Place) (node : Node) : Prop :=
  ∃ lock number, path.lock = .ok lock ∧ place = lock.placeFrom current ∧
    node = .file number (.bytes [])

/-- What a writer makes before it has the lock of a path. -/
def Path.MissingBeside (path : Path) (current place : Place) (node : Node) : Prop :=
  path.MissingParent current place node ∨ path.MissingLock current place node

theorem Path.addSuffix_ne_nil {path path' : Path} {more : String}
    (h : path.addSuffix more = .ok path') : path'.parts ≠ [] := by
  obtain ⟨-, rfl⟩ := addSuffix_ok h
  simp

theorem Path.parent_addSuffix {path path' : Path} {more : String}
    (h : path.addSuffix more = .ok path') : path'.parent = path.parent := by
  obtain ⟨-, rfl⟩ := addSuffix_ok h
  simp [parent]

/-- More at the end of a name leads to a place beside the other one. -/
theorem Path.placeFrom_addSuffix {path path' : Path} {more : String}
    (h : path.addSuffix more = .ok path') (hmore : 2 < more.length) (current : Place) :
    path'.placeFrom current = path.parent.placeFrom current ++ [path.name ++ more] := by
  obtain ⟨-, rfl⟩ := addSuffix_ok h
  have hname : (path.name ++ more == "..") = false := by
    refine beq_eq_false_iff_ne.mpr fun heq => ?_
    have hlength := congrArg String.length heq
    rw [String.length_append, show "..".length = 2 from rfl] at hlength
    omega
  rw [placeFrom, List.foldl_append, List.foldl_cons, List.foldl_nil, Place.step, hname]
  rfl

theorem Path.placeFrom_addSuffix_ne {path path' : Path} {more : String}
    (h : path.addSuffix more = .ok path') (hmore : 2 < more.length) (current : Place) :
    path'.placeFrom current ≠ path.placeFrom current := by
  have hplace : path.placeFrom current = (path.parent.placeFrom current).step path.name := by
    rw [placeFrom, parts_eq_concat (addSuffix_ok h).1, List.foldl_append, List.foldl_cons,
      List.foldl_nil]
    rfl
  rw [placeFrom_addSuffix h hmore, hplace, Place.step]
  intro heq
  split at heq
  · have hlength := congrArg List.length heq
    rw [List.length_append, List.length_dropLast, List.length_singleton] at hlength
    omega
  · have hname := congrArg String.length (List.head_eq_of_cons_eq (List.append_cancel_left heq))
    rw [String.length_append] at hname
    omega

namespace Files

/-- All numbers of files have been given out. -/
def Numbered (files : Files) : Prop :=
  ∀ place number content, files.node? place = some (.file number content) → number < files.next

/-- The second files have all that the first ones have, and what they have besides is `new`. -/
structure Grows (new : Place → Place → Node → Prop) (files files' : Files) : Prop where
  current : files'.current = files.current
  locks : files'.locks = files.locks
  next : files.next ≤ files'.next
  numbered : files.Numbered → files'.Numbered
  places : ∀ place, files'.node? place = files.node? place ∨
    files.node? place = none ∧ ∃ node, files'.node? place = some node ∧ new files.current place node

variable {files files' : Files} {new : Place → Place → Node → Prop} {path : Path} {place : Place}

theorem Grows.kept (h : Grows new files files') (hnode : files.node? place = some node) :
    files'.node? place = some node := by
  rcases h.places place with heq | ⟨hnone, -⟩
  · rw [heq, hnode]
  · rw [hnone] at hnode
    cases hnode

/-- Paths lead where they did. -/
theorem Grows.locate (h : Grows new files files') (hplace : files.locate path = .ok place) :
    files'.locate path = .ok place :=
  locate_of_directories h.current (fun _ => h.kept) hplace

instance : Std.Refl (Grows new) where
  refl _ := ⟨rfl, rfl, Nat.le_refl _, id, fun _ => .inl rfl⟩

instance : IsTrans Files (Grows new) where
  trans files files' files'' h h' := by
    refine ⟨h'.current.trans h.current, h'.locks.trans h.locks, Nat.le_trans h.next h'.next,
      h'.numbered ∘ h.numbered, ?_⟩
    intro place
    rcases h'.places place with heq | ⟨hnone, node, hnode, hnew⟩
    · rcases h.places place with heq' | ⟨hnone, node, hnode, hnew⟩
      · exact .inl (heq.trans heq')
      · exact .inr ⟨hnone, node, heq.trans hnode, hnew⟩
    · rcases h.places place with heq' | ⟨-, node', hnode', -⟩
      · exact .inr ⟨heq' ▸ hnone, node, hnode, h.current ▸ hnew⟩
      · rw [hnone] at hnode'
        cases hnode'

theorem Grows.mono {new' : Place → Place → Node → Prop} (h : Grows new files files')
    (hnew : ∀ current place node, new current place node → new' current place node) :
    Grows new' files files' where
  current := h.current
  locks := h.locks
  next := h.next
  numbered := h.numbered
  places place := (h.places place).imp_right fun ⟨hnone, node, hnode, hnode'⟩ =>
    ⟨hnone, node, hnode, hnew _ _ _ hnode'⟩

theorem node_put (hnone : files.node? place = none) (hnew : new files.current place node)
    (other : Place) : (files.put place node).node? other = files.node? other ∨
      files.node? other = none ∧ ∃ node', (files.put place node).node? other = some node' ∧
        new files.current other node' := by
  rw [node?_put (ne_root_of_node?_eq_none hnone)]
  split
  · rename_i hother
    exact .inr ⟨hother ▸ hnone, node, rfl, hother ▸ hnew⟩
  · exact .inl rfl

theorem grows_make (hnone : files.node? place = none)
    (hnew : new files.current place (.file files.next content)) :
    Grows new files (files.make place content) where
  current := rfl
  locks := rfl
  next := Nat.le_succ _
  numbered hnumbered other number content' hnode := by
    rw [make] at hnode
    change (files.put place _).node? other = _ at hnode
    rw [node?_put (ne_root_of_node?_eq_none hnone)] at hnode
    split at hnode
    · cases hnode
      exact Nat.lt_succ_self _
    · exact Nat.lt_succ_of_lt (hnumbered _ _ _ hnode)
  places := node_put hnone hnew

theorem grows_makeDirectory (hnew : new files.current (path.placeFrom files.current) .directory)
    (h : files.makeDirectory path = .ok files') : Grows new files files' := by
  unfold makeDirectory at h
  obtain ⟨place, hplace, h⟩ := bind_ok.mp h
  obtain rfl := locate_ok hplace
  split at h
  · cases h
  · rename_i hnone
    cases h
    refine ⟨rfl, rfl, Nat.le_refl _, fun hnumbered other number content hnode => ?_,
      node_put hnone hnew⟩
    rw [node?_put (ne_root_of_node?_eq_none hnone)] at hnode
    split at hnode
    · cases hnode
    · exact hnumbered _ _ _ hnode

theorem grows_touch
    (hnew : new files.current (path.placeFrom files.current) (.file files.next (.bytes [])))
    (h : files.touch path = .ok files') : Grows new files files' := by
  unfold touch at h
  obtain ⟨place, hplace, h⟩ := bind_ok.mp h
  obtain rfl := locate_ok hplace
  split at h
  · cases h
    exact refl _
  · cases h
    exact grows_make ‹_› hnew

theorem grows_ensureDirectory (path : Path) :
    Respects (Grows path.MissingParent) (ensureDirectory path.parent) := by
  refine respects_ensureNames _ _ fun names hnames files files' h => ?_
  rw [List.reverse_reverse] at hnames
  exact grows_makeDirectory ⟨rfl, names, hnames, rfl⟩ h

/-- The files with one more lock. -/
def withTaken (files : Files) (number : Nat) : Files :=
  { files with locks := number :: files.locks }

-- ---------------------------------------------------------------------------
-- Files that are added to
-- ---------------------------------------------------------------------------

/-- But for locks, the second files add to the first ones, and the working directory is the same. -/
structure Extends (files files' : Files) : Prop where
  current : files'.current = files.current
  adds : Adds files { files' with locks := files.locks }

theorem Adds.extends (h : Adds files files') (hcurrent : files'.current = files.current) :
    Extends files files' := ⟨hcurrent, rfl, h.kept, h.bare⟩

instance : Std.Refl Extends where
  refl files := (refl files : Adds files files).extends rfl

instance : IsTrans Files Extends where
  trans files files' files'' h h' := by
    have hadds : Adds { files' with locks := files.locks } { files'' with locks := files.locks } :=
      ⟨rfl, h'.adds.kept, h'.adds.bare⟩
    exact ⟨h'.current.trans h.current, trans_of Adds h.adds hadds⟩

theorem extends_makeDirectory (h : files.makeDirectory path = .ok files') :
    Extends files files' := by
  have hgrows : Grows (fun _ _ _ => True) files files' := grows_makeDirectory trivial h
  exact (adds_makeDirectory h).extends hgrows.current

theorem extends_touch (h : files.touch path = .ok files') : Extends files files' := by
  have hgrows : Grows (fun _ _ _ => True) files files' := grows_touch trivial h
  exact (adds_touch h).extends hgrows.current

theorem extends_ensureDirectory (path : Path) : Respects Extends (ensureDirectory path) :=
  respects_ensureDirectory (fun _ _ _ => extends_makeDirectory) path

theorem extends_acquire (h : (acquire path).run files = .ok number files') :
    Extends files files' := by
  obtain ⟨files₁, hextends, -, rfl⟩ :=
    (acquire_ends_of (fun lock _ => extends_ensureDirectory lock.parent)
      (fun _ _ _ _ => extends_touch) files).ok h
  exact ⟨hextends.current, rfl, hextends.adds.kept, hextends.adds.bare⟩

/-- A file that is there has what it had before, or holds nothing. -/
theorem Extends.content {content : Content} (h : Extends files files')
    (hnode : files'.node? place = some (.file number content)) :
    files.node? place = some (.file number content) ∨
      files.node? place = none ∧ content = .bytes [] := by
  cases hbefore : files.node? place with
  | some node =>
    obtain rfl : node = .file number content :=
      Option.some.inj ((h.adds.kept hbefore).symm.trans hnode)
    exact .inl rfl
  | none => exact .inr ⟨rfl, h.adds.bare hbefore hnode⟩

end Files

end Marginalia
