import Marginalia.Proofs.Files.Locks

/-!
# All or nothing

A file is replaced, or all files are as they were, wherever the work is stopped: before there is a
draft, while it is written, or when it is to take the place of the file. A draft that is open is
removed again, and one that cannot be opened is not touched. What is left besides is the directories
that were missing, and the lock file. A departure may leave the draft too, but nothing else.
-/

namespace Marginalia

namespace Files

/-- All places hold what they held. -/
abbrev Same : Files → Files → Prop := Grows fun _ _ _ => False

/-- Besides what the first files have, the second ones have a draft that is open. -/
structure Drafted (draft : Path) (files files' : Files) : Prop where
  named : checkPath draft = .ok ()
  grows : Grows (fun current place _ => place = draft.placeFrom current) files files'
  located : files'.locate draft = .ok (draft.placeFrom files.current)
  free : files.node? (draft.placeFrom files.current) = none
  opened : ∃ number content,
    files'.node? (draft.placeFrom files.current) = some (.file number content)

/-- The draft of a path has taken the place of the file, and what other places hold besides what
they held is `new`. -/
structure Replaced (new : Place → Place → Node → Prop) (path : Path) (files files' : Files) :
    Prop where
  current : files'.current = files.current
  locks : files'.locks = files.locks
  draft : ∀ draft, path.draft = .ok draft → files'.node? (draft.placeFrom files.current) = none
  others : ∀ place, place ≠ path.placeFrom files.current →
    files'.node? place = files.node? place ∨ files.node? place = none ∧
      ∃ node, files'.node? place = some node ∧ new files.current place node

variable {files files' files'' : Files} {path draft : Path} {place : Place}
variable {new : Place → Place → Node → Prop} {text : Except Fault (List Char)} {before : List Char}

theorem Same.node? (h : Same files files') (place : Place) :
    files'.node? place = files.node? place :=
  (h.places place).resolve_right fun ⟨_, _, _, hnew⟩ => hnew

theorem Same.grows (h : Same files files') : Grows new files files' := h.mono fun _ _ _ => nofun

theorem Replaced.mono {new' : Place → Place → Node → Prop} (h : Replaced new path files files')
    (hnew : ∀ current place node, new current place node → new' current place node) :
    Replaced new' path files files' where
  current := h.current
  locks := h.locks
  draft := h.draft
  others place hplace := (h.others place hplace).imp_right fun ⟨hnone, node, hnode, hnode'⟩ =>
    ⟨hnone, node, hnode, hnew _ _ _ hnode'⟩

theorem Grows.replaced (h : Grows new files files') (h' : Replaced new path files' files'') :
    Replaced new path files files'' where
  current := h'.current.trans h.current
  locks := h'.locks.trans h.locks
  draft draft hdraft := h.current ▸ h'.draft draft hdraft
  others place hplace := by
    rw [← h.current] at hplace
    rcases h'.others place hplace with heq | ⟨hnone, node, hnode, hnew⟩
    · rw [heq]
      exact h.places place
    · rcases h.places place with heq' | ⟨-, node', hnode', -⟩
      · exact .inr ⟨heq' ▸ hnone, node, hnode, h.current ▸ hnew⟩
      · rw [hnone] at hnode'
        cases hnode'

-- ---------------------------------------------------------------------------
-- Drafts
-- ---------------------------------------------------------------------------

theorem node?_erase_self (hplace : place ≠ []) (files : Files) :
    (files.erase place).node? place = none := by
  have hlookup : (files.erase place).nodes.lookup place = none :=
    List.lookup_eq_none_iff.mpr fun entry hmem =>
      bne_iff_ne.mpr (bne_iff_ne.mp (List.mem_filter.mp hmem).2).symm
  simpa [node?, hplace] using hlookup

theorem numbered_erase (hplace : place ≠ []) (h : files.Numbered) :
    (files.erase place).Numbered := by
  intro other number content hnode
  by_cases hother : other = place
  · rw [hother, node?_erase_self hplace] at hnode
    cases hnode
  · rw [node?_erase_ne hother] at hnode
    exact h other number content hnode

theorem Drafted.others (h : Drafted draft files files')
    (hplace : place ≠ draft.placeFrom files.current) : files'.node? place = files.node? place :=
  (h.grows.places place).resolve_right fun ⟨_, _, _, hdraft⟩ => hplace hdraft

theorem Drafted.write (h : Drafted draft files files') (content : Content) :
    Drafted draft files (files'.write (draft.placeFrom files.current) content) := by
  obtain ⟨number, old, hnode⟩ := h.opened
  have hroot := ne_root_of_node?_eq_none h.free
  have hput := node?_put hroot files' (.file number content)
  rw [Files.write, hnode]
  refine ⟨h.named, ⟨h.grows.current, h.grows.locks, h.grows.next, fun hnumbered => ?_, ?_⟩, ?_,
    h.free, number, content, (hput _).trans (if_pos rfl)⟩
  · intro other number' content' hnode'
    rw [hput] at hnode'
    split at hnode'
    · cases hnode'
      exact h.grows.numbered hnumbered _ _ _ hnode
    · exact h.grows.numbered hnumbered _ _ _ hnode'
  · intro other
    rw [hput]
    split
    · rename_i hother
      exact .inr ⟨hother ▸ h.free, _, rfl, hother⟩
    · exact .inl (h.others ‹_›)
  · have hcurrent : (files'.put (draft.placeFrom files.current)
        (.file number content)).current = files'.current := rfl
    refine locate_of_directories hcurrent (fun other hother => ?_) h.located
    rw [hput, if_neg, hother]
    rintro rfl
    rw [hnode] at hother
    cases hother

/-- A draft that is removed leaves nothing. -/
theorem Drafted.erase (h : Drafted draft files files') :
    Same files (files'.erase (draft.placeFrom files.current)) := by
  have hroot := ne_root_of_node?_eq_none h.free
  refine ⟨h.grows.current, h.grows.locks, h.grows.next,
    fun hnumbered => numbered_erase hroot (h.grows.numbered hnumbered), fun other => .inl ?_⟩
  by_cases hother : other = draft.placeFrom files.current
  · rw [hother, node?_erase_self hroot, h.free]
  · rw [node?_erase_ne hother, h.others hother]

/-- A draft that takes the place of the file leaves its own. -/
theorem Drafted.rename (h : Drafted draft files files') (hdraft : path.draft = .ok draft)
    (hrename : files'.rename draft path = .ok files'') :
    Replaced new path files files'' := by
  obtain ⟨number, content, hnode⟩ := h.opened
  have hroot := ne_root_of_node?_eq_none h.free
  unfold Files.rename at hrename
  rw [h.located] at hrename
  obtain ⟨source, hsource, hrename⟩ := bind_ok.mp hrename
  cases hsource
  split at hrename
  · cases hrename
  · rename_i hname
    obtain ⟨target, htarget, hrename⟩ := bind_ok.mp hrename
    obtain rfl := locate_ok htarget
    rw [hnode] at hrename
    split at hrename
    · rename_i hnone
      cases hnone
    · cases hrename
    · rename_i node old hfile hdirectory
      cases hfile
      cases hrename
      have hother := Path.placeFrom_addSuffix_ne hdraft (by decide) files.current
      have htarget : path.placeFrom files'.current ≠ [] := by
        rintro heq
        rw [heq] at hdirectory
        exact hdirectory rfl
      rw [h.grows.current] at htarget ⊢
      have hput := node?_put htarget (files'.erase (draft.placeFrom files.current))
        (.file number content)
      refine ⟨h.grows.current, h.grows.locks, fun draft' hdraft' => ?_, fun other hne => .inl ?_⟩
      · obtain rfl : draft = draft' := Except.ok.inj (hdraft.symm.trans hdraft')
        rw [hput, if_neg hother, node?_erase_self hroot]
      · rw [hput, if_neg hne, h.erase.node?]

theorem draft_ne_lock (hdraft : path.draft = .ok draft) (hlock : path.lock = .ok lock)
    (current : Place) : draft.placeFrom current ≠ lock.placeFrom current := by
  rw [Path.placeFrom_addSuffix hdraft (by decide), Path.placeFrom_addSuffix hlock (by decide)]
  intro heq
  have hlength := congrArg String.length
    (List.head_eq_of_cons_eq (List.append_cancel_left heq))
  rw [String.length_append, String.length_append] at hlength
  exact absurd (Nat.add_left_cancel hlength) (by decide)

theorem Grows.unlocked (hfree : number ∉ files.locks)
    (h : Grows new (files.withTaken number) files') :
    Grows new files (files'.unlocked number) where
  current := h.current
  locks := by
    rw [Files.unlocked, h.locks]
    exact filter_locks hfree
  next := h.next
  numbered := h.numbered
  places := h.places

theorem Replaced.unlocked (hfree : number ∉ files.locks)
    (h : Replaced new path (files.withTaken number) files') :
    Replaced new path files (files'.unlocked number) where
  current := h.current
  locks := by
    rw [Files.unlocked, h.locks]
    exact filter_locks hfree
  draft := h.draft
  others := h.others

end Files

end Marginalia
