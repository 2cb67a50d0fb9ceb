import Marginalia.Text.Blank
import Marginalia.Text.Word
import Mathlib.Data.List.TakeWhile

/-!
# Trimmed texts

Cutting blanks off the end of a text that is put together: the blanks at the end of its last part
go, and those of the parts before only when nothing else is left behind them.
-/

namespace Marginalia.Text

-- ---------------------------------------------------------------------------
-- Blank characters
-- ---------------------------------------------------------------------------

def Ranges.points (ranges : Ranges) : List Nat :=
  ranges.flatMap fun range => List.range' range.1 (range.2 - range.1 + 1)

theorem mem_points_of_holds {ranges : Ranges} (h : ranges.holds n = true) : n ∈ ranges.points := by
  induction ranges with
  | nil => cases h
  | cons range rest ih =>
    obtain ⟨low, high⟩ := range
    simp only [Ranges.holds, Bool.if_false_left, Bool.and_eq_true, Bool.or_eq_true,
      Bool.not_eq_true', decide_eq_true_eq, decide_eq_false_iff_not] at h
    obtain ⟨hlow, hhigh | hrest⟩ := h
    · refine List.mem_append_left _ (List.mem_range'_1.mpr ?_)
      dsimp only
      omega
    · exact List.mem_append_right _ (ih hrest)

theorem not_isBlank_of_isWord (h : isWord c = true) : isBlank c = false := by
  have hapart : ∀ n ∈ blanks.points, (n == '_'.toNat || alphanumerics.holds n) = false := by
    decide +kernel
  cases hblank : isBlank c with
  | false => rfl
  | true =>
    have hnone := hapart c.toNat (mem_points_of_holds hblank)
    simp only [Bool.or_eq_false_iff, beq_eq_false_iff_ne] at hnone
    simp only [isWord, isAlphanumeric, hnone.2, Bool.or_false, beq_iff_eq] at h
    exact absurd (congrArg Char.toNat h) hnone.1

-- ---------------------------------------------------------------------------
-- The end of a text
-- ---------------------------------------------------------------------------

theorem trimEnd_cons (c : Char) (cs : List Char) :
    trimEnd (c :: cs) =
      if trimEnd cs = [] then if isBlank c then [] else [c] else c :: trimEnd cs := by
  rw [trimEnd]
  cases trimEnd cs <;> rfl

theorem trimEnd_append (cs ds : List Char) :
    trimEnd (cs ++ ds) = if trimEnd ds = [] then trimEnd cs else cs ++ trimEnd ds := by
  induction cs with
  | nil => by_cases h : trimEnd ds = [] <;> simp [h, trimEnd]
  | cons c rest ih =>
    rw [List.cons_append, trimEnd_cons, ih, trimEnd_cons]
    by_cases h : trimEnd ds = []
    · simp [h]
    · simp [h]

@[simp] theorem trimEnd_trimEnd (cs : List Char) : trimEnd (trimEnd cs) = trimEnd cs := by
  induction cs with
  | nil => rfl
  | cons c rest ih =>
    rw [trimEnd_cons]
    split
    · split
      · rfl
      · rename_i hblank
        simp [trimEnd, hblank]
    · rename_i hrest
      rw [trimEnd_cons, ih, if_neg hrest]

theorem length_trimEnd_le (cs : List Char) : (trimEnd cs).length ≤ cs.length := by
  induction cs with
  | nil => exact Nat.le_refl 0
  | cons c rest ih =>
    rw [trimEnd_cons]
    split
    · split <;> simp
    · simpa using ih

theorem head?_trimEnd (h : trimEnd cs ≠ []) : (trimEnd cs).head? = cs.head? := by
  cases cs with
  | nil => rfl
  | cons c rest =>
    rw [trimEnd_cons] at h ⊢
    by_cases hrest : trimEnd rest = []
    · by_cases hblank : isBlank c = true <;> simp [hrest, hblank] at h ⊢
    · simp [hrest]

theorem trimEnd_subset (cs : List Char) : trimEnd cs ⊆ cs := by
  induction cs with
  | nil => exact List.nil_subset _
  | cons c rest ih =>
    rw [trimEnd_cons]
    split
    · split
      · exact List.nil_subset _
      · exact List.cons_subset_cons c (List.nil_subset rest)
    · exact List.cons_subset_cons c ih

theorem trimEnd_append_singleton (cs : List Char) (h : isBlank c = false) :
    trimEnd (cs ++ [c]) = cs ++ [c] := by
  simp [trimEnd_append, trimEnd, h]

theorem trimEnd_of_append (h : trimEnd (cs ++ ds) = cs ++ ds) : trimEnd ds = ds := by
  rw [trimEnd_append] at h
  split at h
  · rename_i hds
    have hlength := length_trimEnd_le cs
    rw [h, List.length_append] at hlength
    rw [hds, List.length_eq_zero_iff.mp (by omega : ds.length = 0)]
  · exact List.append_cancel_left h

theorem trimEnd_of_cons (h : trimEnd (c :: cs) = c :: cs) : trimEnd cs = cs :=
  trimEnd_of_append (List.singleton_append ▸ h)

theorem trimEnd_eq_self (h : ∀ c ∈ cs, isBlank c = false) : trimEnd cs = cs := by
  induction cs with
  | nil => rfl
  | cons c rest ih =>
    obtain ⟨hc, hrest⟩ := List.forall_mem_cons.mp h
    rw [trimEnd_cons, ih hrest]
    by_cases hnil : rest = []
    · simp [hnil, hc]
    · simp [hnil]

theorem trimEnd_eq_nil (h : ∀ c ∈ cs, isBlank c = true) : trimEnd cs = [] := by
  induction cs with
  | nil => rfl
  | cons c rest ih =>
    obtain ⟨hc, hrest⟩ := List.forall_mem_cons.mp h
    simp [trimEnd, ih hrest, hc]

-- ---------------------------------------------------------------------------
-- Both ends
-- ---------------------------------------------------------------------------

theorem trimStart_eq_self (h : ∀ c ∈ cs.head?, isBlank c = false) : trimStart cs = cs := by
  cases cs with
  | nil => rfl
  | cons c rest => simp [trimStart, h c rfl]

theorem trim_eq_trimEnd (h : ∀ c ∈ cs.head?, isBlank c = false) : trim cs = trimEnd cs := by
  rw [trim, trimStart_eq_self h]

theorem head_of_trim_eq (h : trim cs = cs) : ∀ c ∈ cs.head?, isBlank c = false := by
  cases cs with
  | nil => simp
  | cons c rest =>
    rintro _ ⟨⟩
    cases hblank : isBlank c with
    | false => rfl
    | true =>
      have hdrop : trimStart (c :: rest) = trimStart rest := by simp [trimStart, hblank]
      have hshort : (trim (c :: rest)).length ≤ rest.length := by
        rw [trim, hdrop]
        exact Nat.le_trans (length_trimEnd_le _) (List.dropWhile_sublist isBlank).length_le
      rw [h] at hshort
      exact absurd hshort (Nat.not_succ_le_self _)

theorem trimEnd_of_trim_eq (h : trim cs = cs) : trimEnd cs = cs := by
  rw [← trim_eq_trimEnd (head_of_trim_eq h), h]

theorem trim_eq_self (h : ∀ c ∈ cs.head?, isBlank c = false) (hend : trimEnd cs = cs) :
    trim cs = cs :=
  (trim_eq_trimEnd h).trans hend

theorem head_trimStart (cs : List Char) : ∀ c ∈ (trimStart cs).head?, isBlank c = false := by
  intro c hc
  have hfirst := List.head?_dropWhile_not isBlank cs
  rw [← trimStart, hc] at hfirst
  simpa using hfirst

theorem exists_trimEnd (cs : List Char) :
    ∃ back, (∀ c ∈ back, isBlank c = true) ∧ cs = trimEnd cs ++ back := by
  induction cs with
  | nil => exact ⟨[], List.forall_mem_nil _, rfl⟩
  | cons c rest ih =>
    obtain ⟨back, hback, hrest⟩ := ih
    rw [trimEnd_cons]
    split
    · rename_i hnil
      rw [hnil, List.nil_append] at hrest
      subst hrest
      split
      · exact ⟨c :: rest, List.forall_mem_cons.mpr ⟨‹_›, hback⟩, rfl⟩
      · exact ⟨rest, hback, rfl⟩
    · exact ⟨back, hback, congrArg (c :: ·) hrest⟩

/-- What is cut off a text are blanks at its ends. -/
theorem exists_trim (cs : List Char) : ∃ front back, (∀ c ∈ front, isBlank c = true) ∧
    (∀ c ∈ back, isBlank c = true) ∧ cs = front ++ (trim cs ++ back) := by
  obtain ⟨back, hback, hend⟩ := exists_trimEnd (trimStart cs)
  refine ⟨cs.takeWhile isBlank, back, fun c hc => List.mem_takeWhile_imp hc, hback, ?_⟩
  rw [trim, ← hend]
  exact List.takeWhile_append_dropWhile.symm

theorem trim_eq_nil (h : ∀ c ∈ cs, isBlank c = true) : trim cs = [] := by
  rw [trim, trimStart, List.dropWhile_eq_nil_iff.mpr h]
  rfl

/-- Blanks around a text have no part in it. -/
theorem trim_append_append {front back : List Char} (hfront : ∀ c ∈ front, isBlank c = true)
    (hback : ∀ c ∈ back, isBlank c = true) (cs : List Char) :
    trim (front ++ (cs ++ back)) = trim cs := by
  rw [trim, trimStart, List.dropWhile_append_of_pos hfront]
  by_cases hblank : ∀ c ∈ cs, isBlank c = true
  · have hall : ∀ c ∈ cs ++ back, isBlank c = true := List.forall_mem_append.mpr ⟨hblank, hback⟩
    rw [trim_eq_nil hblank, List.dropWhile_eq_nil_iff.mpr hall]
    rfl
  · have hstart : (cs ++ back).dropWhile isBlank = trimStart cs ++ back := by
      rw [List.dropWhile_append, if_neg]
      · rfl
      · simpa using hblank
    rw [hstart, trimEnd_append, trimEnd_eq_nil hback, if_pos rfl, trim]

theorem trim_trimStart (cs : List Char) : trim (trimStart cs) = trim cs := by
  rw [trim, trim, trimStart_eq_self (head_trimStart cs)]

theorem trim_trimEnd (cs : List Char) : trim (trimEnd cs) = trim cs := by
  obtain ⟨back, hback, hcs⟩ := exists_trimEnd cs
  have hsame := trim_append_append (List.forall_mem_nil _) hback (trimEnd cs)
  rw [List.nil_append, ← hcs] at hsame
  exact hsame.symm

theorem trimEnd_suffix (h : ds <:+ cs) : trimEnd ds <:+ trimEnd cs := by
  obtain ⟨front, rfl⟩ := h
  rw [trimEnd_append]
  split
  · rename_i hnil
    rw [hnil]
    exact List.nil_suffix
  · exact List.suffix_append _ _

theorem trimStart_suffix (h : ds <:+ cs) : trimStart ds <:+ trimStart cs := by
  obtain ⟨front, rfl⟩ := h
  rw [trimStart, trimStart, List.dropWhile_append]
  split
  · exact List.suffix_rfl
  · exact (List.dropWhile_suffix isBlank).trans (List.suffix_append _ _)

/-- The end of a text, trimmed, is the end of the trimmed text. -/
theorem trim_suffix (h : ds <:+ cs) : trim ds <:+ trim cs := trimEnd_suffix (trimStart_suffix h)

theorem trim_subset (cs : List Char) : trim cs ⊆ cs :=
  List.Subset.trans (trimEnd_subset _) (List.dropWhile_sublist isBlank).subset

@[simp] theorem trim_trim (cs : List Char) : trim (trim cs) = trim cs := by
  refine trim_eq_self (fun c hc => ?_) (trimEnd_trimEnd _)
  have hne : trim cs ≠ [] := by
    intro hnil
    rw [hnil] at hc
    cases hc
  rw [trim, head?_trimEnd hne] at hc
  exact head_trimStart cs c hc

end Marginalia.Text
