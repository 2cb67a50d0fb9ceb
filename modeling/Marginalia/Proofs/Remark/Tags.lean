import Marginalia.Remark.Tags

/-!
# Normal forms of tags

Which tags a list of tags stands for. The order in which they are tried takes none away, and the
first one that fits is a longest one that does.
-/

namespace Marginalia

theorem mem_distinct [BEq α] [LawfulBEq α] {a : α} {l : List α} : a ∈ distinct l ↔ a ∈ l := by
  induction l with
  | nil => simp [distinct]
  | cons head rest ih =>
    simp only [distinct, List.mem_cons, List.mem_filter, ih]
    by_cases h : a = head <;> simp [h]

theorem nodup_distinct [BEq α] [LawfulBEq α] (l : List α) : (distinct l).Nodup := by
  induction l with
  | nil => exact List.nodup_nil
  | cons a rest ih => exact List.nodup_cons.mpr ⟨by simp, ih.filter _⟩

theorem mem_orderedTags : tag ∈ orderedTags tags ↔ (∃ x ∈ tags, normalTag x = tag) ∧ tag ≠ [] := by
  simp [orderedTags, List.mem_mergeSort, mem_distinct]

theorem orderedTags_descend (tags : List String) :
    (orderedTags tags).Pairwise fun a b : List Char => b.length ≤ a.length := by
  have htrans (a b c : List Char) (hab : decide (b.length ≤ a.length) = true)
      (hbc : decide (c.length ≤ b.length) = true) : decide (c.length ≤ a.length) = true :=
    decide_eq_true (Nat.le_trans (of_decide_eq_true hbc) (of_decide_eq_true hab))
  have htotal (a b : List Char) :
      (decide (b.length ≤ a.length) || decide (a.length ≤ b.length)) = true := by
    simpa using Nat.le_total b.length a.length
  exact (List.pairwise_mergeSort htrans htotal _).imp of_decide_eq_true

/-- The first tag that fits is as long as any tag that fits. -/
theorem length_le_of_find? {fits : List Char → Bool} (h : (orderedTags tags).find? fits = some u)
    (htag : tag ∈ orderedTags tags) (hfits : fits tag = true) : tag.length ≤ u.length := by
  obtain ⟨-, before, behind, hsplit, hbefore⟩ := List.find?_eq_some_iff_append.mp h
  have hdescend := orderedTags_descend tags
  rw [hsplit] at htag hdescend
  rcases List.mem_append.mp htag with hmem | hmem
  · exact absurd hfits (by simpa using hbefore tag hmem)
  · rcases List.mem_cons.mp hmem with rfl | hmem
    · exact Nat.le_refl _
    · exact (List.pairwise_cons.mp (List.pairwise_append.mp hdescend).2.1).1 tag hmem

end Marginalia
