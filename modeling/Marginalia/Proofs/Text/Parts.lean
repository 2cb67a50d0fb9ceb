import Marginalia.Text.Lines

/-!
# Texts put together

What is put together around separators that the parts do not hold is cut apart again. Parts that are
cut out hold no separator, and a text with unified newlines has no other line ends.
-/

namespace Marginalia.Text

theorem splitOn_ne_nil (separator : Char) (text : List Char) : splitOn separator text ≠ [] := by
  cases text with
  | nil => exact List.cons_ne_nil _ _
  | cons c rest =>
    rw [splitOn]
    split
    · exact List.cons_ne_nil _ _
    · split <;> exact List.cons_ne_nil _ _

theorem splitOn_append_separator (separator : Char) (front rest : List Char) :
    splitOn separator (front ++ separator :: rest) =
      splitOn separator front ++ splitOn separator rest := by
  induction front with
  | nil => simp [splitOn]
  | cons c front ih =>
    rw [List.cons_append, splitOn, splitOn, ih]
    split
    · rfl
    · cases h : splitOn separator front with
      | nil => exact absurd h (splitOn_ne_nil separator front)
      | cons part parts => rfl

theorem splitOn_of_notMem (h : separator ∉ part) : splitOn separator part = [part] := by
  induction part with
  | nil => rfl
  | cons c part ih =>
    obtain ⟨hc, hpart⟩ := not_or.mp (mt List.mem_cons.mpr h)
    simp [splitOn, Ne.symm hc, ih hpart]

theorem splitOn_append (h : separator ∉ part) (rest : List Char) :
    splitOn separator (part ++ separator :: rest) = part :: splitOn separator rest := by
  rw [splitOn_append_separator, splitOn_of_notMem h, List.singleton_append]

theorem splitOn_intercalate {parts : List (List Char)} (h : ∀ part ∈ parts, separator ∉ part)
    (hparts : parts ≠ []) : splitOn separator ([separator].intercalate parts) = parts := by
  induction parts with
  | nil => exact absurd rfl hparts
  | cons part rest ih =>
    obtain ⟨hpart, hrest⟩ := List.forall_mem_cons.mp h
    cases rest with
    | nil => simpa using splitOn_of_notMem hpart
    | cons next rest =>
      have hnext := ih hrest (List.cons_ne_nil _ _)
      rw [List.intercalate_cons_cons, List.append_assoc, List.singleton_append,
        splitOn_append hpart, hnext]

theorem intercalate_splitOn (separator : Char) (text : List Char) :
    [separator].intercalate (splitOn separator text) = text := by
  induction text with
  | nil => rfl
  | cons c rest ih =>
    rw [splitOn]
    cases h : splitOn separator rest with
    | nil => exact absurd h (splitOn_ne_nil separator rest)
    | cons part parts =>
      rw [h] at ih
      split
      · rename_i hc
        rw [List.intercalate_cons_cons, ih, eq_of_beq hc]
        rfl
      · cases parts with
        | nil => simpa using ih
        | cons next parts =>
          rw [List.intercalate_cons_cons] at ih ⊢
          simpa using ih

theorem mem_intercalate {separator : List α} {l : List (List α)}
    (h : a ∈ separator.intercalate l) : a ∈ separator ∨ ∃ part ∈ l, a ∈ part := by
  induction l with
  | nil => simp at h
  | cons part rest ih =>
    cases rest with
    | nil => exact .inr ⟨part, List.mem_cons_self, by simpa using h⟩
    | cons next rest =>
      rw [List.intercalate_cons_cons, List.append_assoc, List.mem_append, List.mem_append] at h
      rcases h with h | h | h
      · exact .inr ⟨part, List.mem_cons_self, h⟩
      · exact .inl h
      · exact (ih h).imp id fun ⟨part, hpart, hmem⟩ => ⟨part, List.mem_cons_of_mem _ hpart, hmem⟩

theorem subset_intercalate (separator : List α) {part : List α} {l : List (List α)} (h : part ∈ l) :
    part ⊆ separator.intercalate l := by
  induction l with
  | nil => cases h
  | cons first rest ih =>
    cases rest with
    | nil =>
      obtain rfl := List.mem_singleton.mp h
      simp
    | cons next rest =>
      rw [List.intercalate_cons_cons, List.append_assoc]
      rcases List.mem_cons.mp h with rfl | h
      · exact List.subset_append_left _ _
      · exact List.Subset.trans (List.Subset.trans (ih h) (List.subset_append_right _ _))
          (List.subset_append_right _ _)

/-- A text of ended lines has these lines, and an empty one behind the last end. -/
theorem lines_ended {ended : List (List Char)} (h : ∀ line ∈ ended, '\n' ∉ line) :
    lines (ended.flatMap fun line => line ++ ['\n']) = ended ++ [[]] := by
  induction ended with
  | nil => rfl
  | cons line rest ih =>
    obtain ⟨hline, hrest⟩ := List.forall_mem_cons.mp h
    have hsplit := splitOn_append hline (rest.flatMap fun line => line ++ ['\n'])
    rw [lines] at ih ⊢
    rw [List.flatMap_cons, List.append_assoc, List.singleton_append, hsplit, ih hrest]
    rfl

theorem separator_notMem_splitOn (h : part ∈ splitOn separator text) : separator ∉ part := by
  induction text generalizing part with
  | nil =>
    rw [splitOn, List.mem_singleton] at h
    simp [h]
  | cons c rest ih =>
    rw [splitOn] at h
    split at h
    · rcases List.mem_cons.mp h with rfl | h
      · exact List.not_mem_nil
      · exact ih h
    · rename_i hc
      have hapart : separator ≠ c := fun heq => hc (heq ▸ beq_self_eq_true c)
      split at h
      · rw [List.mem_singleton.mp h]
        simpa using hapart
      · rename_i first parts hsplit
        rcases List.mem_cons.mp h with rfl | h
        · exact List.not_mem_cons_of_ne_of_not_mem hapart (ih (hsplit ▸ List.mem_cons_self))
        · exact ih (hsplit ▸ List.mem_cons_of_mem _ h)

theorem subset_of_mem_splitOn (h : part ∈ splitOn separator text) : part ⊆ text := by
  induction text generalizing part with
  | nil =>
    rw [splitOn, List.mem_singleton] at h
    simp [h]
  | cons c rest ih =>
    rw [splitOn] at h
    split at h
    · rcases List.mem_cons.mp h with rfl | h
      · exact List.nil_subset _
      · exact List.subset_cons_of_subset c (ih h)
    · split at h
      · rw [List.mem_singleton.mp h]
        exact List.cons_subset_cons c (List.nil_subset rest)
      · rename_i first parts hsplit
        rcases List.mem_cons.mp h with rfl | h
        · exact List.cons_subset_cons c (ih (hsplit ▸ List.mem_cons_self))
        · exact List.subset_cons_of_subset c (ih (hsplit ▸ List.mem_cons_of_mem _ h))

theorem return_notMem_unifyNewlines (cs : List Char) : '\r' ∉ unifyNewlines cs := by
  induction cs using unifyNewlines.induct with
  | case1 => exact List.not_mem_nil
  | case2 rest ih =>
    rw [unifyNewlines]
    exact List.not_mem_cons_of_ne_of_not_mem (by decide) ih
  | case3 c rest hc ih =>
    rw [unifyNewlines]
    · refine List.not_mem_cons_of_ne_of_not_mem ?_ ih
      by_cases hreturn : c = '\r'
      · simp [hreturn]
      · simpa [hreturn] using Ne.symm hreturn
    · exact hc

theorem unifyNewlines_eq_self (h : '\r' ∉ cs) : unifyNewlines cs = cs := by
  induction cs using unifyNewlines.induct with
  | case1 => rfl
  | case2 rest ih => exact absurd List.mem_cons_self h
  | case3 c rest hc ih =>
    obtain ⟨hreturn, hrest⟩ := not_or.mp (mt List.mem_cons.mpr h)
    rw [unifyNewlines, ih hrest]
    · simp [Ne.symm hreturn]
    · exact hc

theorem brokenLines_cons {c : Char} (hc : isLineBreak c = false) (rest : List Char) :
    brokenLines (c :: rest) = match brokenLines rest with
      | [] => [[c]]
      | line :: more => (c :: line) :: more := by
  rw [brokenLines.eq_def]
  split
  · rename_i h
    cases h
  · rename_i h
    cases h
    cases hc
  · rename_i h
    cases h
    exact if_neg (by simp [hc])

theorem brokenLines_append {line : List Char} (hline : ∀ c ∈ line, isLineBreak c = false)
    (rest : List Char) : brokenLines (line ++ '\n' :: rest) = line :: brokenLines rest := by
  induction line with
  | nil => rfl
  | cons c line ih =>
    obtain ⟨hc, hline⟩ := List.forall_mem_cons.mp hline
    rw [List.cons_append, brokenLines_cons hc, ih hline]

/-- Lines that are ended by line feeds are told apart. -/
theorem brokenLines_ended {lines : List (List Char)}
    (h : ∀ line ∈ lines, ∀ c ∈ line, isLineBreak c = false) :
    brokenLines (lines.flatMap (· ++ ['\n'])) = lines := by
  induction lines with
  | nil => rfl
  | cons line rest ih =>
    obtain ⟨hline, hrest⟩ := List.forall_mem_cons.mp h
    rw [List.flatMap_cons, List.append_assoc, List.singleton_append, brokenLines_append hline,
      ih hrest]

theorem unifyNewlines_ended {lines : List (List Char)}
    (h : ∀ line ∈ lines, ∀ c ∈ line, isLineBreak c = false) :
    unifyNewlines (lines.flatMap (· ++ ['\n'])) = lines.flatMap (· ++ ['\n']) := by
  refine unifyNewlines_eq_self fun hmem => ?_
  obtain ⟨line, hline, hmem⟩ := List.mem_flatMap.mp hmem
  rcases List.mem_append.mp hmem with hmem | hmem
  · cases h line hline _ hmem
  · simp at hmem

theorem dropPart?_eq_some {part text after : List Char} :
    dropPart? part text = some after ↔ text = part ++ after := by
  induction part generalizing text with
  | nil => simp [dropPart?, eq_comm]
  | cons p part ih =>
    cases text with
    | nil => simp [dropPart?]
    | cons c text =>
      by_cases h : p = c
      · simp [dropPart?, h, ih]
      · simp [dropPart?, h, Ne.symm h]

theorem splitFirst?_eq_some (h : splitFirst? separator text = some (before, after)) :
    text = before ++ separator :: after := by
  induction text generalizing before with
  | nil => cases h
  | cons c rest ih =>
    rw [splitFirst?] at h
    split at h
    · rename_i hc
      cases h
      rw [List.nil_append, eq_of_beq hc]
    · obtain ⟨⟨front, behind⟩, hfront, hpair⟩ := Option.map_eq_some_iff.mp h
      cases hpair
      rw [List.cons_append, ← ih hfront]

theorem splitFirst?_append {before after : List Char} {separator : Char} (h : separator ∉ before) :
    splitFirst? separator (before ++ separator :: after) = some (before, after) := by
  induction before with
  | nil => simp [splitFirst?]
  | cons c before ih =>
    obtain ⟨hc, hbefore⟩ := not_or.mp (mt List.mem_cons.mpr h)
    simp [splitFirst?, Ne.symm hc, ih hbefore]

theorem splitFirst?_eq_none {separator : Char} (h : separator ∉ cs) :
    splitFirst? separator cs = none := by
  induction cs with
  | nil => rfl
  | cons c rest ih =>
    obtain ⟨hc, hrest⟩ := not_or.mp (mt List.mem_cons.mpr h)
    simp [splitFirst?, Ne.symm hc, ih hrest]

theorem splitLast?_eq_some (h : splitLast? separator text = some (before, behind)) :
    text = before ++ separator :: behind := by
  induction text generalizing before with
  | nil => cases h
  | cons c rest ih =>
    rw [splitLast?] at h
    split at h
    · rename_i front _ hfront
      cases h
      rw [List.cons_append, ← ih hfront]
    · split at h
      · rename_i hc
        cases h
        rw [List.nil_append, eq_of_beq hc]
      · cases h

theorem splitLast?_eq_none (h : separator ∉ text) : splitLast? separator text = none := by
  induction text with
  | nil => rfl
  | cons c text ih =>
    obtain ⟨hc, htext⟩ := not_or.mp (mt List.mem_cons.mpr h)
    simp [splitLast?, Ne.symm hc, ih htext]

theorem splitLast?_append (before : List Char) (h : separator ∉ behind) :
    splitLast? separator (before ++ separator :: behind) = some (before, behind) := by
  induction before with
  | nil => simp [splitLast?, splitLast?_eq_none h]
  | cons c before ih => simp [splitLast?, ih]

end Marginalia.Text
