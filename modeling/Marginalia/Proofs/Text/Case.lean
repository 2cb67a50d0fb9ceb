import Marginalia.Proofs.Text.Blank
import Marginalia.Text.Case
import Mathlib.Data.List.Basic
import Mathlib.Data.Nat.Bitwise

/-!
# Capital forms

No character vanishes when it is turned into capitals. A text that keeps its length then keeps its
characters apart: every one of them turns into a single capital. Capitals stay what they are, and
blanks neither come nor go.
-/

namespace Marginalia.Text

theorem upperChar_ne_nil (c : Char) : upperChar c ≠ [] := by
  have htable : ∀ entry ∈ upperExpansions, entry.2 ≠ [] := by decide +kernel
  unfold upperChar
  split
  · exact List.cons_ne_nil _ _
  · split
    · rename_i codes hcodes
      obtain ⟨before, behind, hsplit, -⟩ := List.lookup_eq_some_iff.mp hcodes
      have hmem : (c.toNat, codes) ∈ upperExpansions :=
        hsplit ▸ List.mem_append_right _ List.mem_cons_self
      simpa using htable _ hmem
    · exact List.cons_ne_nil _ _

@[simp] theorem upperChars_cons (c : Char) (cs : List Char) :
    upperChars (c :: cs) = upperChar c ++ upperChars cs := List.flatMap_cons

theorem length_le_upperChars (cs : List Char) : cs.length ≤ (upperChars cs).length := by
  induction cs with
  | nil => exact Nat.le_refl 0
  | cons c rest ih =>
    have hpos := List.length_pos_iff.mpr (upperChar_ne_nil c)
    simp only [upperChars_cons, List.length_append, List.length_cons]
    omega

/-- In a text that keeps its length, the first character turns into the first capital. -/
theorem upperChar_head (h : (upperChars (c :: cs)).length = (c :: cs).length) :
    ∃ u, upperChar c = [u] ∧ (upperChars (c :: cs)).head? = some u := by
  have hrest := length_le_upperChars cs
  have hpos := List.length_pos_iff.mpr (upperChar_ne_nil c)
  simp only [upperChars_cons, List.length_append, List.length_cons] at h
  obtain ⟨u, hu⟩ := List.length_eq_one_iff.mp (by omega : (upperChar c).length = 1)
  exact ⟨u, hu, by simp [hu]⟩

theorem mem_upperChars (hc : c ∈ cs) (h : upperChar c = [c]) : c ∈ upperChars cs :=
  List.mem_flatMap.mpr ⟨c, hc, h ▸ List.mem_singleton_self c⟩

-- ---------------------------------------------------------------------------
-- Code points of the tables
-- ---------------------------------------------------------------------------

/-- Some numbers as the bits of one number. -/
def bitsOf (numbers : List Nat) : Nat :=
  numbers.foldr (fun n bits => bits ||| 1 <<< n) 0

theorem testBit_bitsOf {numbers : List Nat} :
    (bitsOf numbers).testBit n = true ↔ n ∈ numbers := by
  induction numbers with
  | nil => simp [bitsOf]
  | cons m rest ih =>
    rw [bitsOf, List.foldr_cons, ← bitsOf, Nat.testBit_or, Bool.or_eq_true, ih, List.mem_cons,
      Nat.one_shiftLeft, Nat.testBit_two_pow, decide_eq_true_eq, or_comm, eq_comm]

def CaseRun.points (run : CaseRun) : List Nat :=
  List.range' run.first ((run.last - run.first) / run.step + 1) run.step

/-- The code points that turn into others. -/
def smallPoints : List Nat :=
  upperExpansions.map Prod.fst ++ upperRuns.flatMap CaseRun.points

/-- The code points that others turn into. -/
def capitalPoints : List Nat :=
  upperExpansions.flatMap Prod.snd ++
    upperRuns.flatMap fun run => run.points.map fun n : Nat => (n + run.shift).toNat

theorem mem_points {run : CaseRun} (hfirst : run.first ≤ n) (hlast : n ≤ run.last)
    (hstep : (n - run.first) % run.step = 0) : n ∈ run.points := by
  have hdvd := Nat.dvd_of_mod_eq_zero hstep
  refine List.mem_range'.mpr ⟨(n - run.first) / run.step, ?_, ?_⟩
  · exact Nat.lt_succ_of_le (Nat.div_le_div_right (Nat.sub_le_sub_right hlast _))
  · rw [Nat.mul_div_cancel' hdvd, Nat.add_sub_cancel' hfirst]

theorem apply_cases (runs : List CaseRun) (n : Nat) : CaseRun.apply runs n = n ∨
    ∃ run ∈ runs, n ∈ run.points ∧ CaseRun.apply runs n = (n + run.shift).toNat := by
  induction runs with
  | nil => exact .inl rfl
  | cons run rest ih =>
    rw [CaseRun.apply]
    split
    · exact .inl rfl
    · rename_i hfirst
      split
      · rename_i hrun
        simp only [Bool.and_eq_true, decide_eq_true_eq, beq_iff_eq] at hrun
        exact .inr ⟨run, List.mem_cons_self, mem_points (by omega) hrun.1 hrun.2, rfl⟩
      · obtain hsame | ⟨run, hrun, h⟩ := ih
        · exact .inl hsame
        · exact .inr ⟨run, List.mem_cons_of_mem _ hrun, h⟩

theorem mem_ascii_letters (hfirst : 'a' ≤ c) (hlast : c ≤ 'z') :
    c.toNat ∈ smallPoints ∧ c.toNat - 0x20 ∈ capitalPoints := by
  have hletters : ∀ n ∈ List.range' 0x61 26, n ∈ smallPoints ∧ n - 0x20 ∈ capitalPoints := by
    decide +kernel
  have hfirst : 0x61 ≤ c.toNat := hfirst
  have hlast : c.toNat ≤ 0x7A := hlast
  exact hletters _ (List.mem_range'_1.mpr (by omega))

theorem upperChar_cases (c : Char) : upperChar c = [c] ∨
    c.toNat ∈ smallPoints ∧ ∀ u ∈ upperChar c, ∃ n ∈ capitalPoints, u = Char.ofNat n := by
  unfold upperChar
  split
  · split
    · rename_i hletter
      simp only [Bool.and_eq_true, decide_eq_true_eq] at hletter
      obtain ⟨hsmall, hcapital⟩ := mem_ascii_letters hletter.1 hletter.2
      exact .inr ⟨hsmall, List.forall_mem_singleton.mpr ⟨_, hcapital, rfl⟩⟩
    · exact .inl rfl
  · split
    · rename_i codes hcodes
      obtain ⟨before, behind, hsplit, -⟩ := List.lookup_eq_some_iff.mp hcodes
      have hmem : (c.toNat, codes) ∈ upperExpansions :=
        hsplit ▸ List.mem_append_right _ List.mem_cons_self
      refine .inr ⟨List.mem_append_left _ (List.mem_map_of_mem hmem), fun u hu => ?_⟩
      obtain ⟨n, hn, rfl⟩ := List.mem_map.mp hu
      exact ⟨n, List.mem_append_left _ (List.mem_flatMap.mpr ⟨_, hmem, hn⟩), rfl⟩
    · obtain hsame | ⟨run, hrun, hpoint, happly⟩ := apply_cases upperRuns c.toNat
      · rw [hsame, Char.ofNat_toNat]
        exact .inl rfl
      · refine .inr ⟨List.mem_append_right _ (List.mem_flatMap.mpr ⟨run, hrun, hpoint⟩), ?_⟩
        refine List.forall_mem_singleton.mpr ⟨_, List.mem_append_right _ ?_, rfl⟩
        rw [happly]
        exact List.mem_flatMap.mpr ⟨run, hrun, List.mem_map_of_mem hpoint⟩

theorem capitalPoints_apart (h : n ∈ capitalPoints) :
    n ∉ smallPoints ∧ n ∉ blanks.points ∧ (Char.ofNat n).toNat = n := by
  have hapart : ∀ n ∈ capitalPoints,
      (bitsOf (smallPoints ++ blanks.points)).testBit n = false := by decide +kernel
  have hchars : ∀ n ∈ capitalPoints, (Char.ofNat n).toNat = n := by decide +kernel
  have hnone : n ∉ smallPoints ++ blanks.points := by
    rw [← testBit_bitsOf, hapart n h]
    exact Bool.false_ne_true
  obtain ⟨hsmall, hblank⟩ := not_or.mp (mt List.mem_append.mpr hnone)
  exact ⟨hsmall, hblank, hchars n h⟩

-- ---------------------------------------------------------------------------
-- Capitals of capitals
-- ---------------------------------------------------------------------------

/-- A capital form has no other one. -/
theorem upperChar_of_mem (h : u ∈ upperChar c) : upperChar u = [u] := by
  rcases upperChar_cases c with hsame | ⟨-, hcapitals⟩
  · rw [hsame, List.mem_singleton] at h
    rwa [h]
  · obtain ⟨n, hn, rfl⟩ := hcapitals u h
    obtain ⟨hsmall, -, hchar⟩ := capitalPoints_apart hn
    exact (upperChar_cases _).resolve_right fun h => hsmall (hchar ▸ h.1)

@[simp] theorem upperChars_upperChars (cs : List Char) :
    upperChars (upperChars cs) = upperChars cs := by
  have hsame : ∀ u ∈ upperChars cs, upperChar u = [u] := by
    intro u hu
    obtain ⟨c, -, hc⟩ := List.mem_flatMap.mp hu
    exact upperChar_of_mem hc
  generalize upperChars cs = us at hsame
  induction us with
  | nil => rfl
  | cons u rest ih =>
    obtain ⟨hu, hrest⟩ := List.forall_mem_cons.mp hsame
    rw [upperChars_cons, hu, ih hrest, List.singleton_append]

-- ---------------------------------------------------------------------------
-- Blanks
-- ---------------------------------------------------------------------------

theorem eq_of_mem_upperChar (h : u ∈ upperChar c) (hblank : isBlank u = true) : u = c := by
  rcases upperChar_cases c with hsame | ⟨-, hcapitals⟩
  · rwa [hsame, List.mem_singleton] at h
  · obtain ⟨n, hn, rfl⟩ := hcapitals u h
    obtain ⟨-, hapart, hchar⟩ := capitalPoints_apart hn
    exact absurd (mem_points_of_holds hblank) (hchar.symm ▸ hapart)

theorem mem_of_mem_upperChars (h : u ∈ upperChars cs) (hblank : isBlank u = true) : u ∈ cs := by
  obtain ⟨c, hc, hu⟩ := List.mem_flatMap.mp h
  rwa [eq_of_mem_upperChar hu hblank]

theorem not_isBlank_upperChar (h : isBlank c = false) : ∀ u ∈ upperChar c, isBlank u = false := by
  intro u hu
  cases hblank : isBlank u with
  | false => rfl
  | true => rw [← h, ← eq_of_mem_upperChar hu hblank, hblank]

theorem trimEnd_upperChars (h : trimEnd cs = cs) : trimEnd (upperChars cs) = upperChars cs := by
  induction cs with
  | nil => rfl
  | cons c rest ih =>
    have hrest := ih (trimEnd_of_cons h)
    rw [upperChars_cons, trimEnd_append, hrest]
    by_cases hnil : rest = []
    · subst hnil
      have hc : isBlank c = false := by
        by_contra hblank
        simp [trimEnd, hblank] at h
      have hnone : upperChars [] = [] := rfl
      rw [if_pos hnone, trimEnd_eq_self (not_isBlank_upperChar hc), hnone, List.append_nil]
    · have hne : upperChars rest ≠ [] := by
        intro hnone
        have hlength := length_le_upperChars rest
        rw [hnone] at hlength
        exact hnil (List.length_eq_zero_iff.mp (Nat.le_zero.mp hlength))
      rw [if_neg hne]

theorem trim_upperChars (h : trim cs = cs) : trim (upperChars cs) = upperChars cs := by
  refine trim_eq_self ?_ (trimEnd_upperChars (trimEnd_of_trim_eq h))
  cases cs with
  | nil => simp [upperChars]
  | cons c rest =>
    intro u hu
    rw [upperChars_cons, List.head?_append_of_ne_nil _ (upperChar_ne_nil c)] at hu
    exact not_isBlank_upperChar (head_of_trim_eq h c rfl) u (List.mem_of_mem_head? hu)

theorem upperChar_blank (h : isBlank c = true) : upperChar c = [c] := by
  have hapart : ∀ n ∈ blanks.points, (bitsOf smallPoints).testBit n = false := by decide +kernel
  apply (upperChar_cases c).resolve_right
  rintro ⟨hsmall, -⟩
  have hblank := hapart c.toNat (mem_points_of_holds h)
  rw [testBit_bitsOf.mpr hsmall] at hblank
  cases hblank

theorem upperChars_blank (h : ∀ c ∈ cs, isBlank c = true) : upperChars cs = cs := by
  induction cs with
  | nil => rfl
  | cons c rest ih =>
    obtain ⟨hc, hrest⟩ := List.forall_mem_cons.mp h
    simp [upperChar_blank hc, ih hrest]

/-- It makes no difference whether a text is trimmed before it is turned into capitals. -/
theorem trim_upperChars_eq (cs : List Char) : trim (upperChars cs) = upperChars (trim cs) := by
  obtain ⟨front, back, hfront, hback, hsplit⟩ := exists_trim cs
  have hcapitals : upperChars cs = front ++ (upperChars (trim cs) ++ back) := by
    conv_lhs => rw [hsplit]
    simp only [upperChars_append, upperChars_blank hfront, upperChars_blank hback]
  rw [hcapitals, trim_append_append hfront hback, trim_upperChars (trim_trim cs)]

end Marginalia.Text
