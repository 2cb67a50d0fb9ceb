import Marginalia.Proofs.Text.Blank
import Marginalia.Text.Numeral
import Mathlib.Data.List.Basic
import Mathlib.Data.List.TakeWhile
import Mathlib.Tactic.NormNum

/-!
# Whole numbers read back

The digits of a number are read as this number, as long as there are not too many of them. A text
of digits that are not all decimal ones is no number.
-/

namespace Marginalia.Text

-- ---------------------------------------------------------------------------
-- Digits
-- ---------------------------------------------------------------------------

theorem isAsciiDigit_iff : isAsciiDigit c = true ↔ 0x30 ≤ c.toNat ∧ c.toNat ≤ 0x39 := by
  simp only [isAsciiDigit, Bool.and_eq_true, decide_eq_true_eq, Char.le_def,
    UInt32.le_iff_toNat_le]
  rfl

theorem decimalValue?_digit (h : isAsciiDigit c = true) :
    decimalValue? c = some (c.toNat - 0x30) := by
  have hrange := isAsciiDigit_iff.mp h
  have hascii : c.toNat < 0x80 := by omega
  rw [isAsciiDigit] at h
  simp [decimalValue?, hascii, h]

theorem isDecimal_digit (h : isAsciiDigit c = true) : isDecimal c = true := by
  simp [isDecimal, decimalValue?_digit h]

theorem isDigit_of_isDecimal (h : isDecimal c = true) : isDigit c = true := by simp [isDigit, h]

theorem isBlank_of_isDigit (h : isDigit c = true) : isBlank c = false := by
  have hapart : ∀ n ∈ blanks.points, isDigit (Char.ofNat n) = false := by decide +kernel
  cases hblank : isBlank c with
  | false => rfl
  | true =>
    have hnone := hapart c.toNat (mem_points_of_holds hblank)
    simp [h] at hnone

theorem isBlank_digit (h : isAsciiDigit c = true) : isBlank c = false :=
  isBlank_of_isDigit (isDigit_of_isDecimal (isDecimal_digit h))

theorem isAsciiDigit_toDigits (n : Nat) : ∀ c ∈ Nat.toDigits 10 n, isAsciiDigit c = true := by
  intro c hc
  have hdigit := Nat.isDigit_of_mem_toDigits (by decide) (Nat.le_refl 10) hc
  simpa [isAsciiDigit, Char.isDigit, Char.le_def] using hdigit

-- ---------------------------------------------------------------------------
-- Numbers
-- ---------------------------------------------------------------------------

variable {digits : List Char}

theorem dropWhile_isNumberBlank (h : ∀ c ∈ digits, isDigit c = true) :
    digits.dropWhile isNumberBlank = digits := by
  cases digits with
  | nil => rfl
  | cons c rest =>
    have hc := isBlank_of_isDigit (h c List.mem_cons_self)
    simp [isNumberBlank, hc]

theorem trimNumber_digits (h : ∀ c ∈ digits, isDigit c = true) : trimNumber digits = digits := by
  have hreverse : ∀ c ∈ digits.reverse, isDigit c = true := by simpa using h
  simp [trimNumber, dropWhile_isNumberBlank h, dropWhile_isNumberBlank hreverse]

theorem takeSign_digits (h : ∀ c ∈ digits, isDigit c = true) :
    takeSign digits = (false, digits) := by
  unfold takeSign
  split
  · exact absurd (h _ List.mem_cons_self) (by decide)
  · exact absurd (h _ List.mem_cons_self) (by decide)
  · rfl

theorem underscoresSeparate_digits (hne : digits ≠ []) (h : ∀ c ∈ digits, isDigit c = true) :
    underscoresSeparate before digits = true := by
  induction digits generalizing before with
  | nil => exact absurd rfl hne
  | cons c rest ih =>
    obtain ⟨hc, hrest⟩ := List.forall_mem_cons.mp h
    have hunderscore : c ≠ '_' := by
      rintro rfl
      exact absurd hc (by decide)
    cases rest with
    | nil => simp [underscoresSeparate, hunderscore]
    | cons d rest =>
      have hnext : underscoresSeparate true (d :: rest) = true :=
        ih (List.cons_ne_nil d rest) hrest
      rwa [underscoresSeparate, if_neg (by simpa using hunderscore)]

theorem length_decimalValues (h : ∀ c ∈ digits, isDecimal c = true) :
    (digits.filterMap decimalValue?).length = digits.length := by
  induction digits with
  | nil => rfl
  | cons c rest ih =>
    obtain ⟨hc, hrest⟩ := List.forall_mem_cons.mp h
    obtain ⟨value, hvalue⟩ := Option.isSome_iff_exists.mp hc
    simp [hvalue, ih hrest]

/-- A text of digits is a number if all of them are decimal and there are not too many. -/
theorem readInt_eq_ok (hne : digits ≠ []) (h : ∀ c ∈ digits, isDigit c = true) :
    readInt (String.ofList digits) = .ok n ↔ (∀ c ∈ digits, isDecimal c = true) ∧
      digits.length ≤ digitLimit ∧ n = ofDigits (digits.filterMap decimalValue?) := by
  have hrun : digits.takeWhile (fun c => isDecimal c || c == '_') = digits ↔
      ∀ c ∈ digits, isDecimal c = true := by
    rw [List.takeWhile_eq_self_iff]
    refine forall₂_congr fun c hc => ?_
    have hunderscore : c ≠ '_' := by
      rintro rfl
      exact absurd (h _ hc) (by decide)
    simp [hunderscore]
  simp only [readInt, String.toList_ofList, trimNumber_digits h, takeSign_digits h]
  by_cases hdecimal : ∀ c ∈ digits, isDecimal c = true
  · rw [hrun.mpr hdecimal, underscoresSeparate_digits hne h, length_decimalValues hdecimal]
    by_cases hlength : digits.length ≤ digitLimit
    · rw [if_neg (by simp), if_neg (Nat.not_lt_of_le hlength), if_neg (Nat.lt_irrefl _)]
      simp only [Except.ok.injEq, Bool.false_eq_true, if_false, hlength, true_and]
      exact ⟨fun hn => ⟨hdecimal, hn.symm⟩, fun hn => hn.2.symm⟩
    · simp [hlength, Nat.lt_of_not_le hlength]
  · have hsublist := List.takeWhile_sublist (l := digits) fun c => isDecimal c || c == '_'
    have hshort := Nat.lt_of_le_of_ne hsublist.length_le fun hsame =>
      hdecimal (hrun.mp (hsublist.eq_of_length hsame))
    simp only [hdecimal, false_and, iff_false, hshort, if_true]
    split
    · simp
    · split <;> simp

theorem ofDigits_digits (h : ∀ c ∈ digits, isAsciiDigit c = true) :
    ofDigits (digits.filterMap decimalValue?) = Nat.ofDigitChars 10 digits 0 := by
  have hvalues : digits.filterMap decimalValue? = digits.map fun c => c.toNat - 0x30 :=
    List.filterMap_eq_map_iff_forall_eq_some.mpr fun c hc => decimalValue?_digit (h c hc)
  simp only [hvalues, ofDigits, List.foldl_map, Nat.ofDigitChars_eq_foldl, Nat.mul_comm]
  rfl

theorem readInt_digits (hne : digits ≠ []) (h : ∀ c ∈ digits, isAsciiDigit c = true)
    (hlength : digits.length ≤ digitLimit) :
    readInt (String.ofList digits) = .ok (Nat.ofDigitChars 10 digits 0 : Nat) := by
  have hdecimal : ∀ c ∈ digits, isDecimal c = true := fun c hc => isDecimal_digit (h c hc)
  rw [readInt_eq_ok hne fun c hc => isDigit_of_isDecimal (hdecimal c hc), ofDigits_digits h]
  exact ⟨hdecimal, hlength, rfl⟩

/-- The digits of a number that can be written are read as the number. -/
theorem readInt_toDigits (h : n < 10 ^ digitLimit) :
    readInt (String.ofList (Nat.toDigits 10 n)) = .ok (n : Int) := by
  have hlength : (Nat.toDigits 10 n).length ≤ digitLimit :=
    (Nat.length_toDigits_le_iff (by decide) (by decide)).mpr h
  rw [readInt_digits Nat.toDigits_ne_nil (isAsciiDigit_toDigits n) hlength,
    Nat.ofDigitChars_ten_toDigits]

theorem natAbs_lt_pow {n : Int} {k : Nat} (hleast : 0 ≤ n) (hlimit : n < 10 ^ k) :
    n.natAbs < Nat.pow 10 k := by
  have habs := Int.natAbs_lt_natAbs_of_nonneg_of_lt hleast hlimit
  rwa [Int.natAbs_pow] at habs

theorem isWritable_of_lt {n : Int} (hleast : 0 ≤ n) (hlimit : n < 10 ^ digitLimit) :
    isWritable n = true := by
  rw [isWritable]
  exact decide_eq_true (natAbs_lt_pow hleast hlimit)

theorem lt_pow_of_digit {n k : Nat} (h : n < 10) (hk : k ≠ 0) : n < Nat.pow 10 k :=
  Nat.lt_of_lt_of_le h (Nat.le_self_pow hk 10)

/-- A number of one digit can be written. -/
theorem isWritable_of_digit {n : Int} (h : n.natAbs < 10) : isWritable n = true := by
  rw [isWritable]
  exact decide_eq_true (lt_pow_of_digit h (by decide))

end Marginalia.Text
