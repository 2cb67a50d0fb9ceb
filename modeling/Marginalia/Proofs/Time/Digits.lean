import Marginalia.Time.Iso
import Mathlib.Tactic.NormNum

/-!
# Numbers of a fixed width

A number that is padded to its width is written with the last digits of it, and these are read
back as the number.
-/

namespace Marginalia.Time

open Text (isAsciiDigit)

/-- The last decimal digits of a number, as many as given. -/
def lastDigits : (width : Nat) → (n : Nat) → List Char
  | 0, _ => []
  | width + 1, n => lastDigits width (n / 10) ++ [(n % 10).digitChar]

@[simp] theorem length_lastDigits (width n : Nat) : (lastDigits width n).length = width := by
  induction width generalizing n with
  | zero => rfl
  | succ width ih => simp [lastDigits, ih]

theorem lastDigits_zero (width : Nat) : lastDigits width 0 = List.replicate width '0' := by
  induction width with
  | zero => rfl
  | succ width ih => simp [lastDigits, ih, List.replicate_succ']

theorem digitChar_digit :
    ∀ k < 10, isAsciiDigit k.digitChar = true ∧ k.digitChar.toNat = 0x30 + k := by decide

theorem isAsciiDigit_of_mem_lastDigits (h : c ∈ lastDigits width n) : isAsciiDigit c = true := by
  induction width generalizing n with
  | zero => simp [lastDigits] at h
  | succ width ih =>
    simp only [lastDigits, List.mem_append, List.mem_singleton] at h
    rcases h with h | rfl
    · exact ih h
    · exact (digitChar_digit _ (Nat.mod_lt _ (by decide))).1

theorem replicate_toDigits (h : n < 10 ^ (width + 1)) :
    List.replicate (width + 1 - (Nat.toDigits 10 n).length) '0' ++ Nat.toDigits 10 n =
      lastDigits (width + 1) n := by
  induction width generalizing n with
  | zero =>
    have hn : n < 10 := by simpa using h
    simp [Nat.toDigits_of_lt_base hn, lastDigits, Nat.mod_eq_of_lt hn]
  | succ width ih =>
    rcases Nat.lt_or_ge n 10 with hn | hn
    · have hzero : n / 10 = 0 := Nat.div_eq_of_lt hn
      rw [Nat.toDigits_of_lt_base hn, lastDigits, hzero, lastDigits_zero, Nat.mod_eq_of_lt hn]
      simp
    · have hdiv : n / 10 < 10 ^ (width + 1) := by
        rw [Nat.pow_succ] at h
        omega
      have hlength (k : Nat) : width + 1 + 1 - (k + 1) = width + 1 - k := by omega
      rw [Nat.toDigits_of_base_le (by decide) hn, lastDigits, ← ih hdiv, List.length_append,
        List.length_singleton, hlength, List.append_assoc]

theorem toList_padded (width n : Nat) (h : n < 10 ^ (width + 1)) :
    (padded (width + 1) n).toList = lastDigits (width + 1) n := by
  rw [← replicate_toDigits h]
  simp only [padded, Nat.toString_eq_ofList_toDigits, String.toList_append, String.toList_ofList,
    String.length_ofList]

namespace Iso

@[simp] theorem peek_cons (c : Char) (rest : List Char) : peek (c :: rest) = c := rfl

theorem isAsciiDigit_peek (width n : Nat) (rest : List Char) :
    isAsciiDigit (peek (lastDigits (width + 1) n ++ rest)) = true := by
  cases h : lastDigits (width + 1) n with
  | nil => simp [lastDigits] at h
  | cons c digits => exact isAsciiDigit_of_mem_lastDigits (h ▸ List.mem_cons_self)

theorem digits?_add (a b value : Nat) (text : List Char) :
    digits? (a + b) value text =
      (digits? a value text).bind fun (value, rest) => digits? b value rest := by
  induction a generalizing value text with
  | zero => simp [digits?]
  | succ a ih =>
    have hsucc : a + 1 + b = a + b + 1 := by omega
    cases text with
    | nil => simp [hsucc, digits?]
    | cons c rest =>
      rw [hsucc]
      simp only [digits?]
      split
      · exact ih _ _
      · rfl

theorem digits?_lastDigits (h : n < 10 ^ width) (value : Nat) (rest : List Char) :
    digits? width value (lastDigits width n ++ rest) = some (value * 10 ^ width + n, rest) := by
  induction width generalizing n rest with
  | zero =>
    have hn : n = 0 := by simpa using h
    simp [digits?, lastDigits, hn]
  | succ width ih =>
    have hdiv : n / 10 < 10 ^ width := by
      rw [Nat.pow_succ] at h
      omega
    obtain ⟨hdigit, hvalue⟩ := digitChar_digit (n % 10) (Nat.mod_lt _ (by decide))
    have hnumber : (value * 10 ^ width + n / 10) * 10 + n % 10 = value * 10 ^ (width + 1) + n := by
      rw [Nat.pow_succ]
      have := Nat.div_add_mod n 10
      rw [Nat.add_mul, Nat.mul_assoc]
      omega
    rw [digits?_add, lastDigits, List.append_assoc, ih hdiv]
    simp [digits?, hdigit, hvalue, hnumber]

theorem pair?_lastDigits (h : n < 100) (rest : List Char) :
    pair? (lastDigits 2 n ++ rest) = some (n, rest) := by
  have hread := digits?_lastDigits (show n < 10 ^ 2 from h) 0 rest
  rwa [Nat.zero_mul, Nat.zero_add] at hread

end Iso

end Marginalia.Time
