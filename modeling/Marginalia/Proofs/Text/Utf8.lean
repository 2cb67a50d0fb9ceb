import Marginalia.Text.Utf8
import Mathlib.Tactic.SplitIfs

/-!
# Texts read back from their bytes

The bytes of a character lead the reader from the start back to the start, and give the character.
The steps are followed one byte at a time, with the number that is read so far.
-/

namespace Marginalia.Text

/-- From a state between two bytes, these bytes give a character and lead back to the start. -/
def Reads (state : Option Pending) (bytes : Bytes) (c : Char) : Prop :=
  ∀ position rest, piecesFrom position state (bytes ++ rest) =
    .ok c :: piecesFrom (position + bytes.length) none rest

variable {pending pending' : Pending} {b : UInt8} {bytes : Bytes} {c : Char}
variable {n value low high owed : Nat}

-- ---------------------------------------------------------------------------
-- Bytes one by one
-- ---------------------------------------------------------------------------

theorem reads_first (h : firstByte b = .complete c) : Reads none [b] c := by
  intro position rest
  simp [piecesFrom, h]

theorem reads_more (h : firstByte b = .more pending) (hrest : Reads (some pending) bytes c) :
    Reads none (b :: bytes) c := by
  intro position rest
  rw [List.cons_append, piecesFrom]
  simp only [h]
  rw [hrest, List.length_cons, Nat.add_right_comm, Nat.add_assoc]

theorem reads_last (h : pending.nextByte b = .complete c) : Reads (some pending) [b] c := by
  intro position rest
  simp [piecesFrom, h]

theorem reads_next (h : pending.nextByte b = .more pending')
    (hrest : Reads (some pending') bytes c) : Reads (some pending) (b :: bytes) c := by
  intro position rest
  rw [List.cons_append, piecesFrom]
  simp only [h]
  rw [hrest, List.length_cons, Nat.add_right_comm, Nat.add_assoc]

theorem toNat_byte (h : n < 0x100) : (UInt8.ofNat n).toNat = n := by
  rw [UInt8.toNat_ofNat']
  omega

/-- Six more bits that end a character. -/
theorem nextByte_last (taken : Bytes) :
    (Pending.mk taken 1 0x80 0xBF (n / 0x40)).nextByte (UInt8.ofNat (n % 0x40 + 0x80)) =
      .complete (Char.ofNat n) := by
  have hbyte : (UInt8.ofNat (n % 0x40 + 0x80)).toNat = n % 0x40 + 0x80 := toNat_byte (by omega)
  have hnumber : n / 0x40 * 0x40 + (n % 0x40 + 0x80 - 0x80) = n := by omega
  rw [Pending.nextByte]
  simp only [hbyte, hnumber, Bool.or_eq_true, decide_eq_true_eq]
  rw [if_neg (by omega), if_pos (Nat.le_refl 1)]

/-- Six more bits of a character that goes on. -/
theorem nextByte_more (taken : Bytes) (hlow : low ≤ n % 0x40 + 0x80)
    (hhigh : n % 0x40 + 0x80 ≤ high) (howed : 1 < owed) (hvalue : value = n / 0x40) :
    ∃ taken', (Pending.mk taken owed low high value).nextByte (UInt8.ofNat (n % 0x40 + 0x80)) =
      .more ⟨taken', owed - 1, 0x80, 0xBF, n⟩ := by
  have hbyte : (UInt8.ofNat (n % 0x40 + 0x80)).toNat = n % 0x40 + 0x80 := toNat_byte (by omega)
  have hnumber : n / 0x40 * 0x40 + (n % 0x40 + 0x80 - 0x80) = n := by omega
  rw [Pending.nextByte]
  simp only [hbyte, hvalue, hnumber, Bool.or_eq_true, decide_eq_true_eq]
  rw [if_neg (by omega), if_neg (by omega)]
  exact ⟨_, rfl⟩

-- ---------------------------------------------------------------------------
-- Characters
-- ---------------------------------------------------------------------------

theorem firstByte_two (hlow : 2 ≤ n) (hhigh : n < 0x20) :
    ∃ taken, firstByte (UInt8.ofNat (n % 0x20 + 0xC0)) = .more ⟨taken, 1, 0x80, 0xBF, n⟩ := by
  have hbyte : (UInt8.ofNat (n % 0x20 + 0xC0)).toNat = n + 0xC0 := by
    rw [toNat_byte (by omega)]
    omega
  rw [firstByte]
  simp only [hbyte, Nat.add_sub_cancel]
  rw [if_neg (by omega), if_neg (by omega), if_pos (by omega)]
  exact ⟨_, rfl⟩

theorem firstByte_three (hhigh : n < 0x10) :
    ∃ taken, firstByte (UInt8.ofNat (n % 0x10 + 0xE0)) =
      .more ⟨taken, 2, if n = 0 then 0xA0 else 0x80, if n = 0xD then 0x9F else 0xBF, n⟩ := by
  have hbyte : (UInt8.ofNat (n % 0x10 + 0xE0)).toNat = n + 0xE0 := by
    rw [toNat_byte (by omega)]
    omega
  rw [firstByte]
  simp only [hbyte, Nat.add_sub_cancel, beq_iff_eq]
  rw [if_neg (by omega), if_neg (by omega), if_neg (by omega), if_pos (by omega)]
  simp

theorem firstByte_four (hhigh : n < 5) :
    ∃ taken, firstByte (UInt8.ofNat (n % 8 + 0xF0)) =
      .more ⟨taken, 3, if n = 0 then 0x90 else 0x80, if n = 4 then 0x8F else 0xBF, n⟩ := by
  have hbyte : (UInt8.ofNat (n % 8 + 0xF0)).toNat = n + 0xF0 := by
    rw [toNat_byte (by omega)]
    omega
  rw [firstByte]
  simp only [hbyte, Nat.add_sub_cancel, beq_iff_eq]
  rw [if_neg (by omega), if_neg (by omega), if_neg (by omega), if_neg (by omega),
    if_pos (by omega)]
  simp

theorem reads_utf8EncodeChar (c : Char) : Reads none (String.utf8EncodeChar c) c := by
  have hchar : Char.ofNat c.toNat = c := Char.ofNat_toNat c
  have hvalid : c.toNat < 0xD800 ∨ 0xDFFF < c.toNat ∧ c.toNat < 0x110000 := c.valid
  have hval : c.val.toNat = c.toNat := rfl
  rw [String.utf8EncodeChar]
  simp only [hval]
  generalize c.toNat = n at hchar hvalid ⊢
  subst hchar
  have hdigits : n / 0x1000 = n / 0x40 / 0x40 := by omega
  have hdigits' : n / 0x40000 = n / 0x1000 / 0x40 := by omega
  split_ifs with hone htwo hthree
  · refine reads_first ?_
    rw [firstByte, toNat_byte (by omega)]
    exact if_pos (by omega)
  · obtain ⟨taken, hfirst⟩ := firstByte_two (n := n / 0x40) (by omega) (by omega)
    exact reads_more hfirst (reads_last (nextByte_last taken))
  · have hlow : (if n / 0x1000 = 0 then 0xA0 else 0x80) ≤ n / 0x40 % 0x40 + 0x80 := by
      split <;> omega
    have hhigh : n / 0x40 % 0x40 + 0x80 ≤ if n / 0x1000 = 0xD then 0x9F else 0xBF := by
      split <;> omega
    obtain ⟨taken, hfirst⟩ := firstByte_three (n := n / 0x1000) (by omega)
    obtain ⟨taken', hsecond⟩ := nextByte_more taken hlow hhigh (Nat.lt_succ_self 1) hdigits
    exact reads_more hfirst (reads_next hsecond (reads_last (nextByte_last taken')))
  · have hlow : (if n / 0x40000 = 0 then 0x90 else 0x80) ≤ n / 0x1000 % 0x40 + 0x80 := by
      split <;> omega
    have hhigh : n / 0x1000 % 0x40 + 0x80 ≤ if n / 0x40000 = 4 then 0x8F else 0xBF := by
      split <;> omega
    have hlow' : 0x80 ≤ n / 0x40 % 0x40 + 0x80 := Nat.le_add_left _ _
    have hhigh' : n / 0x40 % 0x40 + 0x80 ≤ 0xBF := by omega
    obtain ⟨taken, hfirst⟩ := firstByte_four (n := n / 0x40000) (by omega)
    obtain ⟨taken', hsecond⟩ := nextByte_more taken hlow hhigh (by decide : 1 < 3) hdigits'
    obtain ⟨taken'', hthird⟩ := nextByte_more taken' hlow' hhigh' (Nat.lt_succ_self 1) hdigits
    exact reads_more hfirst
      (reads_next hsecond (reads_next hthird (reads_last (nextByte_last taken''))))

/-- A text is read back from its bytes. -/
theorem decodeBytes_encodeChars (cs : List Char) : decodeBytes (encodeChars cs) = .ok cs := by
  have hpieces (position : Nat) :
      piecesFrom position none (encodeChars cs) = cs.map Except.ok := by
    induction cs generalizing position with
    | nil => rfl
    | cons c rest ih =>
      have hread := reads_utf8EncodeChar c position (encodeChars rest)
      rw [encodeChars, List.flatMap_cons, ← encodeChars, hread, ih, List.map_cons]
  rw [decodeBytes, hpieces, List.mapM_map]
  exact List.mapM_pure.trans (congrArg Except.ok (List.map_id' cs))

end Marginalia.Text
