import Marginalia.Remark.Metadata
import Marginalia.Proofs.Text.Blank
import Marginalia.Proofs.Text.Parts

/-!
# Metadata that is read back

Each reader of metadata takes a part that is written for it off the front of a text, and leaves a
text alone that has none. What comes behind a part has to start with something that neither the
readers nor the separator take for themselves (`Avoids`).
-/

namespace Marginalia.Metadata

open Text (isBlank isWord isAsciiDigit isAsciiUpper trimEnd trimEnd_cons trimEnd_append splitFirst?
  splitFirst?_append not_isBlank_of_isWord)

variable {text content excluded : List Char}

-- ---------------------------------------------------------------------------
-- Parts in front of a text
-- ---------------------------------------------------------------------------

def spaced : List Char → List Char
  | [] => []
  | c :: rest => ' ' :: c :: rest

/-- A part, if there is one, with a blank behind it. -/
def written (part : Option (List Char)) (text : List Char) : List Char :=
  match part with
  | none => text
  | some part => part ++ ' ' :: text

/-- A part, if there is one, with a blank behind it unless it is the last one. -/
def joined (part : Option (List Char)) (text : List Char) : List Char :=
  match part with
  | none => text
  | some part => part ++ spaced text

theorem trimEnd_blank (text : List Char) : trimEnd (' ' :: text) = spaced (trimEnd text) := by
  have hblank : isBlank ' ' = true := by decide
  rw [trimEnd_cons]
  cases trimEnd text <;> simp [hblank, spaced]

theorem trimEnd_written {part : Option (List Char)} (h : ∀ p ∈ part, trimEnd p = p) :
    trimEnd (written part text) = joined part (trimEnd text) := by
  cases part with
  | none => rfl
  | some p =>
    have hp := h p rfl
    rw [written, joined, trimEnd_append, trimEnd_blank]
    cases trimEnd text <;> simp [spaced, hp]

/-- A text that does not start with a blank, nor with one of some characters. -/
def Avoids (excluded text : List Char) : Prop :=
  ∀ c ∈ text.head?, isBlank c = false ∧ c ∉ excluded

theorem Avoids.mono {excluded' : List Char} (h : Avoids excluded text)
    (hsub : ∀ c ∈ excluded', c ∈ excluded) : Avoids excluded' text :=
  fun c hc => ⟨(h c hc).1, fun hmem => (h c hc).2 (hsub c hmem)⟩

theorem avoids_joined {part : Option (List Char)} (h : Avoids excluded text)
    (hpart : ∀ p ∈ part, p ≠ [] ∧ Avoids excluded p) : Avoids excluded (joined part text) := by
  cases part with
  | none => exact h
  | some p =>
    obtain ⟨hne, hp⟩ := hpart p rfl
    cases p with
    | nil => exact absurd rfl hne
    | cons c rest => exact hp

theorem joined_ne_nil {part : Option (List Char)} (hpart : ∀ p ∈ part, p ≠ [])
    (h : part ≠ none ∨ text ≠ []) : joined part text ≠ [] := by
  cases part with
  | none => simpa [joined] using h
  | some p => simp [joined, hpart p rfl]

-- ---------------------------------------------------------------------------
-- Separators
-- ---------------------------------------------------------------------------

theorem isHorizontalBlank_of_not_isBlank (h : isBlank c = false) : isHorizontalBlank c = false := by
  cases hc : isHorizontalBlank c with
  | false => rfl
  | true =>
    simp only [isHorizontalBlank, Bool.or_eq_true, beq_iff_eq] at hc
    rcases hc with rfl | rfl <;> revert h <;> decide

theorem skipBlanks_eq_self (h : Avoids excluded text) : skipBlanks text = text := by
  cases text with
  | nil => rfl
  | cons c rest => simp [skipBlanks, isHorizontalBlank_of_not_isBlank (h c rfl).1]

theorem skipSeparator_spaced (h : Avoids excluded text) (hcolon : ':' ∈ excluded) :
    skipSeparator (spaced text) = text := by
  cases text with
  | nil => rfl
  | cons c rest =>
    have hskip : skipBlanks (spaced (c :: rest)) = c :: rest := by
      have hrest := skipBlanks_eq_self h
      simpa [skipBlanks, spaced, isHorizontalBlank] using hrest
    rw [skipSeparator, hskip]
    split
    · rename_i heq
      cases heq
      exact absurd hcolon (h _ rfl).2
    · rfl

-- ---------------------------------------------------------------------------
-- Owners
-- ---------------------------------------------------------------------------

theorem not_isBlank_of_isOwnerChar (h : isOwnerChar c = true) : isBlank c = false := by
  simp only [isOwnerChar, Bool.or_eq_true, beq_iff_eq] at h
  rcases h with hword | rfl
  · exact not_isBlank_of_isWord hword
  · decide

theorem isOwnerChar_head_spaced (text : List Char) (h : ∀ c ∈ content, isOwnerChar c = true) :
    (content ++ spaced text).takeWhile isOwnerChar = content ∧
      (content ++ spaced text).dropWhile isOwnerChar = spaced text := by
  have hblank : isOwnerChar ' ' = false := by decide +kernel
  rw [List.takeWhile_append_of_pos h, List.dropWhile_append_of_pos h]
  cases text <;> simp [spaced, hblank]

theorem takeOwner_joined {owner : Option (List Char)}
    (howner : ∀ o ∈ owner, o ≠ [] ∧ ∀ c ∈ o, isOwnerChar c = true) (h : Avoids excluded text)
    (hat : '@' ∈ excluded) (hcolon : ':' ∈ excluded) :
    takeOwner (joined (owner.map ('@' :: ·)) text) = (owner, text) := by
  cases owner with
  | none =>
    simp only [Option.map_none, joined]
    unfold takeOwner
    split
    · exact absurd hat (h _ rfl).2
    · rfl
  | some o =>
    obtain ⟨hne, hchars⟩ := howner o rfl
    obtain ⟨htake, hdrop⟩ := isOwnerChar_head_spaced text hchars
    -- That the owner is not empty is what chooses the second case of the reader.
    simp only [Option.map_some, joined, List.cons_append, takeOwner, htake, hdrop,
      skipSeparator_spaced h hcolon]

-- ---------------------------------------------------------------------------
-- Brackets
-- ---------------------------------------------------------------------------

theorem takeBracket_joined {bracket : Option (List Char)}
    (hbracket : ∀ b ∈ bracket, b ≠ [] ∧ ']' ∉ b) (h : Avoids excluded text)
    (hopener : '[' ∈ excluded) (hcolon : ':' ∈ excluded) :
    takeBracket (joined (bracket.map fun b => '[' :: b ++ [']']) text) = (bracket, text) := by
  cases bracket with
  | none =>
    simp only [Option.map_none, joined]
    unfold takeBracket
    split
    · exact absurd hopener (h _ rfl).2
    · rfl
  | some b =>
    obtain ⟨hne, hcloser⟩ := hbracket b rfl
    simp only [Option.map_some, joined, List.cons_append, List.append_assoc, List.nil_append,
      takeBracket, splitFirst?_append hcloser]
    cases b with
    | nil => exact absurd rfl hne
    | cons c rest => simp only [skipSeparator_spaced h hcolon]

-- ---------------------------------------------------------------------------
-- Tickets
-- ---------------------------------------------------------------------------

/-- Ticket ids: numbers, and numbers with letters in front. -/
inductive Ticket : List Char → Prop
  | number {digits : List Char} (hne : digits ≠ [])
      (hdigits : ∀ c ∈ digits, isAsciiDigit c = true) : Ticket ('#' :: digits)
  | coded {letters digits : List Char} (hne : letters ≠ [])
      (hletters : ∀ c ∈ letters, isAsciiUpper c = true) (hne' : digits ≠ [])
      (hdigits : ∀ c ∈ digits, isAsciiDigit c = true) : Ticket (letters ++ '-' :: digits)

theorem isTicket_of_ticket (h : Ticket content) : isTicket content = true := by
  cases h with
  | number hne hdigits => simpa [isTicket, hne] using hdigits
  | @coded letters digits hne hletters hne' hdigits =>
    have hhyphen : '-' ∉ letters := fun hmem => absurd (hletters _ hmem) (by decide)
    unfold isTicket
    split
    · rename_i heq
      cases letters with
      | nil => exact absurd rfl hne
      | cons c rest =>
        cases heq
        exact absurd (hletters '#' List.mem_cons_self) (by decide)
    · rw [splitFirst?_append hhyphen]
      simpa [hne, hne'] using ⟨hletters, hdigits⟩

theorem notMem_of_ticket (h : Ticket content) (hhash : c ≠ '#') (hhyphen : c ≠ '-')
    (hupper : isAsciiUpper c = false) (hdigit : isAsciiDigit c = false) : c ∉ content := by
  have hnot {part : List Char} {keep : Char → Bool} (hkeep : keep c = false)
      (hpart : ∀ d ∈ part, keep d = true) : c ∉ part :=
    fun hmem => Bool.false_ne_true (hkeep.symm.trans (hpart c hmem))
  cases h with
  | number hne hdigits =>
    exact List.not_mem_cons_of_ne_of_not_mem hhash (hnot hdigit hdigits)
  | coded hne hletters hne' hdigits =>
    refine List.not_mem_append (hnot hupper hletters) ?_
    exact List.not_mem_cons_of_ne_of_not_mem hhyphen (hnot hdigit hdigits)

theorem closer_notMem_of_ticket (h : Ticket content)
    (hcloser : ticketCloser? opener = some closer) :
    closer ∉ content := by
  have hclosers : closer = ')' ∨ closer = ']' := by
    unfold ticketCloser? at hcloser
    split at hcloser
    · exact .inl (Option.some.inj hcloser).symm
    · split at hcloser
      · exact .inr (Option.some.inj hcloser).symm
      · cases hcloser
  rcases hclosers with rfl | rfl <;>
    exact notMem_of_ticket h (by decide) (by decide) (by decide) (by decide)

theorem takeTicket_joined {ticket : Option (List Char)} (hticket : ∀ i ∈ ticket, Ticket i)
    (h : Avoids excluded text) (hopener : '(' ∈ excluded) (hopener' : '[' ∈ excluded)
    (hcolon : ':' ∈ excluded) :
    takeTicket (joined (ticket.map fun i => '(' :: i ++ [')']) text) = (ticket, text) := by
  cases ticket with
  | none =>
    simp only [Option.map_none, joined]
    cases text with
    | nil => rfl
    | cons c rest =>
      have hc := (h c rfl).2
      have hround : c ≠ '(' := fun heq => hc (heq ▸ hopener)
      have hsquare : c ≠ '[' := fun heq => hc (heq ▸ hopener')
      simp [takeTicket, ticketCloser?, hround, hsquare]
  | some i =>
    have hvalid := hticket i rfl
    have hcloser : ticketCloser? '(' = some ')' := rfl
    simp only [Option.map_some, joined, List.cons_append, List.append_assoc, List.nil_append]
    simp [takeTicket, ticketCloser?, splitFirst?_append (closer_notMem_of_ticket hvalid hcloser),
      isTicket_of_ticket hvalid, skipSeparator_spaced h hcolon]

end Marginalia.Metadata
