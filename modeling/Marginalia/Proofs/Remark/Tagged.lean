import Marginalia.Remark.Tagged
import Marginalia.Proofs.Remark.Tags
import Marginalia.Proofs.Text.Case

/-!
# Where a tag is found

A tag that is written with its marker and a colon is found there when nothing in front of it can
start a tag. The tags are assumed to have no mark in them: one that goes on over the mark behind a
shorter one could be meant instead.
-/

namespace Marginalia

open Text (isWord trim upperChar upperChars mem_upperChars upperChar_head)

/-- How a priority is marked behind a tag. -/
def Priority.marker : Priority → List Char
  | .critical => ['!', '!']
  | .high => ['!']
  | .normal => []
  | .low => ['?']

namespace Tagged

/-- The characters that can come right behind a tag. -/
def marks : List Char := [':', '!', '?']

variable {tags : List String} {ordered : List (List Char)} {table : List Marker}
variable {lead spelling text tag message : List Char} {priority : Priority}

-- ---------------------------------------------------------------------------
-- In front of the tag
-- ---------------------------------------------------------------------------

theorem mayStart_eq_false (h : ∀ tag ∈ ordered, ∀ u ∈ tag.head?, upperChar c ≠ [u]) :
    mayStart ordered c = false := by
  unfold mayStart
  split
  · rename_i u hu
    refine List.any_eq_false.mpr fun tag htag => ?_
    simpa using fun hhead : tag.head? = some u => h tag htag u hhead hu
  · rfl

theorem mayStart_eq_true (htag : tag ∈ ordered) (hhead : tag.head? = some u)
    (hupper : upperChar c = [u]) : mayStart ordered c = true := by
  simp only [mayStart, hupper]
  exact List.any_eq_true.mpr ⟨tag, htag, by simp [hhead]⟩

theorem scan?_quiet (hquiet : ∀ c ∈ lead, mayStart ordered c = false) :
    scan? ordered table previous (lead ++ text) =
      scan? ordered table (lead.getLast?.or previous) text := by
  induction lead generalizing previous with
  | nil => rfl
  | cons c rest ih =>
    obtain ⟨hc, hrest⟩ := List.forall_mem_cons.mp hquiet
    rw [List.cons_append, scan?]
    simp only [hc, Bool.false_and, Bool.false_eq_true, if_false]
    rw [ih hrest, List.getLast?_cons]
    cases rest.getLast? <;> rfl

theorem scan?_here (hstart : mayStart ordered c = true) (hopens : opensTag previous = true)
    (h : here? ordered table (c :: text) = some found) :
    scan? ordered table previous (c :: text) = some found := by
  simp [scan?, hstart, hopens, h]

-- ---------------------------------------------------------------------------
-- The tag and what is behind it
-- ---------------------------------------------------------------------------

theorem upperChar_mark (h : x ∈ marks) : upperChar x = [x] := by
  simp only [marks, List.mem_cons, List.not_mem_nil, or_false] at h
  rcases h with rfl | rfl | rfl <;> rfl

theorem startsWithTag_spelling (hlength : spelling.length = tag.length)
    (hupper : upperChars spelling = tag) (text : List Char) :
    startsWithTag (spelling ++ text) tag = true := by
  simp [startsWithTag, ← hlength, hupper]

/-- Among the tags that fit, the one that is spelled out up to a mark is the longest. -/
theorem find?_spelling (text : List Char) (hplain : ∀ u ∈ orderedTags tags, ∀ x ∈ marks, x ∉ u)
    (htag : tag ∈ orderedTags tags) (hlength : spelling.length = tag.length)
    (hupper : upperChars spelling = tag) (hmark : x ∈ marks) :
    (orderedTags tags).find? (startsWithTag (spelling ++ x :: text)) = some tag := by
  have hfits := startsWithTag_spelling hlength hupper (x :: text)
  cases h : (orderedTags tags).find? (startsWithTag (spelling ++ x :: text)) with
  | none => exact absurd hfits (by simpa using List.find?_eq_none.mp h tag htag)
  | some u =>
    have hlong := length_le_of_find? h htag hfits
    have hu : upperChars ((spelling ++ x :: text).take u.length) = u := by
      have hboth := List.find?_some h
      simp only [startsWithTag, Bool.and_eq_true, beq_iff_eq] at hboth
      exact hboth.2
    rcases Nat.eq_or_lt_of_le hlong with hsame | hlonger
    · rw [← hsame, ← hlength, List.take_left, hupper] at hu
      rw [hu]
    · -- A longer one would have the mark in it.
      have hmem : x ∈ (spelling ++ x :: text).take u.length := by
        obtain ⟨k, hk⟩ := Nat.exists_eq_add_of_lt (hlength ▸ hlonger)
        rw [hk, Nat.add_assoc, List.take_length_add_append]
        exact List.mem_append_right _ List.mem_cons_self
      have hin : x ∈ u := hu ▸ mem_upperChars hmem (upperChar_mark hmark)
      exact absurd hin (hplain u (List.mem_of_find?_eq_some h) x hmark)

theorem takeMarker_marker (priority : Priority) (text : List Char) :
    takeMarker markers (priority.marker ++ ':' :: text) = (priority, ':' :: text) := by
  cases priority <;> rfl

theorem exists_mark (priority : Priority) (text : List Char) :
    ∃ x rest, priority.marker ++ ':' :: text = x :: rest ∧ x ∈ marks := by
  cases priority <;> exact ⟨_, _, rfl, by decide⟩

theorem takeMessage?_blank (h : trim text = message) (hmessage : message ≠ []) :
    takeMessage? (':' :: text) = some (String.ofList message) := by
  simp only [takeMessage?, separator, beq_self_eq_true, if_true]
  rw [h]
  cases message with
  | nil => exact absurd rfl hmessage
  | cons c rest => rfl

theorem here?_spelling (priority : Priority) (hplain : ∀ u ∈ orderedTags tags, ∀ x ∈ marks, x ∉ u)
    (htag : tag ∈ orderedTags tags) (hlength : spelling.length = tag.length)
    (hupper : upperChars spelling = tag) (hmessage : trim text = message) (hne : message ≠ []) :
    here? (orderedTags tags) markers (spelling ++ (priority.marker ++ ':' :: text)) =
      some ⟨String.ofList tag, priority, String.ofList message⟩ := by
  obtain ⟨x, rest, hrest, hmark⟩ := exists_mark priority text
  have hfind := find?_spelling rest hplain htag hlength hupper hmark
  rw [← hrest] at hfind
  simp only [here?, hfind, ← hlength, List.drop_left, takeMarker_marker,
    takeMessage?_blank hmessage hne, Option.map_some]

/-- A tagged text is found behind a text in which no tag can start. -/
theorem ofLine?_spelling (priority : Priority) (hplain : ∀ u ∈ orderedTags tags, ∀ x ∈ marks, x ∉ u)
    (htag : tag ∈ orderedTags tags) (hlength : spelling.length = tag.length)
    (hupper : upperChars spelling = tag) (hmessage : trim text = message) (hne : message ≠ [])
    (hquiet : ∀ c ∈ lead, mayStart (orderedTags tags) c = false)
    (hopens : opensTag lead.getLast? = true) :
    ofLine? tags (String.ofList (lead ++ (spelling ++ (priority.marker ++ ':' :: text)))) =
      some ⟨String.ofList tag, priority, String.ofList message⟩ := by
  have hhere := here?_spelling priority hplain htag hlength hupper hmessage hne
  rw [ofLine?, ofLineWith?, String.toList_ofList, scan?_quiet hquiet, Option.or_none]
  cases spelling with
  | nil =>
    have hnil : tag = [] := hupper.symm
    exact absurd hnil (mem_orderedTags.mp htag).2
  | cons c rest =>
    obtain ⟨u, hu, hhead⟩ := upperChar_head (hupper ▸ hlength.symm)
    exact scan?_here (mayStart_eq_true htag (hupper ▸ hhead) hu) hopens hhere

end Tagged

end Marginalia
