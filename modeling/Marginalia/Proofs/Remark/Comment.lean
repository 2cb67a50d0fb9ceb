import Marginalia.Proofs.Remark.Metadata
import Marginalia.Proofs.Remark.Tagged

/-!
# Remarks as they are written

A remark is written with its tag in any spelling, its marker, a colon, and then its owner, its date
or category, its ticket id and its message. Reading such a line gives the remark back, whichever of
these parts are there. Each of them has to be one that its own reader takes whole, and the message
one that no reader takes for a part.
-/

namespace Marginalia

open Text (isBlank isWord trim trimEnd upperChar upperChars)
open Metadata (Avoids Ticket isDate isOwnerChar joined written)

/-- What is written in a line for a remark. -/
structure Comment where
  lead : List Char
  spelling : List Char
  priority : Priority
  owner : Option (List Char)
  bracket : Option (List Char)
  ticket : Option (List Char)
  message : List Char
  deriving DecidableEq, Repr

namespace Comment

variable {c : Comment} {tags : List String} {tag : List Char}

def ownerPart (c : Comment) : Option (List Char) := c.owner.map ('@' :: ·)

def bracketPart (c : Comment) : Option (List Char) := c.bracket.map fun b => '[' :: b ++ [']']

def ticketPart (c : Comment) : Option (List Char) := c.ticket.map fun i => '(' :: i ++ [')']

def body (c : Comment) : List Char :=
  written c.ownerPart (written c.bracketPart (written c.ticketPart c.message))

def line (c : Comment) : String :=
  .ofList (c.lead ++ (c.spelling ++ (c.priority.marker ++ ':' :: ' ' :: c.body)))

def remark (c : Comment) (tag : List Char) (file : String) (number : Int) : Remark where
  file := file
  line := number
  tag := .ofList tag
  message := .ofList c.message
  priority := c.priority
  owner := c.owner.map String.ofList
  date := (c.bracket.filter isDate).map String.ofList
  category := (c.bracket.filter fun content => !isDate content).map String.ofList
  id := c.ticket.map String.ofList

/-- A comment that writes a remark with a tag down, among the tags that are looked for. -/
structure Fits (c : Comment) (tags : List String) (tag : List Char) : Prop where
  plain : ∀ x ∈ tags, ∀ mark ∈ [':', '!', '?'], mark ∉ normalTag x
  known : ∃ x ∈ tags, normalTag x = tag
  nonempty : tag ≠ []
  length : c.spelling.length = tag.length
  capitals : upperChars c.spelling = tag
  /-- Nothing in front of the tag can start one. -/
  quiet : ∀ a ∈ c.lead, ∀ x ∈ tags, ∀ u ∈ (normalTag x).head?, upperChar a ≠ [u]
  boundary : ∀ a ∈ c.lead.getLast?, isWord a = false
  owner : ∀ o ∈ c.owner, o ≠ [] ∧ ∀ a ∈ o, isOwnerChar a = true
  bracket : ∀ b ∈ c.bracket, b ≠ [] ∧ ']' ∉ b
  ticket : ∀ i ∈ c.ticket, Ticket i
  trimmed : trim c.message = c.message
  message : ∀ a ∈ c.message.head?, a ∉ ['@', '[', '(', ':']
  something : c.owner ≠ none ∨ c.bracket ≠ none ∨ c.ticket ≠ none ∨ c.message ≠ []

-- ---------------------------------------------------------------------------
-- The message with its metadata
-- ---------------------------------------------------------------------------

theorem Fits.of_mem_ownerPart (h : c.Fits tags tag) :
    ∀ p ∈ c.ownerPart, p ≠ [] ∧ trimEnd p = p ∧ Avoids ['[', '(', ':'] p := by
  intro p hp
  obtain ⟨o, ho, rfl⟩ := Option.map_eq_some_iff.mp hp
  obtain ⟨hne, hchars⟩ := h.owner o ho
  refine ⟨List.cons_ne_nil _ _, ?_, ?_⟩
  · rw [← List.dropLast_concat_getLast hne, ← List.cons_append]
    have hlast := hchars _ (List.getLast_mem hne)
    exact Text.trimEnd_append_singleton _ (Metadata.not_isBlank_of_isOwnerChar hlast)
  · rintro _ ⟨⟩
    decide

theorem of_mem_bracketPart :
    ∀ p ∈ c.bracketPart, p ≠ [] ∧ trimEnd p = p ∧ Avoids ['@', '(', ':'] p := by
  intro p hp
  obtain ⟨b, hb, rfl⟩ := Option.map_eq_some_iff.mp hp
  refine ⟨List.cons_ne_nil _ _, Text.trimEnd_append_singleton _ (by decide), ?_⟩
  rintro _ ⟨⟩
  decide

theorem of_mem_ticketPart :
    ∀ p ∈ c.ticketPart, p ≠ [] ∧ trimEnd p = p ∧ Avoids ['@', '[', ':'] p := by
  intro p hp
  obtain ⟨i, hi, rfl⟩ := Option.map_eq_some_iff.mp hp
  refine ⟨List.cons_ne_nil _ _, Text.trimEnd_append_singleton _ (by decide), ?_⟩
  rintro _ ⟨⟩
  decide

/-- The body without the blank at its end, if it has one: what the readers of metadata get. -/
def trimmedBody (c : Comment) : List Char :=
  joined c.ownerPart (joined c.bracketPart (joined c.ticketPart c.message))

theorem Fits.trimEnd_body (h : c.Fits tags tag) : trimEnd c.body = c.trimmedBody := by
  rw [body, Metadata.trimEnd_written fun p hp => (h.of_mem_ownerPart p hp).2.1,
    Metadata.trimEnd_written fun p hp => (of_mem_bracketPart p hp).2.1,
    Metadata.trimEnd_written fun p hp => (of_mem_ticketPart p hp).2.1,
    Text.trimEnd_of_trim_eq h.trimmed, trimmedBody]

theorem Fits.avoids_message (h : c.Fits tags tag) : Avoids ['@', '[', '(', ':'] c.message :=
  fun a ha => ⟨Text.head_of_trim_eq h.trimmed a ha, h.message a ha⟩

theorem Fits.avoids_ticket (h : c.Fits tags tag) :
    Avoids ['@', '[', ':'] (joined c.ticketPart c.message) :=
  Metadata.avoids_joined (h.avoids_message.mono (by simp)) fun p hp =>
    ⟨(of_mem_ticketPart p hp).1, (of_mem_ticketPart p hp).2.2⟩

theorem Fits.avoids_bracket (h : c.Fits tags tag) :
    Avoids ['@', ':'] (joined c.bracketPart (joined c.ticketPart c.message)) :=
  Metadata.avoids_joined (h.avoids_ticket.mono (by simp)) fun p hp =>
    ⟨(of_mem_bracketPart p hp).1, (of_mem_bracketPart p hp).2.2.mono (by simp)⟩

theorem Fits.avoids_trimmedBody (h : c.Fits tags tag) : Avoids [] c.trimmedBody :=
  Metadata.avoids_joined (h.avoids_bracket.mono (by simp)) fun p hp =>
    ⟨(h.of_mem_ownerPart p hp).1, (h.of_mem_ownerPart p hp).2.2.mono (by simp)⟩

theorem Fits.trimmedBody_ne_nil (h : c.Fits tags tag) : c.trimmedBody ≠ [] := by
  refine Metadata.joined_ne_nil (fun p hp => (h.of_mem_ownerPart p hp).1) ?_
  by_cases howner : c.owner = none
  · refine .inr (Metadata.joined_ne_nil (fun p hp => (of_mem_bracketPart p hp).1) ?_)
    by_cases hbracket : c.bracket = none
    · refine .inr (Metadata.joined_ne_nil (fun p hp => (of_mem_ticketPart p hp).1) ?_)
      simpa [howner, hbracket, ticketPart] using h.something
    · exact .inl (by simpa [bracketPart] using hbracket)
  · exact .inl (by simpa [ownerPart] using howner)

theorem Fits.trim_body (h : c.Fits tags tag) : trim (' ' :: c.body) = c.trimmedBody := by
  have hhead : c.body.head? = c.trimmedBody.head? := by
    rw [← h.trimEnd_body]
    exact (Text.head?_trimEnd (h.trimEnd_body ▸ h.trimmedBody_ne_nil)).symm
  have hstart : Text.trimStart (' ' :: c.body) = Text.trimStart c.body := rfl
  rw [trim, hstart, Text.trimStart_eq_self, h.trimEnd_body]
  exact fun a ha => (h.avoids_trimmedBody a (hhead ▸ ha)).1

/-- The readers of metadata take the parts one after the other, and leave the message. -/
theorem Fits.ofMessage_trimmedBody (h : c.Fits tags tag) :
    Metadata.ofMessage (String.ofList c.trimmedBody) =
      ⟨String.ofList c.message, c.owner.map String.ofList,
        (c.bracket.filter isDate).map String.ofList,
        (c.bracket.filter fun content => !isDate content).map String.ofList,
        c.ticket.map String.ofList⟩ := by
  have htrim : trim c.trimmedBody = c.trimmedBody := by
    rw [Text.trim_eq_trimEnd fun a ha => (h.avoids_trimmedBody a ha).1, ← h.trimEnd_body,
      Text.trimEnd_trimEnd]
  have howner : Metadata.takeOwner c.trimmedBody = _ :=
    Metadata.takeOwner_joined h.owner h.avoids_bracket (by decide) (by decide)
  have hbracket : Metadata.takeBracket (joined c.bracketPart _) = _ :=
    Metadata.takeBracket_joined h.bracket h.avoids_ticket (by decide) (by decide)
  have hticket : Metadata.takeTicket (joined c.ticketPart _) = _ :=
    Metadata.takeTicket_joined h.ticket h.avoids_message (by decide) (by decide) (by decide)
  simp only [Metadata.ofMessage, String.toList_ofList, htrim, howner, hbracket, hticket, h.trimmed]

/-- A comment is read as the remark that it writes down. -/
theorem line_reads_back (h : c.Fits tags tag) (file : String) (number : Int) :
    Remark.ofLine? tags file number c.line = some (c.remark tag file number) := by
  have hplain : ∀ u ∈ orderedTags tags, ∀ mark ∈ Tagged.marks, mark ∉ u := by
    intro u hu mark hmark
    obtain ⟨⟨x, hx, rfl⟩, -⟩ := mem_orderedTags.mp hu
    exact h.plain x hx mark hmark
  have hquiet : ∀ a ∈ c.lead, Tagged.mayStart (orderedTags tags) a = false := by
    intro a ha
    refine Tagged.mayStart_eq_false fun u hu => ?_
    obtain ⟨⟨x, hx, rfl⟩, -⟩ := mem_orderedTags.mp hu
    exact h.quiet a ha x hx
  have hopens : Tagged.opensTag c.lead.getLast? = true := by
    cases hlast : c.lead.getLast? with
    | none => rfl
    | some a => simp [Tagged.opensTag, h.boundary a hlast]
  have htagged := Tagged.ofLine?_spelling c.priority hplain
    (mem_orderedTags.mpr ⟨h.known, h.nonempty⟩) h.length h.capitals h.trim_body
    h.trimmedBody_ne_nil hquiet hopens
  simp only [Remark.ofLine?, line, htagged, Option.map_some, h.ofMessage_trimmedBody, remark]

/-- A comment with all parts, for one of several tags. -/
def fullComment : Comment where
  lead := "// ".toList
  spelling := "ToDo".toList
  priority := .critical
  owner := some "ana-b".toList
  bracket := some "2024-01-05".toList
  ticket := some "ABC-12".toList
  message := "see [1]: later".toList

def severalTags : List String := ["bug", " todo", "to", "TODO-LIST"]

theorem fits_fullComment : fullComment.Fits severalTags "TODO".toList where
  plain := by
    have h : (severalTags.all fun x => [':', '!', '?'].all fun mark =>
        !(normalTag x).contains mark) = true := by decide +kernel
    simpa only [List.all_eq_true, Bool.not_eq_true', List.contains_eq_mem,
      decide_eq_false_iff_not] using h
  known := ⟨" todo", by decide, by decide +kernel⟩
  nonempty := by decide
  length := rfl
  capitals := by decide +kernel
  quiet := by
    have h : (fullComment.lead.all fun a => severalTags.all fun x =>
        (normalTag x).head?.all fun u => upperChar a != [u]) = true := by decide +kernel
    simpa only [List.all_eq_true, Option.all_eq_true, bne_iff_ne, Option.mem_def] using h
  boundary := by
    have h : (fullComment.lead.getLast?.all fun a => !isWord a) = true := by decide +kernel
    simpa only [Option.all_eq_true, Bool.not_eq_true', Option.mem_def] using h
  owner := by
    rintro _ ⟨⟩
    exact ⟨by decide, List.all_eq_true.mp (by decide +kernel)⟩
  bracket := by
    rintro _ ⟨⟩
    exact ⟨by decide, by decide⟩
  ticket := by
    rintro _ ⟨⟩
    change Ticket ("ABC".toList ++ '-' :: "12".toList)
    exact .coded (by decide) (List.all_eq_true.mp (by decide)) (by decide)
      (List.all_eq_true.mp (by decide))
  trimmed := by decide +kernel
  message := by
    rintro _ ⟨⟩
    decide
  something := .inl nofun

theorem line_reads_back_fullComment :
    fullComment.Fits severalTags "TODO".toList ∧
      Remark.ofLine? severalTags "main.c" 7 fullComment.line = some
        ⟨"main.c", 7, "TODO", "see [1]: later", .critical, some "ana-b", some "2024-01-05", none,
          some "ABC-12"⟩ :=
  ⟨fits_fullComment, line_reads_back fits_fullComment "main.c" 7⟩

end Comment

end Marginalia
