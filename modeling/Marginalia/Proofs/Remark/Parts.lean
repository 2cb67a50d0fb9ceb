import Marginalia.Proofs.Remark.Grammar
import Marginalia.Proofs.Remark.Metadata
import Marginalia.Proofs.Text.Numeral

/-!
# What remarks are made of

The texts of a remark come out of the line that it is found on: the tag in capitals, the message
without blanks around it. An owner and a ticket id have no blanks at all; what stands in a bracket
may be anything.
-/

namespace Marginalia

open Text (isBlank isAsciiDigit isAsciiUpper splitFirst? splitFirst?_eq_some trim trim_subset
  trim_trim upperChars)

namespace Metadata

variable {text content : List Char} {P : List Char → Prop}

-- ---------------------------------------------------------------------------
-- Readers
-- ---------------------------------------------------------------------------

/-- What a reader gives: at most one part, which has a property, and a rest. -/
structure Takes (P : List Char → Prop) (text : List Char)
    (result : Option (List Char) × List Char) : Prop where
  part : ∀ part ∈ result.1, P part ∧ part ⊆ text
  rest : result.2 ⊆ text

theorem takes_nothing (text : List Char) : Takes P text (none, text) :=
  ⟨nofun, List.Subset.refl text⟩

theorem skipSeparator_subset (text : List Char) : skipSeparator text ⊆ text := by
  have hskip (text : List Char) : skipBlanks text ⊆ text :=
    (List.dropWhile_sublist isHorizontalBlank).subset
  have hblanks := hskip text
  unfold skipSeparator
  split
  · rename_i rest hrest
    rw [hrest] at hblanks
    exact List.Subset.trans (hskip rest) (List.Subset.trans (List.subset_cons_self _ _) hblanks)
  · exact hblanks

theorem takes_owner (text : List Char) :
    Takes (fun owner => owner ≠ [] ∧ ∀ c ∈ owner, isOwnerChar c = true) text
      (takeOwner text) := by
  unfold takeOwner
  split
  · rename_i rest
    split
    · exact takes_nothing _
    · rename_i owner hne
      refine ⟨?_, ?_⟩
      · rintro _ ⟨⟩
        refine ⟨⟨fun hnil => hne hnil, fun c hc => List.mem_takeWhile_imp hc⟩, ?_⟩
        exact List.subset_cons_of_subset _ (List.takeWhile_sublist isOwnerChar).subset
      · refine List.Subset.trans (skipSeparator_subset _) (List.subset_cons_of_subset _ ?_)
        exact (List.dropWhile_sublist isOwnerChar).subset
  · exact takes_nothing _

/-- The parts around a character that a text is cut at. -/
theorem splitFirst?_subset {before after : List Char} (c : Char)
    (h : splitFirst? closer text = some (before, after)) :
    before ⊆ c :: text ∧ after ⊆ c :: text := by
  rw [splitFirst?_eq_some h]
  refine ⟨List.subset_cons_of_subset c (List.subset_append_left _ _),
    List.subset_cons_of_subset c ?_⟩
  exact List.subset_append_of_subset_right _ (List.subset_cons_self _ _)

theorem takes_bracket (text : List Char) : Takes (fun _ => True) text (takeBracket text) := by
  unfold takeBracket
  split
  · split
    · rename_i hsplit
      obtain ⟨hcontent, hafter⟩ := splitFirst?_subset '[' hsplit
      refine ⟨?_, List.Subset.trans (skipSeparator_subset _) hafter⟩
      rintro _ ⟨⟩
      exact ⟨trivial, hcontent⟩
    · exact takes_nothing _
  · exact takes_nothing _

theorem takes_ticket (text : List Char) :
    Takes (fun ticket => isTicket ticket = true) text (takeTicket text) := by
  unfold takeTicket
  split
  · exact takes_nothing _
  · split
    · exact takes_nothing _
    · split
      · rename_i c rest _ closer _ _ content after hsplit
        obtain ⟨hcontent, hafter⟩ := splitFirst?_subset c hsplit
        split
        · rename_i hticket
          refine ⟨?_, List.Subset.trans (skipSeparator_subset _) hafter⟩
          rintro _ ⟨⟩
          exact ⟨hticket, hcontent⟩
        · exact takes_nothing _
      · exact takes_nothing _

/-- A text that is not empty and has no blanks. -/
structure IsWord (text : List Char) : Prop where
  nonempty : text ≠ []
  solid : ∀ c ∈ text, isBlank c = false

theorem isWord_owner (h : content ≠ [] ∧ ∀ c ∈ content, isOwnerChar c = true) :
    IsWord content :=
  ⟨h.1, fun c hc => not_isBlank_of_isOwnerChar (h.2 c hc)⟩

theorem isBlank_capital (h : isAsciiUpper c = true) : isBlank c = false := by
  have hapart : ∀ n ∈ List.range' 0x41 26, Text.blanks.holds n = false := by decide
  simp only [isAsciiUpper, Bool.and_eq_true, decide_eq_true_eq] at h
  have hfirst : 0x41 ≤ c.toNat := h.1
  have hlast : c.toNat ≤ 0x5A := h.2
  exact hapart c.toNat (List.mem_range'_1.mpr (by omega))

theorem isWord_ticket (h : isTicket content = true) : IsWord content := by
  have hdigits {digits : List Char} (h : ∀ c ∈ digits, isAsciiDigit c = true) :
      ∀ c ∈ digits, isBlank c = false := fun c hc => Text.isBlank_digit (h c hc)
  unfold isTicket at h
  split at h
  · simp only [Bool.and_eq_true, List.all_eq_true] at h
    exact ⟨List.cons_ne_nil _ _, List.forall_mem_cons.mpr ⟨by decide, hdigits h.2⟩⟩
  · split at h
    · rename_i letters digits hsplit
      simp only [Bool.and_eq_true, List.all_eq_true] at h
      obtain ⟨⟨⟨-, hletters⟩, -⟩, hnumber⟩ := h
      rw [splitFirst?_eq_some hsplit]
      refine ⟨by simp, List.forall_mem_append.mpr ⟨fun c hc => isBlank_capital (hletters c hc), ?_⟩⟩
      exact List.forall_mem_cons.mpr ⟨by decide, hdigits hnumber⟩
    · cases h

-- ---------------------------------------------------------------------------
-- Messages
-- ---------------------------------------------------------------------------

/-- The parts of a message. -/
structure CutFrom (text : List Char) (m : Metadata) : Prop where
  trimmed : trim m.message.toList = m.message.toList
  message : m.message.toList ⊆ text
  owner : ∀ owner ∈ m.owner, IsWord owner.toList
  date : ∀ date ∈ m.date, date.toList ⊆ text
  category : ∀ category ∈ m.category, category.toList ⊆ text
  id : ∀ id ∈ m.id, IsWord id.toList

theorem forall_mem_map_ofList {part : Option (List Char)} {Q : List Char → Prop}
    (h : ∀ p ∈ part, Q p) : ∀ value ∈ part.map String.ofList, Q value.toList := by
  cases part with
  | none => nofun
  | some p =>
    rintro _ ⟨⟩
    rw [String.toList_ofList]
    exact h p rfl

theorem cutFrom_ofMessage (message : String) : CutFrom message.toList (ofMessage message) := by
  have howner := takes_owner (trim message.toList)
  have hbracket := takes_bracket (takeOwner (trim message.toList)).2
  have hticket := takes_ticket (takeBracket (takeOwner (trim message.toList)).2).2
  have hafterOwner := List.Subset.trans howner.rest (trim_subset _)
  have hafterBracket := List.Subset.trans hbracket.rest hafterOwner
  have hcontent : ∀ part ∈ (takeBracket (takeOwner (trim message.toList)).2).1,
      part ⊆ message.toList :=
    fun part hpart => List.Subset.trans (hbracket.part part hpart).2 hafterOwner
  have hfiltered (keep : List Char → Bool) :
      ∀ part ∈ (takeBracket (takeOwner (trim message.toList)).2).1.filter keep,
        part ⊆ message.toList :=
    fun part hpart => hcontent part (Option.mem_filter_iff.mp hpart).1
  refine ⟨?_, ?_, ?_, ?_, ?_, ?_⟩
  · exact (congrArg trim String.toList_ofList).trans
      ((trim_trim _).trans String.toList_ofList.symm)
  · rw [ofMessage, String.toList_ofList]
    exact List.Subset.trans (trim_subset _) (List.Subset.trans hticket.rest hafterBracket)
  · exact forall_mem_map_ofList fun owner h => isWord_owner (howner.part owner h).1
  · exact forall_mem_map_ofList (Q := (· ⊆ message.toList)) (hfiltered _)
  · exact forall_mem_map_ofList (Q := (· ⊆ message.toList)) (hfiltered _)
  · exact forall_mem_map_ofList fun id h => isWord_ticket (hticket.part id h).1

end Metadata

-- ---------------------------------------------------------------------------
-- Remarks
-- ---------------------------------------------------------------------------

/-- A remark that is found on a line for some tags. -/
structure Remark.FoundOn (tags : List String) (line : List Char) (a : Remark) : Prop where
  normal : ∃ x ∈ tags, normalTag x = a.tag.toList
  nonempty : a.tag.toList ≠ []
  spelled : ∃ spelling, spelling ⊆ line ∧ upperChars spelling = a.tag.toList
  parts : Metadata.CutFrom line
    { message := a.message, owner := a.owner, date := a.date, category := a.category, id := a.id }

theorem Metadata.CutFrom.mono {m : Metadata} (h : CutFrom text m) (hsub : text ⊆ line) :
    CutFrom line m :=
  { h with
    message := List.Subset.trans h.message hsub
    date := fun date hdate => List.Subset.trans (h.date date hdate) hsub
    category := fun category hcategory => List.Subset.trans (h.category category hcategory) hsub }

theorem Tagged.at_of_ofLine? (h : Tagged.ofLine? tags line = some found) :
    ∃ place, At tags markers line.toList place found := by
  have hordered : ∀ tag ∈ orderedTags tags, tag ≠ [] := fun tag htag => (mem_orderedTags.mp htag).2
  obtain ⟨place, hfound, -⟩ := (scan?_eq_some hordered).mp h
  exact ⟨place, foundAt_eq_some.mp hfound⟩

theorem foundOn_ofLine? {line : String} (h : Remark.ofLine? tags file number line = some a) :
    a.file = file ∧ a.line = number ∧ a.FoundOn tags line.toList := by
  obtain ⟨found, hfound, rfl⟩ := Option.map_eq_some_iff.mp h
  obtain ⟨place, hat⟩ := Tagged.at_of_ofLine? hfound
  obtain ⟨marker, rest, -, hsplit, -, hmessage, -⟩ := hat.marked
  have hrest : rest ⊆ line.toList := by
    have hdrop : markerText marker ++ ':' :: rest ⊆ line.toList :=
      hsplit ▸ (List.drop_sublist _ _).subset
    exact fun c hc => hdrop (List.mem_append_right _ (List.mem_cons_of_mem _ hc))
  have htext : found.message.toList ⊆ line.toList := by
    rw [hmessage]
    exact List.Subset.trans (trim_subset rest) hrest
  refine ⟨rfl, rfl, hat.spelled.known, hat.spelled.nonempty, ⟨_, ?_, hat.spelled.capitals⟩, ?_⟩
  · exact List.Subset.trans (List.take_sublist _ _).subset (List.drop_sublist _ _).subset
  · exact (Metadata.cutFrom_ofMessage found.message).mono htext

end Marginalia
