import Marginalia.Proofs.Remark.NormalForms

/-!
# More tags

A line that has a remark keeps one when tags are added, as long as no tag has a mark in it. A tag
ends where the first mark behind its start is, and what the grammar reads behind a tag depends on
this place alone. So two tags that overlap are read with the same marker and the same message, and
of two that do not, the message of the first one goes on over the second one.
-/

namespace Marginalia

open Text (mem_upperChars trim trim_suffix)

variable {tags others : List String} {text tag : List Char} {place : Nat}

/-- Tags that have no mark in them. -/
def Unmarked (tags : List String) : Prop :=
  ∀ tag ∈ normalForms tags, ∀ x ∈ Tagged.marks, x ∉ tag

/-- A place of a line has one of the characters that can come right behind a tag. -/
def IsMark (text : List Char) (place : Nat) : Prop := ∃ x ∈ Tagged.marks, text[place]? = some x

theorem Spelled.mem_normalForms (h : Spelled tags line place tag) : tag ∈ normalForms tags :=
  Marginalia.mem_normalForms.mpr ⟨h.nonempty, h.known⟩

theorem Spelled.of_mem (h : Spelled tags line place tag) (hmem : tag ∈ normalForms others) :
    Spelled others line place tag :=
  ⟨(Marginalia.mem_normalForms.mp hmem).2, h.nonempty, h.fits, h.capitals⟩

/-- The characters that spell a tag are no marks. -/
theorem Spelled.not_isMark (h : Spelled tags line place tag) (hplain : Unmarked tags)
    (hfirst : place ≤ i) (hlast : i < place + tag.length) : ¬ IsMark line i := by
  rintro ⟨x, hx, hat⟩
  have hspelling : ((line.drop place).take tag.length)[i - place]? = some x := by
    rw [List.getElem?_take, if_pos (by omega), List.getElem?_drop, Nat.add_sub_cancel' hfirst, hat]
  have hmem : x ∈ tag := by
    rw [← h.capitals]
    exact mem_upperChars (List.mem_of_getElem? hspelling) (Tagged.upperChar_mark hx)
  exact hplain tag h.mem_normalForms x hx hmem

namespace Tagged

variable {found found' : Tagged}

/-- The place behind the marker and the separator that follow a tag. -/
def behind (text : List Char) (tagEnd : Nat) : Nat :=
  tagEnd + (markerText (firstMarker? markers (text.drop tagEnd))).length + 1

theorem mem_marks_of_marker (h : firstMarker? markers text = marker) :
    ∀ x ∈ markerText marker, x ∈ marks := by
  have htable : ∀ marker ∈ markers, marker.text.toList ⊆ marks := by decide
  cases marker with
  | none => exact List.forall_mem_nil _
  | some marker => exact htable marker (List.mem_of_find?_eq_some h)

-- ---------------------------------------------------------------------------
-- Behind the tag
-- ---------------------------------------------------------------------------

/-- What the grammar reads behind a tag depends on where the tag ends. -/
theorem At.read_behind (h : At tags markers text place found) :
    found.priority = ((firstMarker? markers
        (text.drop (place + found.tag.toList.length))).map Marker.priority).getD .normal ∧
      found.message.toList = trim (text.drop (behind text (place + found.tag.toList.length))) := by
  obtain ⟨marker, rest, hmarker, hsplit, hpriority, hmessage, -⟩ := h.marked
  have hrest : text.drop (behind text (place + found.tag.toList.length)) = rest := by
    rw [behind, hmarker, Nat.add_assoc, ← List.drop_drop, hsplit, ← List.drop_drop,
      List.drop_left, List.drop_succ_cons, List.drop_zero]
  exact ⟨hmarker ▸ hpriority, hrest ▸ hmessage⟩

/-- From the end of a tag to its message there are only marks. -/
theorem At.isMark (h : At tags markers text place found)
    (hfirst : place + found.tag.toList.length ≤ i)
    (hlast : i < behind text (place + found.tag.toList.length)) : IsMark text i := by
  obtain ⟨marker, rest, hmarker, hsplit, -⟩ := h.marked
  rw [behind, hmarker] at hlast
  generalize place + found.tag.toList.length = tagEnd at *
  have hat : text[i]? = (markerText marker ++ ':' :: rest)[i - tagEnd]? := by
    rw [← hsplit, List.getElem?_drop, Nat.add_sub_cancel' hfirst]
  rcases Nat.lt_or_ge (i - tagEnd) (markerText marker).length with hmark | hmark
  · rw [List.getElem?_append_left hmark, List.getElem?_eq_getElem hmark] at hat
    exact ⟨_, mem_marks_of_marker hmarker _ (List.getElem_mem hmark), hat⟩
  · have hcolon : i - tagEnd - (markerText marker).length = 0 := by omega
    rw [List.getElem?_append_right hmark, hcolon] at hat
    exact ⟨':', by decide, hat⟩

theorem At.length_pos (h : At tags table text place found) : 0 < found.tag.toList.length :=
  List.length_pos_iff.mpr h.spelled.nonempty

theorem At.isMark_end (h : At tags markers text place found) :
    IsMark text (place + found.tag.toList.length) :=
  h.isMark (Nat.le_refl _) (by unfold behind; omega)

theorem At.unique (h : At tags table text place found) (h' : At tags table text place found') :
    found' = found :=
  Option.some.inj ((foundAt_eq_some.mpr h').symm.trans (foundAt_eq_some.mpr h))

-- ---------------------------------------------------------------------------
-- Tags are added
-- ---------------------------------------------------------------------------

/-- Where a tag stands, no longer tag is spelled out: it would go on over the mark. -/
theorem At.more_tags (h : At tags markers text place found)
    (hsub : normalForms tags ⊆ normalForms others) (hplain : Unmarked others) :
    At others markers text place found where
  boundary := h.boundary
  spelled := h.spelled.of_mem (hsub h.spelled.mem_normalForms)
  longest tag htag := by
    by_contra hlonger
    exact htag.not_isMark hplain (Nat.le_add_right _ _) (by omega) h.isMark_end
  marked := h.marked

theorem At.fewer_tags (h : At others table text place found)
    (hsub : normalForms tags ⊆ normalForms others)
    (hmem : found.tag.toList ∈ normalForms tags) : At tags table text place found where
  boundary := h.boundary
  spelled := h.spelled.of_mem hmem
  longest tag htag := h.longest tag (htag.of_mem (hsub htag.mem_normalForms))
  marked := h.marked

/-- The first mark behind a place is where both tags end that go on over this place. -/
theorem At.end_eq (h : At tags markers text place found) (h' : At tags markers text place' found')
    (hplain : Unmarked tags) (hlt : place' < place)
    (hover : place < place' + found'.tag.toList.length) :
    place' + found'.tag.toList.length = place + found.tag.toList.length := by
  have hpos := h.length_pos
  rcases Nat.lt_trichotomy (place' + found'.tag.toList.length) (place + found.tag.toList.length)
    with hshort | hsame | hlong
  · exact absurd h'.isMark_end (h.spelled.not_isMark hplain (by omega) hshort)
  · exact hsame
  · exact absurd h.isMark_end (h'.spelled.not_isMark hplain (by omega) hlong)

/-- A remark in front goes on over the message of the one behind it. -/
theorem At.message_suffix (h : At tags markers text place found)
    (h' : At tags markers text place' found') (hplain : Unmarked tags) (hlt : place' < place) :
    found.message.toList <:+ found'.message.toList := by
  obtain ⟨-, hmessage⟩ := h.read_behind
  obtain ⟨-, hmessage'⟩ := h'.read_behind
  rw [hmessage, hmessage']
  rcases Nat.lt_or_ge place (place' + found'.tag.toList.length) with hover | hapart
  · rw [h.end_eq h' hplain hlt hover]
  · have hstart : ¬ IsMark text place :=
      h.spelled.not_isMark hplain (Nat.le_refl _) (by have := h.length_pos; omega)
    have hbehind : behind text (place' + found'.tag.toList.length) ≤ place := by
      by_contra hinside
      exact hstart (h'.isMark hapart (by omega))
    have hle : behind text (place' + found'.tag.toList.length) ≤
        behind text (place + found.tag.toList.length) := by
      unfold behind at hbehind ⊢
      omega
    refine trim_suffix ?_
    obtain ⟨n, hn⟩ := Nat.exists_eq_add_of_le hle
    rw [hn, ← List.drop_drop]
    exact List.drop_suffix _ _

/-- When tags are added that have no mark in them, a line that has a remark still has one: the same
one, or one whose tag is new and whose message ends with the message from before. -/
theorem found_with_more_tags (hsub : normalForms tags ⊆ normalForms others)
    (hplain : Unmarked others) (h : ofLine? tags line = some found) :
    ∃ found', ofLine? others line = some found' ∧
      (found' = found ∨
        found'.tag.toList ∈ normalForms others ∧ found'.tag.toList ∉ normalForms tags ∧
          found.message.toList <:+ found'.message.toList) := by
  obtain ⟨place, hat, hleast⟩ := ofLineWith?_eq_some.mp h
  have hmore := hat.more_tags hsub hplain
  cases hothers : ofLine? others line with
  | none => exact absurd hmore ((ofLineWith?_follows_grammar _ _ _).1.mp hothers place found)
  | some found' =>
    refine ⟨found', rfl, ?_⟩
    obtain ⟨place', hat', hleast'⟩ := ofLineWith?_eq_some.mp hothers
    rcases Nat.lt_trichotomy place' place with hlt | rfl | hgt
    · have hnew : found'.tag.toList ∉ normalForms tags := fun hold =>
        hleast place' hlt found' (hat'.fewer_tags hsub hold)
      exact .inr ⟨hat'.spelled.mem_normalForms, hnew, hmore.message_suffix hat' hplain hlt⟩
    · exact .inl (hmore.unique hat')
    · exact absurd hmore (hleast' place hgt found)

/-- A new tag in front of the old one takes the old remark into its message. -/
theorem found_with_more_tags_inFront :
    normalForms ["todo"] ⊆ normalForms ["TODO", "FIXME"] ∧ Unmarked ["TODO", "FIXME"] ∧
      ofLine? ["todo"] "# fixme: see TODO!: now" = some ⟨"TODO", .high, "now"⟩ ∧
      ofLine? ["TODO", "FIXME"] "# fixme: see TODO!: now" =
        some ⟨"FIXME", .normal, "see TODO!: now"⟩ ∧
      "FIXME".toList ∉ normalForms ["todo"] ∧ "now".toList <:+ "see TODO!: now".toList := by
  have hsub : normalForms ["todo"] ⊆ normalForms ["TODO", "FIXME"] := by decide +kernel
  have hplain : Unmarked ["TODO", "FIXME"] := by
    simp only [Unmarked, marks, List.mem_cons, List.not_mem_nil, or_false, forall_eq_or_imp,
      forall_eq]
    decide +kernel
  have h : ofLine? ["todo"] "# fixme: see TODO!: now" = some ⟨"TODO", .high, "now"⟩ := by
    decide +kernel
  have hmore : ofLine? ["TODO", "FIXME"] "# fixme: see TODO!: now" =
      some ⟨"FIXME", .normal, "see TODO!: now"⟩ := by
    have hdistinct : distinct ((["TODO", "FIXME"].map normalTag).filter
        fun tag => !tag.isEmpty) = ["TODO".toList, "FIXME".toList] := by
      decide +kernel
    have hordered : orderedTags ["TODO", "FIXME"] = ["FIXME".toList, "TODO".toList] := by
      rw [orderedTags, hdistinct]
      simp [List.mergeSort, List.MergeSort.Internal.splitInTwo]
    rw [ofLine?, ofLineWith?, hordered]
    decide +kernel
  obtain ⟨found', hfound, hcases⟩ := found_with_more_tags hsub hplain h
  cases hmore.symm.trans hfound
  obtain ⟨-, hnew, hsuffix⟩ := hcases.resolve_left (by decide)
  exact ⟨hsub, hplain, h, hmore, hnew, hsuffix⟩

end Tagged

end Marginalia
