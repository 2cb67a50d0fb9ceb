import Marginalia.Proofs.Remark.Tagged
import Marginalia.Proofs.Text.Parts

/-!
# The grammar of tagged lines

`Tagged.At` says what stands at a place of a line, in the words of the grammar alone: it looks at
every place and compares every tag there. The reader finds what stands at the first place that has
something. It passes over places by their first character; that hides nothing, since a spelling
that keeps the length of its tag turns into capitals character by character.
-/

namespace Marginalia

open Text (dropPart?_eq_some isAlphanumeric isWord trim upperChar upperChars upperChar_head)

/-- A tag in its normal form is spelled out at a place of a line. -/
structure Spelled (tags : List String) (line : List Char) (place : Nat) (tag : List Char) :
    Prop where
  known : ∃ x ∈ tags, normalTag x = tag
  nonempty : tag ≠ []
  fits : place + tag.length ≤ line.length
  capitals : upperChars ((line.drop place).take tag.length) = tag

/-- The first marker of a table that a text starts with. -/
def firstMarker? (table : List Marker) (text : List Char) : Option Marker :=
  table.find? fun marker => marker.text.toList.isPrefixOf text

/-- What a marker is in a text, if there is one. -/
def markerText (marker : Option Marker) : List Char :=
  (marker.map fun marker => marker.text.toList).getD []

namespace Tagged

/-- What the grammar reads at a place of a line. -/
structure At (tags : List String) (table : List Marker) (text : List Char) (place : Nat)
    (found : Tagged) : Prop where
  boundary : place = 0 ∨ ∀ c, text[place - 1]? = some c → isAlphanumeric c = false ∧ c ≠ '_'
  spelled : Spelled tags text place found.tag.toList
  longest : ∀ tag, Spelled tags text place tag → tag.length ≤ found.tag.toList.length
  marked : ∃ marker rest,
    firstMarker? table (text.drop (place + found.tag.toList.length)) = marker ∧
    text.drop (place + found.tag.toList.length) = markerText marker ++ ':' :: rest ∧
    found.priority = (marker.map Marker.priority).getD .normal ∧
    found.message.toList = trim rest ∧ trim rest ≠ []

variable {tags : List String} {table : List Marker} {ordered : List (List Char)}
variable {line text tag : List Char} {found : Tagged} {place : Nat}

-- ---------------------------------------------------------------------------
-- Markers
-- ---------------------------------------------------------------------------

theorem takeMarker_eq (table : List Marker) (text : List Char) :
    (takeMarker table text).1 = ((firstMarker? table text).map Marker.priority).getD .normal ∧
      markerText (firstMarker? table text) ++ (takeMarker table text).2 = text := by
  induction table with
  | nil => exact ⟨rfl, rfl⟩
  | cons marker rest ih =>
    unfold takeMarker firstMarker?
    cases h : Text.dropPart? marker.text.toList text with
    | some after =>
      have htext := dropPart?_eq_some.mp h
      have hstarts : marker.text.toList.isPrefixOf text = true := by
        rw [htext, List.isPrefixOf_iff_prefix]
        exact List.prefix_append _ _
      simp [markerText, htext]
    | none =>
      have hstarts : marker.text.toList.isPrefixOf text = false := by
        rw [Bool.eq_false_iff, ne_eq, List.isPrefixOf_iff_prefix]
        rintro ⟨after, hafter⟩
        rw [dropPart?_eq_some.mpr hafter.symm] at h
        cases h
      simpa [hstarts, firstMarker?] using ih

theorem takeMessage?_eq_some {text : List Char} {message : String} :
    takeMessage? text = some message ↔
      ∃ rest, text = ':' :: rest ∧ message.toList = trim rest ∧ trim rest ≠ [] := by
  cases text with
  | nil => simp [takeMessage?]
  | cons c rest =>
    by_cases hc : c = ':'
    · cases htrim : trim rest with
      | nil => simp [takeMessage?, separator, hc, htrim]
      | cons d kept =>
        simp only [takeMessage?, separator, hc, htrim, beq_self_eq_true, if_true,
          Option.some.injEq, List.cons.injEq, true_and, exists_eq_left', ne_eq, reduceCtorEq,
          not_false_eq_true, and_true]
        rw [eq_comm, String.ext_iff, String.toList_ofList]
    · simp [takeMessage?, separator, hc]

-- ---------------------------------------------------------------------------
-- One place
-- ---------------------------------------------------------------------------

theorem startsWithTag_iff : startsWithTag text tag = true ↔
    tag.length ≤ text.length ∧ upperChars (text.take tag.length) = tag := by
  have hmin : min tag.length text.length = tag.length ↔ tag.length ≤ text.length := by omega
  simp [startsWithTag, hmin]

theorem spelled_iff : Spelled tags line place tag ↔
    tag ∈ orderedTags tags ∧ startsWithTag (line.drop place) tag = true := by
  rw [mem_orderedTags, startsWithTag_iff, List.length_drop]
  constructor
  · rintro ⟨hknown, hne, hfits, hcapitals⟩
    exact ⟨⟨hknown, hne⟩, by omega, hcapitals⟩
  · rintro ⟨⟨hknown, hne⟩, hfits, hcapitals⟩
    have hpos := List.length_pos_iff.mpr hne
    exact ⟨hknown, hne, by omega, hcapitals⟩

/-- The first tag that fits is the longest one that is spelled out. -/
theorem find?_startsWithTag :
    (orderedTags tags).find? (startsWithTag (line.drop place)) = some tag ↔
      Spelled tags line place tag ∧
        ∀ other, Spelled tags line place other → other.length ≤ tag.length := by
  constructor
  · intro h
    refine ⟨spelled_iff.mpr ⟨List.mem_of_find?_eq_some h, List.find?_some h⟩,
      fun other hother => ?_⟩
    obtain ⟨hmem, hfits⟩ := spelled_iff.mp hother
    exact length_le_of_find? h hmem hfits
  · rintro ⟨hspelled, hlongest⟩
    obtain ⟨hmem, hfits⟩ := spelled_iff.mp hspelled
    cases h : (orderedTags tags).find? (startsWithTag (line.drop place)) with
    | none => exact absurd hfits (by simpa using List.find?_eq_none.mp h tag hmem)
    | some u =>
      -- Two tags of one length are spelled by the same characters.
      have hu := spelled_iff.mpr ⟨List.mem_of_find?_eq_some h, List.find?_some h⟩
      have hlength := Nat.le_antisymm (hlongest u hu) (length_le_of_find? h hmem hfits)
      rw [← hu.capitals, hlength, hspelled.capitals]

theorem here?_eq_some : here? (orderedTags tags) table (line.drop place) = some found ↔
    Spelled tags line place found.tag.toList ∧
      (∀ tag, Spelled tags line place tag → tag.length ≤ found.tag.toList.length) ∧
      ∃ marker rest,
        firstMarker? table (line.drop (place + found.tag.toList.length)) = marker ∧
        line.drop (place + found.tag.toList.length) = markerText marker ++ ':' :: rest ∧
        found.priority = (marker.map Marker.priority).getD .normal ∧
        found.message.toList = trim rest ∧ trim rest ≠ [] := by
  rw [← and_assoc, ← find?_startsWithTag]
  unfold here?
  constructor
  · intro h
    split at h
    · cases h
    · rename_i tag hfind
      obtain ⟨hpriority, hsplit⟩ := takeMarker_eq table ((line.drop place).drop tag.length)
      simp only [Option.map_eq_some_iff] at h
      obtain ⟨message, hmessage, rfl⟩ := h
      obtain ⟨rest, hrest, hmessage, hne⟩ := takeMessage?_eq_some.mp hmessage
      rw [List.drop_drop] at hpriority hsplit hrest
      simp only [String.toList_ofList, List.drop_drop]
      refine ⟨hfind, _, rest, rfl, ?_, hpriority, hmessage, hne⟩
      rw [← hrest, hsplit]
  · rintro ⟨hfind, marker, rest, rfl, hsplit, hpriority, hmessage, hne⟩
    obtain ⟨hpriority', hsplit'⟩ := takeMarker_eq table
      (line.drop (place + found.tag.toList.length))
    have hafter : (takeMarker table (line.drop (place + found.tag.toList.length))).2 =
        ':' :: rest := List.append_cancel_left (hsplit'.trans hsplit)
    rw [hfind]
    simp only [List.drop_drop, hafter, Option.map_eq_some_iff]
    refine ⟨found.message, takeMessage?_eq_some.mpr ⟨rest, rfl, hmessage, hne⟩, ?_⟩
    rw [hpriority', ← hpriority, String.ofList_toList]

/-- Passing over a place by its first character hides nothing. -/
theorem mayStart_of_here? (hordered : ∀ tag ∈ ordered, tag ≠ [])
    (h : here? ordered table (c :: text) = some found) : mayStart ordered c = true := by
  unfold here? at h
  split at h
  · cases h
  · rename_i tag hfind
    have hmem := List.mem_of_find?_eq_some hfind
    obtain ⟨hfits, hcapitals⟩ := startsWithTag_iff.mp (List.find?_some hfind)
    obtain ⟨n, hn⟩ := Nat.exists_eq_succ_of_ne_zero
      (mt List.length_eq_zero_iff.mp (hordered tag hmem))
    have hlength : ((c :: text).take tag.length).length = tag.length := by
      rw [List.length_take]
      omega
    rw [hn, List.take_succ_cons] at hcapitals hlength
    have hsame : (upperChars (c :: text.take n)).length = (c :: text.take n).length := by
      rw [hcapitals, hlength, hn]
    obtain ⟨u, hu, hhead⟩ := upperChar_head hsame
    exact mayStart_eq_true hmem (hcapitals ▸ hhead) hu

-- ---------------------------------------------------------------------------
-- The first place
-- ---------------------------------------------------------------------------

/-- What the reader would find at a place of a text that comes after a given character. -/
def foundAt (ordered : List (List Char)) (table : List Marker) (previous : Option Char)
    (text : List Char) (place : Nat) : Option Tagged :=
  if opensTag (if place = 0 then previous else text[place - 1]?) then
    here? ordered table (text.drop place)
  else none

theorem foundAt_succ (c : Char) (place : Nat) :
    foundAt ordered table previous (c :: text) (place + 1) =
      foundAt ordered table (some c) text place := by
  cases place <;> simp [foundAt]

theorem foundAt_nil (hordered : ∀ tag ∈ ordered, tag ≠ []) (place : Nat) :
    foundAt ordered table previous [] place = none := by
  have hnone : ordered.find? (startsWithTag []) = none := by
    refine List.find?_eq_none.mpr fun tag htag hstarts => ?_
    have hlength := (startsWithTag_iff.mp hstarts).1
    exact hordered tag htag (List.length_eq_zero_iff.mp (Nat.le_zero.mp hlength))
  simp [foundAt, here?, hnone]

theorem scan?_cons (hordered : ∀ tag ∈ ordered, tag ≠ []) (c : Char) :
    scan? ordered table previous (c :: text) =
      (foundAt ordered table previous (c :: text) 0).or (scan? ordered table (some c) text) := by
  have hstart : (if mayStart ordered c && opensTag previous then here? ordered table (c :: text)
      else none) = foundAt ordered table previous (c :: text) 0 := by
    cases hhere : here? ordered table (c :: text) with
    | none => simp [foundAt, hhere]
    | some found => simp [foundAt, hhere, mayStart_of_here? hordered hhere]
  rw [scan?, hstart]
  cases foundAt ordered table previous (c :: text) 0 <;> rfl

theorem scan?_eq_none (hordered : ∀ tag ∈ ordered, tag ≠ []) :
    scan? ordered table previous text = none ↔
      ∀ place, foundAt ordered table previous text place = none := by
  induction text generalizing previous with
  | nil => simp [scan?, foundAt_nil hordered]
  | cons c text ih =>
    rw [scan?_cons hordered, Option.or_eq_none_iff, ih]
    constructor
    · rintro ⟨hfirst, hrest⟩ (_ | place)
      · exact hfirst
      · exact (foundAt_succ c place).trans (hrest place)
    · intro h
      exact ⟨h 0, fun place => (foundAt_succ c place).symm.trans (h (place + 1))⟩

theorem scan?_eq_some (hordered : ∀ tag ∈ ordered, tag ≠ []) :
    scan? ordered table previous text = some found ↔
      ∃ place, foundAt ordered table previous text place = some found ∧
        ∀ earlier < place, foundAt ordered table previous text earlier = none := by
  induction text generalizing previous with
  | nil => simp [scan?, foundAt_nil hordered]
  | cons c text ih =>
    rw [scan?_cons hordered, Option.or_eq_some_iff, ih]
    constructor
    · rintro (hfirst | ⟨hfirst, place, hplace, hearlier⟩)
      · exact ⟨0, hfirst, fun earlier hlt => absurd hlt (Nat.not_lt_zero earlier)⟩
      · refine ⟨place + 1, (foundAt_succ c place).trans hplace, ?_⟩
        rintro (_ | earlier) hlt
        · exact hfirst
        · exact (foundAt_succ c earlier).trans (hearlier earlier (Nat.lt_of_succ_lt_succ hlt))
    · rintro ⟨_ | place, hplace, hearlier⟩
      · exact .inl hplace
      · refine .inr ⟨hearlier 0 (Nat.succ_pos _), place,
          (foundAt_succ c place).symm.trans hplace, fun earlier hlt => ?_⟩
        exact (foundAt_succ c earlier).symm.trans (hearlier (earlier + 1) (Nat.succ_lt_succ hlt))

theorem foundAt_eq_some : foundAt (orderedTags tags) table none text place = some found ↔
    At tags table text place found := by
  have hboundary : opensTag (if place = 0 then none else text[place - 1]?) = true ↔
      (place = 0 ∨ ∀ c, text[place - 1]? = some c → isAlphanumeric c = false ∧ c ≠ '_') := by
    by_cases hplace : place = 0
    · simp [hplace, opensTag]
    · cases hbefore : text[place - 1]? with
      | none => simp [hplace, opensTag]
      | some c => simp [hplace, opensTag, isWord, and_comm]
  unfold foundAt
  by_cases hopens : opensTag (if place = 0 then none else text[place - 1]?) = true
  · rw [if_pos hopens, here?_eq_some]
    constructor
    · rintro ⟨hspelled, hlongest, hmarked⟩
      exact ⟨hboundary.mp hopens, hspelled, hlongest, hmarked⟩
    · rintro ⟨-, hspelled, hlongest, hmarked⟩
      exact ⟨hspelled, hlongest, hmarked⟩
  · rw [if_neg hopens]
    constructor
    · intro h
      cases h
    · intro h
      exact absurd (hboundary.mpr h.boundary) hopens

theorem foundAt_eq_none : foundAt (orderedTags tags) table none text place = none ↔
    ∀ found, ¬ At tags table text place found := by
  simp only [Option.eq_none_iff_forall_ne_some, ne_eq, foundAt_eq_some]

/-- A line has no remark if the grammar reads nothing at any place of it, and else the one that
the grammar reads at the first place where it reads something. -/
theorem ofLineWith?_follows_grammar (table : List Marker) (tags : List String) (line : String) :
    (ofLineWith? table tags line = none ↔
        ∀ place found, ¬ At tags table line.toList place found) ∧
      ∀ found, ofLineWith? table tags line = some found ↔
        ∃ place, At tags table line.toList place found ∧
          ∀ earlier < place, ∀ other, ¬ At tags table line.toList earlier other := by
  have hordered : ∀ tag ∈ orderedTags tags, tag ≠ [] := fun tag htag => (mem_orderedTags.mp htag).2
  unfold ofLineWith?
  constructor
  · rw [scan?_eq_none hordered]
    exact forall_congr' fun place => foundAt_eq_none
  · intro found
    rw [scan?_eq_some hordered]
    simp only [foundAt_eq_some, foundAt_eq_none]

/-- A character whose capital form is longer spells no tag. -/
example : ofLineWith? markers ["ß"] "ß: x" = none ∧
    ofLineWith? markers ["ß"] "sS: x" = some ⟨"SS", .normal, "x"⟩ := by decide +kernel

end Tagged

end Marginalia
