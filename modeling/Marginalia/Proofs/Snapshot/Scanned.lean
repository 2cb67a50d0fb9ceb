import Marginalia.Proofs.Scan.Found
import Marginalia.Proofs.Snapshot.RoundTrip
import Mathlib.Algebra.Order.BigOperators.Group.List

/-!
# Snapshots of scans

What a scan finds can be kept in a snapshot, apart from texts that users are free to choose: the
names of files, the tags, and what stands in a bracket. A message keeps all but the width of its
wide gaps. That these are two spaces already is what it takes to get the same identities back.
-/

namespace Marginalia.Snapshot

open Text (digitLimit isBlank trim upperChars)

/-- A remark that has wide gaps and blanks in front, if any, in the message alone. -/
structure Plain (a : Remark) : Prop where
  start : startsBlank a.file.toList = false
  file : wideGaps a.file.toList = []
  newline : '\n' ∉ a.file.toList
  carriage : '\r' ∉ a.file.toList
  line : a.line < 10 ^ digitLimit
  tag : wideGaps a.tag.toList = []
  date : ∀ text ∈ a.date, trim text.toList ≠ [] ∧ wideGaps (trim text.toList) = []
  category : ∀ text ∈ a.category, trim text.toList ≠ [] ∧ wideGaps (trim text.toList) = []

variable {a : Remark} {stamp : String} {tags : List String} {line : List Char}

-- ---------------------------------------------------------------------------
-- Line ends
-- ---------------------------------------------------------------------------

theorem blank_notMem_of_all {text : List Char} (hblank : isBlank c = true)
    (h : (text.all fun d => !isBlank d) = true) : c ∉ text :=
  blank_notMem hblank (by simpa using h)

theorem notMem_orMissing {field : Option String} (hblank : isBlank c = true)
    (h : ∀ value ∈ field, c ∉ value.toList) : c ∉ (orMissing field).toList := by
  have hmissing : c ∉ missing.toList := blank_notMem_of_all hblank rfl
  cases field with
  | none => exact hmissing
  | some value =>
    rw [orMissing]
    split
    · exact hmissing
    · exact h value rfl

/-- A blank that is neither on the line of a remark nor in the name of its file is in none of its
cells. -/
theorem notMem_cells (h : a.FoundOn tags line) (hnumber : 0 ≤ a.line) (hblank : isBlank c = true)
    (hline : c ∉ line) (hfile : c ∉ a.file.toList) :
    (∀ value ∈ (Cells.ofRemark a).padded, c ∉ value.toList) ∧ c ∉ a.message.toList := by
  have hdigits := not_blank_number (Text.isAsciiDigit_toDigits a.line.toNat)
  have hlocation : c ∉ a.location.toList := by
    rw [toList_location hnumber]
    exact List.not_mem_append hfile (blank_notMem hblank hdigits)
  have htag : c ∉ a.tag.toList := by
    obtain ⟨spelling, hspelling, htag⟩ := h.spelled
    rw [← htag]
    exact fun hc => hline (hspelling (Text.mem_of_mem_upperChars hc hblank))
  have hpriority : c ∉ a.priority.name.toList := by
    have hnames (priority : Priority) :
        (priority.name.toList.all fun d => !isBlank d) = true := by
      cases priority <;> decide
    exact blank_notMem_of_all hblank (hnames a.priority)
  refine ⟨?_, fun hc => hline (h.parts.message hc)⟩
  simp only [Cells.ofRemark, List.forall_mem_cons]
  refine ⟨hlocation, htag, hpriority, ?_, ?_, ?_, ?_, List.forall_mem_nil _⟩
  · exact notMem_orMissing hblank fun owner ho =>
      blank_notMem hblank (h.parts.owner owner ho).solid
  · exact notMem_orMissing hblank fun date hd hc => hline (h.parts.date date hd hc)
  · exact notMem_orMissing hblank fun category hk hc => hline (h.parts.category category hk hc)
  · exact notMem_orMissing hblank fun id hi => blank_notMem hblank (h.parts.id id hi).solid

-- ---------------------------------------------------------------------------
-- Cells
-- ---------------------------------------------------------------------------

theorem fills_of_solid {text : List Char} (hne : text ≠ []) (h : ∀ c ∈ text, isBlank c = false) :
    Fills text :=
  ⟨hne, Text.trim_eq_self (fun c hc => h c (List.mem_of_mem_head? hc)) (Text.trimEnd_eq_self h),
    wideGaps_eq_nil h⟩

theorem fills_trim_orMissing {field : Option String}
    (h : ∀ text ∈ field, trim text.toList ≠ [] ∧ wideGaps (trim text.toList) = []) :
    Fills (trim (orMissing field).toList) := by
  cases field with
  | none => exact legible_missing.readable.toFills
  | some text =>
    obtain ⟨hne, hnarrow⟩ := h text rfl
    have htext : text ≠ "" := by
      rintro rfl
      exact hne rfl
    have hsome : orMissing (some text) = text := by simp [orMissing, htext]
    rw [hsome]
    exact ⟨hne, Text.trim_trim _, hnarrow⟩

theorem word_fits {field : Option String} (h : ∀ text ∈ field, Metadata.IsWord text.toList) :
    ∀ text ∈ field, trim text.toList ≠ [] ∧ wideGaps (trim text.toList) = [] := by
  intro text htext
  obtain ⟨hne, hsolid⟩ := h text htext
  have hfills := fills_of_solid hne hsolid
  rw [hfills.trimmed]
  exact ⟨hne, hfills.narrow⟩

theorem readable_of_scanned (h : a.Scanned) (hplain : Plain a) : ReadableRemark a := by
  obtain ⟨tags, line, hnewline, -, hfound⟩ := h.found
  obtain ⟨hcells, hmessage⟩ := notMem_cells hfound h.line (by decide) hnewline hplain.newline
  simp only [Cells.ofRemark, List.forall_mem_cons] at hcells
  obtain ⟨-, htag, -, howner, hdate, hcategory, hid, -⟩ := hcells
  obtain ⟨x, -, hnormal⟩ := hfound.normal
  refine {
    file := ⟨h.file, hplain.start, hplain.file, hplain.newline⟩
    line := ⟨h.line, hplain.line⟩
    tag := ⟨⟨hfound.nonempty, ?_, hplain.tag⟩, htag⟩
    capitals := ?_
    owner := ⟨fills_trim_orMissing (word_fits hfound.parts.owner), howner⟩
    date := ⟨fills_trim_orMissing hplain.date, hdate⟩
    category := ⟨fills_trim_orMissing hplain.category, hcategory⟩
    id := ⟨fills_trim_orMissing (word_fits hfound.parts.id), hid⟩
    message := hfound.parts.trimmed
    oneLine := hmessage }
  · rw [← hnormal]
    exact Text.trim_upperChars (Text.trim_trim _)
  · rw [Text.upper, ← hnormal, normalTag, Text.upperChars_upperChars, ← normalTag, hnormal,
      String.ofList_toList]

-- ---------------------------------------------------------------------------
-- Texts
-- ---------------------------------------------------------------------------

theorem carriage_notMem_row (hscanned : a.Scanned) (hplain : Plain a)
    (hstamp : '\r' ∉ stamp.toList) (hsizes : sizes.length = paddedNames.length) :
    '\r' ∉ row stamp sizes (Cells.ofRemark a) := by
  obtain ⟨tags, line, -, hline, hfound⟩ := hscanned.found
  obtain ⟨hcells, hmessage⟩ :=
    notMem_cells hfound hscanned.line (by decide) hline hplain.carriage
  rw [row_eq]
  exact notMem_lineOf (by decide) (List.forall_mem_cons.mpr ⟨hstamp, hcells⟩)
    (length_padded a stamp hsizes) hmessage

theorem carriage_notMem_write {remarks : List Remark} (h : ∀ a ∈ remarks, a.Scanned ∧ Plain a)
    (hstamp : '\r' ∉ stamp.toList) : '\r' ∉ (write stamp remarks).toList := by
  rw [toList_write]
  have hsizes := length_widths paddedNames (((sort remarks).map Cells.ofRemark).map Cells.padded)
  generalize widths paddedNames _ = sizes at *
  intro hmem
  obtain ⟨line, hline, hc⟩ := List.mem_flatMap.mp hmem
  have hnone : '\r' ∉ line := by
    rcases List.mem_append.mp hline with hline | hline
    · exact notMem_headLines (by decide) (by decide) hstamp line hline
    · obtain ⟨a, ha, rfl⟩ := List.mem_map.mp hline
      obtain ⟨hscanned, hplain⟩ := h a (mem_sort.mp ha)
      exact carriage_notMem_row hscanned hplain hstamp hsizes
  exact List.not_mem_append hnone (by decide) hc

-- ---------------------------------------------------------------------------
-- Identities
-- ---------------------------------------------------------------------------

/-- The weight of a text. A character other than a space weighs two. -/
def weight (text : List Char) : Nat :=
  (text.map fun c => if c = ' ' then 1 else 2).sum

theorem weight_append (text rest : List Char) :
    weight (text ++ rest) = weight text + weight rest := by
  simp [weight]

theorem length_le_weight (text : List Char) : text.length ≤ weight text := by
  induction text with
  | nil => exact Nat.le_refl 0
  | cons c rest ih =>
    simp only [weight, List.map_cons, List.sum_cons, List.length_cons] at ih ⊢
    split <;> omega

theorem eq_gap_of_weight {wide : List Char} (h : IsGap wide) (hweight : weight wide ≤ 2) :
    wide = gap := by
  obtain ⟨c, d, rfl⟩ : ∃ c d, wide = [c, d] :=
    List.length_eq_two.mp (Nat.le_antisymm (Nat.le_trans (length_le_weight wide) hweight) h.wide)
  by_cases hc : c = ' ' <;> by_cases hd : d = ' ' <;> simp_all [weight, gap]

/-- Narrowing makes a text lighter unless its wide gaps are two spaces. -/
theorem weight_narrowed (text : List Char) : weight (narrowed text) ≤ weight text ∧
    (weight (narrowed text) = weight text → ∀ wide ∈ wideGaps text, wide = gap) := by
  induction text using gap_induction with
  | nil => exact ⟨Nat.le_refl _, fun _ => List.forall_mem_nil _⟩
  | cons c rest h ih =>
    rw [narrowed_cons h, wideGaps_cons h, ← List.singleton_append, ← List.singleton_append,
      weight_append, weight_append]
    exact ⟨Nat.add_le_add_left ih.1 _, fun heq => ih.2 (Nat.add_left_cancel heq)⟩
  | gap wide rest hwide hrest ih =>
    have hgap : weight gap = 2 := rfl
    have hheavy := Nat.le_trans hwide.wide (length_le_weight wide)
    rw [narrowed_gap hwide hrest, wideGaps_gap hwide hrest, weight_append, weight_append, hgap]
    refine ⟨Nat.add_le_add hheavy ih.1, fun heq => List.forall_mem_cons.mpr ⟨?_, ih.2 ?_⟩⟩
    · exact eq_gap_of_weight hwide (by have := ih.1; omega)
    · have := ih.1
      omega

/-- The identity of a remark with its message narrowed. -/
def narrowedIdentity (a : Remark) : String :=
  fingerprintOf a.tag a.file (String.ofList (narrowed a.message.toList))

theorem weight_fingerprintOf (tag file message : String) :
    weight (fingerprintOf tag file message).toList =
      weight tag.toList + weight file.toList + weight message.toList + 4 := by
  have hbar : "|".toList = ['|'] := rfl
  have hweight : weight ['|'] = 2 := rfl
  simp only [fingerprintOf, String.toList_append, weight_append, hbar, hweight]
  omega

/-- Narrowing keeps the identities of remarks only if there is nothing to narrow. -/
theorem perm_narrowedIdentity {remarks : List Remark} :
    (remarks.map narrowedIdentity).Perm (remarks.map Remark.fingerprint) ↔
      ∀ a ∈ remarks, ∀ wide ∈ wideGaps a.message.toList, wide = gap := by
  constructor
  · intro hperm
    have hweight (a : Remark) :
        weight (narrowedIdentity a).toList ≤ weight a.fingerprint.toList := by
      have hle := (weight_narrowed a.message.toList).1
      rw [narrowedIdentity, Remark.fingerprint, weight_fingerprintOf, weight_fingerprintOf,
        String.toList_ofList]
      omega
    have hsum := (hperm.map fun text => weight text.toList).sum_eq
    rw [List.map_map, List.map_map] at hsum
    intro a ha
    have hsame : weight (narrowedIdentity a).toList = weight a.fingerprint.toList := by
      refine Nat.le_antisymm (hweight a) (Nat.le_of_not_lt fun hlt => ?_)
      have hless := List.sum_lt_sum _ _ (fun a _ => hweight a) ⟨a, ha, hlt⟩
      exact absurd hsum (Nat.ne_of_lt hless)
    refine (weight_narrowed a.message.toList).2 ?_
    rw [narrowedIdentity, Remark.fingerprint, weight_fingerprintOf, weight_fingerprintOf,
      String.toList_ofList] at hsame
    omega
  · intro h
    refine List.Perm.of_eq (List.map_congr_left fun a ha => ?_)
    rw [narrowedIdentity, narrowed_eq_self (h a ha), String.ofList_toList, Remark.fingerprint]

theorem fingerprint_readRow (stamp : String) (a : Remark) :
    (readRow stamp a).remark.fingerprint = narrowedIdentity a := rfl

end Marginalia.Snapshot
