import Marginalia.Proofs.Snapshot.Lines
import Marginalia.Proofs.Snapshot.RoundTrip

/-!
# Older rows

Rows of the two older layouts have no columns for priority, owner, date, category and id, and one of
them has no time. Among comments and blank lines they are read back, column by column, whatever
blanks the gaps are made of. A message with wide gaps makes more columns: a row with a time is
taken for one with all columns from five parts on, and only if the first part names a priority.
-/

namespace Marginalia.Snapshot

open Text (digitLimit isAsciiDigit isBlank lines trim)

/-- The columns of an older row without its time, and the gaps between them. -/
structure Body where
  file : List Char
  digits : List Char
  beforeTag : List Char
  tag : List Char
  beforeMessage : List Char
  message : List Char

namespace Body

def place (body : Body) : List Char := body.file ++ ':' :: body.digits

def text (body : Body) : List Char :=
  body.place ++ (body.beforeTag ++ (body.tag ++ (body.beforeMessage ++ body.message)))

/-- The row that these columns are read as. -/
def row (body : Body) (stamp : String) : Row where
  stamp
  remark := {
    file := String.ofList body.file
    line := Nat.ofDigitChars 10 body.digits 0
    tag := Text.upper (String.ofList body.tag)
    message := String.ofList (narrowed (trim body.message)) }

def raw (body : Body) (stamp : String) : RawRow where
  stamp
  place := body.place
  tag := body.tag
  message := columns (trim body.message)

structure Legible (body : Body) : Prop where
  file : body.file ≠ []
  start : startsBlank body.file = false
  narrow : wideGaps body.file = []
  number : body.digits ≠ []
  digits : ∀ c ∈ body.digits, isAsciiDigit c = true
  short : body.digits.length ≤ digitLimit
  tag : Fills body.tag
  beforeTag : IsGap body.beforeTag
  beforeMessage : IsGap body.beforeMessage

end Body

/-- A line of a snapshot in an older layout. -/
inductive Item
  | comment (indent rest : List Char)
  | blank (text : List Char)
  | bare (body : Body)
  | stamped (time wide : List Char) (body : Body)

namespace Item

def text : Item → List Char
  | comment indent rest => indent ++ '#' :: rest
  | blank text => text
  | bare body => body.text
  | stamped time wide body => time ++ (wide ++ body.text)

def row? (defaultStamp : String) : Item → Option Row
  | comment _ _ | blank _ => none
  | bare body => some (body.row defaultStamp)
  | stamped time _ body => some (body.row (String.ofList time))

/-- A message that leaves a row with a time in its layout: it has at most four parts, or the first
of them names no priority. -/
structure Plain (message : List Char) : Prop where
  nonblank : trim message ≠ []
  parts : (columns (trim message)).length ≤ 4 ∨
    ∀ first ∈ (columns (trim message)).head?, priorityOf? first = none

def Legible : Item → Prop
  | comment indent _ => ∀ c ∈ indent, isBlank c = true
  | blank text => ∀ c ∈ text, isBlank c = true
  | bare body => body.Legible ∧ body.file.head? ≠ some '#' ∧ Fills body.message
  | stamped time wide body => body.Legible ∧ Fills time ∧ time.head? ≠ some '#' ∧ IsGap wide ∧
      Plain body.message

end Item

/-- Lines with newlines between them. -/
def textOf (items : List Item) : String :=
  String.ofList (['\n'].intercalate (items.map Item.text))

variable {body : Body} {item : Item} {items : List Item} {stamp : String}

-- ---------------------------------------------------------------------------
-- Columns
-- ---------------------------------------------------------------------------

namespace Body

theorem Legible.fills_place (h : body.Legible) : Fills body.place :=
  fills_append h.file h.start h.narrow (List.cons_ne_nil _ _) (not_blank_number h.digits)

theorem Legible.names (h : body.Legible) :
    Names body.place (String.ofList body.file) body.digits where
  column := by simp [place]
  file := by simpa using h.file
  nonempty := h.number
  digits c hc := Text.isDigit_of_isDecimal (Text.isDecimal_digit (h.digits c hc))

theorem Legible.isNumeral (h : body.Legible) : IsNumeral body.digits :=
  ⟨fun c hc => Text.isDecimal_digit (h.digits c hc), h.short⟩

theorem Legible.columns_text (h : body.Legible) :
    columns (trim body.text) = body.place :: body.tag :: columns (trim body.message) := by
  rw [text, columns_trim_append h.beforeTag, columns_trim_append h.beforeMessage,
    h.fills_place.trimmed, h.fills_place.columns, h.tag.trimmed, h.tag.columns]
  rfl

theorem Legible.row_raw (h : body.Legible) (stamp : String) :
    (body.raw stamp).row (String.ofList body.file) body.digits = body.row stamp := by
  simp [raw, RawRow.row, row, Text.ofDigits_digits h.digits, joinColumns_columns]

/-- A line that is laid out with these columns holds their row. -/
theorem Legible.holds (h : body.Legible) (hcomment : (trim line).head? ≠ some '#')
    (hlaid : LaidOut defaultStamp (columns (trim line)) (body.raw stamp)) :
    Holds defaultStamp line (body.row stamp) :=
  ⟨body.raw stamp, _, _, ⟨hcomment, hlaid, h.names⟩, h.isNumeral, (h.row_raw stamp).symm⟩

end Body

-- ---------------------------------------------------------------------------
-- Lines
-- ---------------------------------------------------------------------------

namespace Item

theorem holds_bare (h : (bare body).Legible) (defaultStamp : String) :
    Holds defaultStamp body.text (body.row defaultStamp) := by
  obtain ⟨hbody, hcomment, hmessage⟩ := h
  apply hbody.holds
  · rw [Body.text, hbody.fills_place.head?_trim_append, Body.place,
      List.head?_append_of_ne_nil _ hbody.file]
    exact hcomment
  · have hcolumns : columns (trim body.message) = [body.message] := by
      rw [hmessage.trimmed, hmessage.columns]
    rw [hbody.columns_text, Body.raw, hcolumns]
    exact .bare

theorem holds_stamped (h : (stamped time wide body).Legible) (defaultStamp : String) :
    Holds defaultStamp (time ++ (wide ++ body.text)) (body.row (String.ofList time)) := by
  obtain ⟨hbody, htime, hcomment, hgap, hmessage⟩ := h
  apply hbody.holds
  · rwa [htime.head?_trim_append]
  · have hcolumns := columns_eq_splitWide (Text.trim_trim body.message) hmessage.nonblank
    obtain ⟨first, rest, hparts⟩ := List.exists_cons_of_ne_nil
      (splitWide_ne_nil (trim body.message))
    have hplain := hmessage.parts
    rw [hparts] at hcolumns
    simp only [hcolumns, List.length_cons, List.head?_cons, Option.mem_some_iff] at hplain
    rw [columns_trim_append hgap, htime.trimmed, htime.columns, hbody.columns_text, Body.raw,
      hcolumns]
    exact .stamped (hplain.imp (fun hfew => by omega) fun hname => hname first rfl)

theorem readLine_indented (h : ∀ c ∈ indent, isBlank c = true) (stamp : String)
    (line : List Char) : readLine stamp (indent ++ line) = readLine stamp line := by
  have htrim := Text.trim_append_append h (List.forall_mem_nil _) line
  rw [List.append_nil] at htrim
  simp only [readLine, htrim]

theorem readLine_text (h : item.Legible) (stamp : String) :
    readLine stamp item.text = .ok (item.row? stamp) := by
  cases item with
  | comment indent rest => exact (readLine_indented h stamp _).trans (readLine_comment stamp rest)
  | blank text =>
    have hblank := readLine_indented h stamp []
    rw [List.append_nil] at hblank
    exact hblank
  | bare body => exact (holds_bare h stamp).readLine_eq
  | stamped time wide body => exact (holds_stamped h stamp).readLine_eq

end Item

-- ---------------------------------------------------------------------------
-- Snapshots
-- ---------------------------------------------------------------------------

theorem readLines_items (h : ∀ item ∈ items, item.Legible) (stamp : String) :
    readLines stamp (items.map Item.text) = .ok (items.filterMap (Item.row? stamp)) := by
  induction items with
  | nil => rfl
  | cons item rest ih =>
    obtain ⟨hitem, hrest⟩ := List.forall_mem_cons.mp h
    rw [List.map_cons, readLines_cons (Item.readLine_text hitem stamp) (ih hrest)]
    cases hrow : item.row? stamp <;> simp [hrow]

/-- Comments and blank lines give no rows, and the rows of older layouts are read back as what they
say. -/
theorem older_rows_read_back (h : ∀ item ∈ items, item.Legible ∧ '\n' ∉ item.text)
    (hstamp : StampFor (textOf items) clock stamp) :
    read clock (textOf items) = .ok (items.filterMap (Item.row? stamp)) := by
  rw [hstamp.read_eq, textOf, String.toList_ofList]
  cases items with
  | nil => rfl
  | cons item rest =>
    have hlines : ∀ line ∈ (item :: rest).map Item.text, '\n' ∉ line := by
      rw [List.forall_mem_map]
      exact fun item hitem => (h item hitem).2
    rw [lines, Text.splitOn_intercalate hlines (by simp)]
    exact readLines_items (fun item hitem => (h item hitem).1) stamp

/-- A comment, a blank line, a row without a time, and one with a time and five parts. -/
def olderItems : List Item := [
  .comment [' '] "old".toList, .blank ['\t'],
  .bare ⟨"C:/a b.c".toList, "007".toList, "  ".toList, "todo".toList, "\t\t".toList, "x".toList⟩,
  .stamped "then".toList "   ".toList ⟨"b".toList, "12".toList, "  ".toList, "Bug".toList,
    "  ".toList, "1  2   3  low  5".toList⟩]

theorem older_rows_read_back_olderItems :
    (∀ item ∈ olderItems, item.Legible ∧ '\n' ∉ item.text) ∧
      StampFor (textOf olderItems) (.ok "now") "now" ∧
      read (.ok "now") (textOf olderItems) = .ok [
        ⟨"now", { file := "C:/a b.c", line := 7, tag := "TODO", message := "x" }⟩,
        ⟨"then", { file := "b", line := 12, tag := "BUG", message := "1  2  3  low  5" }⟩] := by
  have hlegible : ∀ item ∈ olderItems, item.Legible ∧ '\n' ∉ item.text := by
    have hgap (c : Char) (hc : isBlank c = true) : IsGap [c, c] := ⟨by simp [hc], Nat.le_refl 2⟩
    have hspace := hgap ' ' (by decide)
    have hbare : Body.Legible ⟨"C:/a b.c".toList, "007".toList, "  ".toList, "todo".toList,
        "\t\t".toList, "x".toList⟩ :=
      ⟨by decide, by decide, by decide, by decide, List.all_eq_true.mp (by decide), by decide,
        ⟨by decide, by decide, by decide⟩, hspace, hgap '\t' (by decide)⟩
    have hstamped : Body.Legible ⟨"b".toList, "12".toList, "  ".toList, "Bug".toList, "  ".toList,
        "1  2   3  low  5".toList⟩ :=
      ⟨by decide, by decide, by decide, by decide, List.all_eq_true.mp (by decide), by decide,
        ⟨by decide, by decide, by decide⟩, hspace, hspace⟩
    have hwide : IsGap "   ".toList := ⟨List.all_eq_true.mp (by decide), by decide⟩
    have hplain : Item.Plain "1  2   3  low  5".toList :=
      ⟨by decide, .inr (by decide +kernel)⟩
    simp only [olderItems, List.forall_mem_cons]
    have hindent (c : Char) (hc : isBlank c = true) : ∀ d ∈ [c], isBlank d = true :=
      List.forall_mem_singleton.mpr hc
    refine ⟨⟨hindent ' ' (by decide), by decide⟩, ⟨hindent '\t' (by decide), by decide⟩,
      ⟨?_, by decide⟩, ⟨?_, by decide⟩, List.forall_mem_nil _⟩
    · exact ⟨hbare, by decide, by decide, by decide, by decide⟩
    · exact ⟨hstamped, ⟨by decide, by decide, by decide⟩, by decide, hwide, hplain⟩
  have hstamp : StampFor (textOf olderItems) (.ok "now") "now" := .inr ⟨by decide +kernel, rfl⟩
  have hrows : olderItems.filterMap (Item.row? "now") = [
      ⟨"now", { file := "C:/a b.c", line := 7, tag := "TODO", message := "x" }⟩,
      ⟨"then", { file := "b", line := 12, tag := "BUG", message := "1  2  3  low  5" }⟩] := by
    decide +kernel
  exact ⟨hlegible, hstamp, hrows ▸ older_rows_read_back hlegible hstamp⟩

/-- Five parts of which the first names a priority are the columns of the present layout. -/
example : (read (.ok "now") "then  b:12  Bug  low  2  3  4  5").toOption = some [⟨"then",
    { file := "b", line := 12, tag := "BUG", message := "", priority := .low, owner := some "2",
      date := some "3", category := some "4", id := some "5" }⟩] := by decide +kernel

end Marginalia.Snapshot
