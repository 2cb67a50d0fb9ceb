import Marginalia.Proofs.Ends
import Marginalia.Proofs.Text.Numeral
import Marginalia.Proofs.Text.Parts
import Marginalia.Snapshot.Reader
import Mathlib.Data.List.Forall2

/-!
# Snapshots line by line

What a line of a snapshot holds is said by the layouts alone: its columns are laid out in one of
three ways, and one of them names a place. A line that holds a row gives this row, and every other
one gives none, whatever stands on the lines around it. One kind of line is neither: the number of
its place is a text of digits that makes no number. There reading stops.
-/

namespace Marginalia.Snapshot

open Text (digitLimit isDecimal isDigit lines trim)

/-- The layouts of a row: all columns, no columns between tag and message, and no time either. -/
inductive LaidOut (defaultStamp : String) : List (List Char) → RawRow → Prop
  | full (h : priorityOf? name = some priority) : LaidOut defaultStamp
      (stamp :: place :: tag :: name :: owner :: date :: category :: ticket :: message)
      { stamp := String.ofList stamp, place, tag, message, priority
        owner := present? owner, date := present? date
        category := present? category, id := present? ticket }
  | stamped (h : rest.length < 4 ∨ priorityOf? first = none) : LaidOut defaultStamp
      (stamp :: place :: tag :: first :: rest)
      { stamp := String.ofList stamp, place, tag, message := first :: rest }
  | bare : LaidOut defaultStamp [place, tag, message]
      { stamp := defaultStamp, place, tag, message := [message] }

/-- A column that names a place: a file, a colon, and digits of any kind. -/
structure Names (column : List Char) (file : String) (digits : List Char) : Prop where
  column : column = file.toList ++ ':' :: digits
  file : file ≠ ""
  nonempty : digits ≠ []
  digits : ∀ c ∈ digits, isDigit c = true

structure IsNumeral (digits : List Char) : Prop where
  decimal : ∀ c ∈ digits, isDecimal c = true
  short : digits.length ≤ digitLimit

/-- The row of columns that name a place. -/
def RawRow.row (raw : RawRow) (file : String) (digits : List Char) : Row where
  stamp := raw.stamp
  remark := {
    file
    line := Text.ofDigits (digits.filterMap Text.decimalValue?)
    tag := Text.upper (String.ofList raw.tag)
    message := String.ofList (joinColumns raw.message)
    priority := raw.priority
    owner := raw.owner, date := raw.date, category := raw.category, id := raw.id }

/-- A line, other than a comment, that is laid out as a row and names a place. -/
structure Shows (defaultStamp : String) (line : List Char) (raw : RawRow) (file : String)
    (digits : List Char) : Prop where
  noComment : (trim line).head? ≠ some '#'
  laidOut : LaidOut defaultStamp (columns (trim line)) raw
  named : Names raw.place file digits

def Holds (defaultStamp : String) (line : List Char) (row : Row) : Prop :=
  ∃ raw file digits, Shows defaultStamp line raw file digits ∧ IsNumeral digits ∧
    row = raw.row file digits

/-- A line that looks like a row, but has no number where one is expected. -/
def Refused (defaultStamp : String) (line : List Char) : Prop :=
  ∃ raw file digits, Shows defaultStamp line raw file digits ∧ ¬ IsNumeral digits

/-- What a line adds to the rows of a snapshot. -/
def Contributes (defaultStamp : String) (line : List Char) (share : List Row) : Prop :=
  (∃ row, Holds defaultStamp line row ∧ share = [row]) ∨
    (∀ row, ¬ Holds defaultStamp line row) ∧ share = []

variable {defaultStamp stamp : String} {line column digits : List Char} {raw : RawRow} {row : Row}

-- ---------------------------------------------------------------------------
-- Columns
-- ---------------------------------------------------------------------------

theorem rawRow?_eq_some : rawRow? defaultStamp parts = some raw ↔
    LaidOut defaultStamp parts raw := by
  constructor
  · intro h
    unfold rawRow? at h
    split at h
    · rename_i stamp place tag first rest
      rcases rest with _ | ⟨owner, _ | ⟨date, _ | ⟨category, _ | ⟨ticket, message⟩⟩⟩⟩
      · cases h
        exact .stamped (.inl (by simp))
      · cases h
        exact .stamped (.inl (by simp))
      · cases h
        exact .stamped (.inl (by simp))
      · cases h
        exact .stamped (.inl (by simp))
      · cases hname : priorityOf? first with
        | some priority =>
          simp only [hname] at h
          cases h
          exact .full hname
        | none =>
          simp only [hname] at h
          cases h
          exact .stamped (.inr hname)
    · cases h
      exact .bare
    · cases h
  · intro h
    cases h with
    | full h => simp [rawRow?, h]
    | @stamped first _ _ _ rest h =>
      rcases rest with _ | ⟨owner, _ | ⟨date, _ | ⟨category, _ | ⟨ticket, message⟩⟩⟩⟩
      · rfl
      · rfl
      · rfl
      · rfl
      · have hname : priorityOf? first = none := h.resolve_left (by simp)
        simp [rawRow?, hname]
    | bare => rfl

theorem colon_notMem_of_isDigit (h : ∀ c ∈ digits, isDigit c = true) : ':' ∉ digits := by
  intro hmem
  exact absurd (h ':' hmem) (by decide)

theorem place?_eq_some : place? column = some (file, number) ↔
    ∃ digits, number = String.ofList digits ∧ Names column file digits := by
  constructor
  · intro h
    unfold place? at h
    split at h
    · rename_i before behind hsplit
      split at h
      · rename_i hnamed
        cases h
        simp only [Bool.and_eq_true, Bool.not_eq_true', List.isEmpty_eq_false_iff,
          List.all_eq_true] at hnamed
        obtain ⟨⟨hfile, hnumber⟩, hdigits⟩ := hnamed
        refine ⟨behind, rfl, ?_, by simpa using hfile, hnumber, hdigits⟩
        simpa using Text.splitLast?_eq_some hsplit
      · cases h
    · cases h
  · rintro ⟨digits, rfl, rfl, hfile, hne, hdigits⟩
    have hsplit := Text.splitLast?_append file.toList (colon_notMem_of_isDigit hdigits)
    have hall : digits.all isDigit = true := List.all_eq_true.mpr hdigits
    simp [place?, hsplit, hfile, hne, hall]

theorem isNumeral_iff (hnamed : Names column file digits) : IsNumeral digits ↔
    Text.readInt (String.ofList digits) =
      .ok (Text.ofDigits (digits.filterMap Text.decimalValue?)) := by
  rw [Text.readInt_eq_ok hnamed.nonempty hnamed.digits]
  constructor
  · rintro ⟨hdecimal, hshort⟩
    exact ⟨hdecimal, hshort, rfl⟩
  · rintro ⟨hdecimal, hshort, -⟩
    exact ⟨hdecimal, hshort⟩

theorem readRaw_numeral (hnamed : Names raw.place file digits) (h : IsNumeral digits) :
    raw.read = .ok (some (raw.row file digits)) := by
  have hplace := place?_eq_some.mpr ⟨digits, rfl, hnamed⟩
  simp [RawRow.read, hplace, (isNumeral_iff hnamed).mp h, RawRow.row]

theorem readRaw_refused (hnamed : Names raw.place file digits) (h : ¬ IsNumeral digits) :
    ∃ fault, raw.read = .error (.numeral fault) := by
  have hplace := place?_eq_some.mpr ⟨digits, rfl, hnamed⟩
  cases hnumber : Text.readInt (String.ofList digits) with
  | error fault => exact ⟨fault, by simp [RawRow.read, hplace, hnumber]⟩
  | ok n =>
    obtain ⟨hdecimal, hshort, -⟩ := (Text.readInt_eq_ok hnamed.nonempty hnamed.digits).mp hnumber
    exact absurd ⟨hdecimal, hshort⟩ h

theorem readRaw_unnamed (h : ∀ file digits, ¬ Names raw.place file digits) :
    raw.read = .ok none := by
  cases hplace : place? raw.place with
  | none => simp [RawRow.read, hplace]
  | some found =>
    obtain ⟨digits, -, hnamed⟩ := place?_eq_some.mp hplace
    exact absurd hnamed (h _ digits)

-- ---------------------------------------------------------------------------
-- One line
-- ---------------------------------------------------------------------------

theorem Shows.readLine_eq (h : Shows defaultStamp line raw file digits) :
    readLine defaultStamp line = raw.read := by
  have hne : trim line ≠ [] := by
    intro hnil
    have hlaid := h.laidOut
    rw [hnil] at hlaid
    cases hlaid
  simp [readLine, hne, h.noComment, rawRow?_eq_some.mpr h.laidOut]

theorem Holds.readLine_eq (h : Holds defaultStamp line row) :
    readLine defaultStamp line = .ok (some row) := by
  obtain ⟨raw, file, digits, hshows, hnumeral, rfl⟩ := h
  rw [hshows.readLine_eq, readRaw_numeral hshows.named hnumeral]

theorem Refused.readLine_eq (h : Refused defaultStamp line) :
    ∃ fault, readLine defaultStamp line = .error (.numeral fault) := by
  obtain ⟨raw, file, digits, hshows, hnumeral⟩ := h
  rw [hshows.readLine_eq]
  exact readRaw_refused hshows.named hnumeral

theorem not_refused_of_ok (h : readLine defaultStamp line = .ok found) :
    ¬ Refused defaultStamp line := by
  intro hrefused
  obtain ⟨fault, hfault⟩ := hrefused.readLine_eq
  rw [h] at hfault
  cases hfault

theorem readLine_eq_none (hholds : ∀ row, ¬ Holds defaultStamp line row)
    (hrefused : ¬ Refused defaultStamp line) : readLine defaultStamp line = .ok none := by
  simp only [readLine]
  split
  · rfl
  · rename_i hcomment
    split
    · rfl
    · rename_i raw hraw
      refine readRaw_unnamed fun file digits hnamed => ?_
      have hshows : Shows defaultStamp line raw file digits :=
        ⟨by simp_all, rawRow?_eq_some.mp hraw, hnamed⟩
      by_cases hnumeral : IsNumeral digits
      · exact hholds _ ⟨raw, file, digits, hshows, hnumeral, rfl⟩
      · exact hrefused ⟨raw, file, digits, hshows, hnumeral⟩

/-- A line holds at most one row. -/
theorem Holds.unique (h : Holds defaultStamp line row) (h' : Holds defaultStamp line row') :
    row = row' := by
  have hsame := h.readLine_eq.symm.trans h'.readLine_eq
  simpa using hsame

theorem exists_share (h : ¬ Refused defaultStamp line) : ∃ found,
    readLine defaultStamp line = .ok found ∧ Contributes defaultStamp line found.toList := by
  by_cases hholds : ∃ row, Holds defaultStamp line row
  · obtain ⟨row, hrow⟩ := hholds
    exact ⟨some row, hrow.readLine_eq, .inl ⟨row, hrow, rfl⟩⟩
  · have hnone : ∀ row, ¬ Holds defaultStamp line row := not_exists.mp hholds
    exact ⟨none, readLine_eq_none hnone h, .inr ⟨hnone, rfl⟩⟩

-- ---------------------------------------------------------------------------
-- All lines
-- ---------------------------------------------------------------------------

theorem readLines_shares {l : List (List Char)} (h : ∀ line ∈ l, ¬ Refused defaultStamp line) :
    ∃ shares, List.Forall₂ (Contributes defaultStamp) l shares ∧
      readLines defaultStamp l = .ok shares.flatten := by
  induction l with
  | nil => exact ⟨[], .nil, rfl⟩
  | cons line rest ih =>
    obtain ⟨hline, hrest⟩ := List.forall_mem_cons.mp h
    obtain ⟨found, hfound, hshare⟩ := exists_share hline
    obtain ⟨shares, hshares, hrows⟩ := ih hrest
    refine ⟨found.toList :: shares, .cons hshare hshares, ?_⟩
    simp [readLines, hfound, hrows, bind, Except.bind]

theorem readLines_refused {front rest : List (List Char)}
    (hfront : ∀ earlier ∈ front, ¬ Refused defaultStamp earlier) (h : Refused defaultStamp line) :
    ∃ fault, readLines defaultStamp (front ++ line :: rest) = .error (.numeral fault) := by
  induction front with
  | nil =>
    obtain ⟨fault, hfault⟩ := h.readLine_eq
    exact ⟨fault, by simp [readLines, hfault, bind, Except.bind]⟩
  | cons first front ih =>
    obtain ⟨hfirst, hfront⟩ := List.forall_mem_cons.mp hfront
    obtain ⟨found, hfound, -⟩ := exists_share hfirst
    obtain ⟨fault, hfault⟩ := ih hfront
    exact ⟨fault, by simp [readLines, hfound, hfault, bind, Except.bind]⟩

/-- The time of rows without one: that of the title, or else the present one. -/
def StampFor (text : String) (clock : Except Fault String) (stamp : String) : Prop :=
  headerTime? text = some stamp ∨ headerTime? text = none ∧ clock = .ok stamp

theorem StampFor.read_eq (h : StampFor text clock stamp) :
    read clock text = readLines stamp (lines text.toList) := by
  rcases h with htitle | ⟨htitle, rfl⟩ <;> simp [read, htitle, bind, Except.bind]

/-- Every line of a snapshot adds what it holds on its own, and none stops the others from being
read, unless some line has a text of digits for a number that makes none. Then the first such line
stops it all. -/
theorem read_line_by_line (h : StampFor text clock stamp) :
    ((∀ line ∈ lines text.toList, ¬ Refused stamp line) →
      ∃ shares, List.Forall₂ (Contributes stamp) (lines text.toList) shares ∧
        read clock text = .ok shares.flatten) ∧
    ∀ front line rest, lines text.toList = front ++ line :: rest →
      (∀ earlier ∈ front, ¬ Refused stamp earlier) → Refused stamp line →
      ∃ fault, read clock text = .error (.numeral fault) := by
  rw [h.read_eq]
  constructor
  · intro hlines
    exact readLines_shares hlines
  · intro front line rest hsplit hfront hline
    rw [hsplit]
    exact readLines_refused hfront hline

/-- A title, a line without columns, one without a line number, and a row. -/
def mixedSnapshot : String :=
  "# Inline-issue snapshot 2024-12-31 23:59:59\ngarbage\na.py:x  TODO  m\na:b.py:3  bug  crash"

theorem read_line_by_line_mixedSnapshot :
    StampFor mixedSnapshot (.error .dateRange) "2024-12-31 23:59:59" ∧
      (∀ line ∈ lines mixedSnapshot.toList, ¬ Refused "2024-12-31 23:59:59" line) ∧
      ∃ shares, List.Forall₂ (Contributes "2024-12-31 23:59:59")
          (lines mixedSnapshot.toList) shares ∧
        read (.error .dateRange) mixedSnapshot = .ok shares.flatten := by
  have hstamp : StampFor mixedSnapshot (.error .dateRange) "2024-12-31 23:59:59" :=
    .inl (by decide +kernel)
  have hlines : ∀ line ∈ lines mixedSnapshot.toList,
      (readLine "2024-12-31 23:59:59" line).isOk = true := by decide +kernel
  have hrefused : ∀ line ∈ lines mixedSnapshot.toList, ¬ Refused "2024-12-31 23:59:59" line := by
    intro line hline
    obtain ⟨found, hfound⟩ := isOk_iff.mp (hlines line hline)
    exact not_refused_of_ok hfound
  exact ⟨hstamp, hrefused, (read_line_by_line hstamp).1 hrefused⟩

/-- A superscript is a digit, but no part of a number: the row behind it is lost. -/
theorem read_stops_at_superscript :
    (∀ rows, read (.ok "2026-01-17 12:00:00") "a.py:²  TODO  x\nb.py:1  TODO  kept" ≠ .ok rows) ∧
      read (.ok "2026-01-17 12:00:00") "b.py:1  TODO  kept" = .ok [
        ⟨"2026-01-17 12:00:00",
          { file := "b.py", line := 1, tag := "TODO", message := "kept" }⟩] := by
  constructor
  · intro rows hrows
    have hfault : (read (.ok "2026-01-17 12:00:00")
        "a.py:²  TODO  x\nb.py:1  TODO  kept").isOk = false := by decide +kernel
    rw [hrows] at hfault
    cases hfault
  · apply toOption_eq_some.mp
    decide +kernel

end Marginalia.Snapshot
