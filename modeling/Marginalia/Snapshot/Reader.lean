import Marginalia.Remark.Observation
import Marginalia.Snapshot.Columns
import Marginalia.Snapshot.Writer
import Marginalia.Text.Case
import Marginalia.Text.Lines

/-!
# Reading snapshots

Rows are read in three layouts: all columns; time, place, tag and message; or place, tag and
message. Blank lines, comments and lines in no layout are passed over. Rows without a time take
the one of the title.
-/

namespace Marginalia.Snapshot

open Text (isBlank isDecimal isDigit trim upper lowerChars splitLast? dropPart? lines)

/-- One remark as a snapshot has it, with its time. -/
structure Row where
  stamp : String
  remark : Remark
  deriving DecidableEq, Repr

/-- At least one blank in front of a text: the blanks, and the rest. -/
def takeGap? (text : List Char) : Option (List Char × List Char) :=
  match text.takeWhile isBlank with
  | [] => none
  | gap => some (gap, text.dropWhile isBlank)

/-- The text in front that follows a pattern: `0` stands for any decimal digit, a blank for one
or more blanks, and every other character for itself. -/
def takePattern? : (pattern text : List Char) → Option (List Char)
  | [], _ => some []
  | p :: pattern, text =>
    if p == ' ' then do
      let (gap, rest) ← takeGap? text
      (takePattern? pattern rest).map (gap ++ ·)
    else
      match text with
      | [] => none
      | c :: rest =>
        if (if p == '0' then isDecimal c else c == p) then
          (takePattern? pattern rest).map (c :: ·)
        else none

/-- The time of a title that starts behind this `#`. -/
def titleTime? (text : List Char) : Option (List Char) := do
  let rest ← dropPart? "Inline-issue".toList (text.dropWhile isBlank)
  let (_, rest) ← takeGap? rest
  let rest ← dropPart? "snapshot".toList rest
  let (_, rest) ← takeGap? rest
  takePattern? "0000-00-00 00:00:00".toList rest

/-- The time of the first title in a text. -/
def findTime? : List Char → Option (List Char)
  | [] => none
  | c :: rest =>
    match if c == '#' then titleTime? rest else none with
    | some time => some time
    | none => findTime? rest

/-- The time in the title of a snapshot. -/
def headerTime? (text : String) : Option String :=
  (findTime? text.toList).map String.ofList

/-- A value, unless it is the sign for an absent one. -/
def present? (value : List Char) : Option String :=
  if value == missing.toList then none else some (String.ofList value)

/-- The priority that a column names, in letters of any size. -/
def priorityOf? (column : List Char) : Option Priority :=
  Priority.ofName? (String.ofList (lowerChars column))

/-- A file and a line number, not read yet. The number consists of digits. -/
def place? (column : List Char) : Option (String × String) :=
  match splitLast? ':' column with
  | some (file, number) =>
    if !file.isEmpty && !number.isEmpty && number.all isDigit then
      some (String.ofList file, String.ofList number)
    else none
  | none => none

/-- A row whose place is not read yet. -/
structure RawRow where
  stamp : String
  place : List Char
  tag : List Char
  message : List (List Char)
  priority : Priority := .normal
  owner : Option String := none
  date : Option String := none
  category : Option String := none
  id : Option String := none

/-- The columns of a row in one of the three layouts. -/
def rawRow? (defaultStamp : String) (parts : List (List Char)) : Option RawRow :=
  match parts with
  | stamp :: place :: tag :: fourth :: rest =>
    match rest, priorityOf? fourth with
    | owner :: date :: category :: id :: message, some priority =>
      some { stamp := String.ofList stamp, place, tag, message, priority
             owner := present? owner, date := present? date
             category := present? category, id := present? id }
    | _, _ => some { stamp := String.ofList stamp, place, tag, message := fourth :: rest }
  | [place, tag, message] => some { stamp := defaultStamp, place, tag, message := [message] }
  | _ => none

/-- The row with its line number read. A digit that takes no part in numbers is a fault. -/
def RawRow.read (raw : RawRow) : Except Fault (Option Row) :=
  match place? raw.place with
  | none => .ok none
  | some (file, number) =>
    match Text.readInt number with
    | .error fault => .error (.numeral fault)
    | .ok line =>
      .ok (some {
        stamp := raw.stamp
        remark := {
          file, line
          tag := upper (String.ofList raw.tag)
          message := String.ofList (joinColumns raw.message)
          priority := raw.priority
          owner := raw.owner, date := raw.date, category := raw.category, id := raw.id } })

/-- What one line of a snapshot holds. -/
def readLine (defaultStamp : String) (line : List Char) : Except Fault (Option Row) :=
  let text := trim line
  if text.isEmpty || text.head? == some '#' then .ok none
  else
    match rawRow? defaultStamp (columns text) with
    | none => .ok none
    | some raw => raw.read

/-- The rows of a list of lines. -/
def readLines (defaultStamp : String) : List (List Char) → Except Fault (List Row)
  | [] => .ok []
  | line :: rest => do
    let row ← readLine defaultStamp line
    let rows ← readLines defaultStamp rest
    .ok (row.toList ++ rows)

/-- The rows of a snapshot. The time for rows without one is asked for only if there is no
title. -/
def read (now : Except Fault String) (text : String) : Except Fault (List Row) := do
  let stamp ← match headerTime? text with
    | some time => .ok time
    | none => now
  readLines stamp (lines text.toList)

namespace Row

def toData (row : Row) : Data :=
  match row.remark.toData with
  | .object fields => .object (("timestamp", .text row.stamp) :: fields)
  | other => other

end Row

end Marginalia.Snapshot
