import Marginalia.Remark.Observation
import Marginalia.Snapshot.Columns

/-!
# Writing snapshots

A snapshot has a title with its time, a line that names the columns, a blank line, and one row
for each remark. Each column but the first and the last is padded to its widest value, and
two blanks stand between columns.
-/

namespace Marginalia.Snapshot

def title : String := "Inline-issue snapshot"

def columnNames : List String :=
  ["timestamp", "path:line", "tag", "priority", "owner", "date", "category", "id", "message"]

/-- The columns that are padded. -/
def paddedNames : List String :=
  ["path:line", "tag", "priority", "owner", "date", "category", "id"]

/-- What stands for an absent value. -/
def missing : String := "-"

/-- The padded values of a row and the message behind them. -/
structure Cells where
  padded : List String
  message : String
  deriving DecidableEq, Repr

/-- A value, or the sign for an absent one if there is none or it is empty. -/
def orMissing (value : Option String) : String :=
  match value with
  | none => missing
  | some s => if s.isEmpty then missing else s

def Cells.ofRemark (a : Remark) : Cells where
  padded := [a.location, a.tag, a.priority.name, orMissing a.owner, orMissing a.date,
    orMissing a.category, orMissing a.id]
  message := a.message

/-- Whether a remark may stand before another one in a snapshot: the more severe first, then
by file, then by line. -/
def inOrder (a b : Remark) : Bool :=
  a.priority.rank < b.priority.rank || (a.priority.rank == b.priority.rank &&
    (a.file < b.file || (a.file == b.file && a.line ≤ b.line)))

/-- The remarks in the order of a snapshot; equal ones keep their order. -/
def sort (remarks : List Remark) : List Remark :=
  remarks.mergeSort inOrder

/-- The widths of columns with given names: those of the widest values. -/
def widths : (names : List String) → (rows : List (List String)) → List Nat
  | [], _ => []
  | name :: names, rows =>
    let column := rows.filterMap List.head?
    (column.map String.length).foldl max name.length :: widths names (rows.map List.tail)

/-- A value with blanks behind it up to a width. -/
def pad (value : String) (width : Nat) : List Char :=
  value.toList ++ List.replicate (width - value.length) ' '

/-- One row: the time, the padded values and the message. -/
def row (stamp : String) (widths : List Nat) (cells : Cells) : List Char :=
  joinColumns (stamp.toList :: List.zipWith pad cells.padded widths ++ [cells.message.toList])

def header (stamp : String) : List Char :=
  '#' :: ' ' :: title.toList ++ ' ' :: stamp.toList ++ '\n' ::
    "# Columns:  ".toList ++ joinColumns (columnNames.map String.toList) ++ ['\n', '\n']

/-- The text of a snapshot with rows in a given order. -/
def layout (stamp : String) (rows : List Cells) : String :=
  let widths := widths paddedNames (rows.map Cells.padded)
  String.ofList (header stamp ++ rows.flatMap fun cells => row stamp widths cells ++ ['\n'])

/-- The text of a snapshot of remarks at a time. -/
def write (stamp : String) (remarks : List Remark) : String :=
  layout stamp ((sort remarks).map Cells.ofRemark)

end Marginalia.Snapshot
