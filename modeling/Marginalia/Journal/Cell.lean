import Marginalia.Fault
import Marginalia.Journal.Numeral

/-!
# Cells of tables

Values as the tables of the journal hold them. Whole numbers have 64 bits. A column of texts
turns numbers into texts, and a column of whole numbers turns other values into whole numbers
where nothing is lost.
-/

namespace Marginalia.Journal

open Decimal (Binary64)

inductive Cell
  | null
  | int (n : Int)
  | real (x : Binary64)
  | text (s : String)
  deriving BEq, Repr

namespace Cell

/-- The cell for a value, the `index`-th parameter of a statement. -/
def ofData (index : Nat) (value : Data) : Except Fault Cell :=
  match value with
  | .null => .ok null
  | .bool b => .ok (int b.toNat)
  | .int n => if fits n then .ok (int n) else .error .storedRange
  | .float .nan => .ok null
  | .float x => .ok (real x)
  | .text s => .ok (text s)
  | other => .error (.parameter index other.kind)

def toData : Cell → Data
  | null => .null
  | int n => .int n
  | real x => .float x
  | text s => .text s

/-- The cell for a cell in a column of texts. -/
def asText : Cell → Option String
  | null => none
  | int n => some (toString n)
  | real (.finite _ 0 _) => some "0.0"
  | real x => some x.storedText
  | text s => some s

/-- A number as a whole number if it is one of 64 bits; the least and the greatest of these do not
count. -/
def wholeIfExact (x : Binary64) : Cell :=
  match x.toInt? with
  | some n => if leastInt < n && n < greatestInt then int n else real x
  | none => real x

/-- The cell for a cell in a column of whole numbers. -/
def asNumber : Cell → Cell
  | real x => wholeIfExact x
  | text s =>
    match numberOf? s with
    | some (.inl n) => int n
    | some (.inr x) => wholeIfExact x
    | none => text s
  | cell => cell

/-- The whole number that a cell stands for. -/
def whole? (cell : Cell) : Option Int :=
  match cell.asNumber with
  | int n => some n
  | _ => none

end Cell

end Marginalia.Journal
