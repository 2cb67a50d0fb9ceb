import Marginalia.Decimal.Reading
import Marginalia.Fault
import Marginalia.Text.Parts

/-!
# Looking into data

What happens when a value is taken for an object, a list or a number. Membership is defined for
objects, lists and texts; taking an entry only for objects.
-/

namespace Marginalia.Data

/-- The entry of a key, if the value has the key. A text has the keys that occur in it and a list
has its items, but neither has entries. -/
def member? (d : Data) (key : String) : Except Fault (Option Data) :=
  match d with
  | object entries => .ok (valueOf? entries key)
  | text s => if Text.occursIn key.toList s.toList then .error .textIndexed else .ok none
  | list items => if items.contains (text key) then .error .listIndexed else .ok none
  | other => .error (.noMembership other.kind)

/-- The entry of a key. -/
def lookUp? (d : Data) (key : String) : Except Fault (Option Data) :=
  match d with
  | object entries => .ok (valueOf? entries key)
  | other => .error (.noMember other.kind "get")

/-- The entry of a key that has to be there. -/
def require (d : Data) (key : String) : Except Fault Data :=
  match d with
  | object entries =>
    match valueOf? entries key with
    | some value => .ok value
    | none => .error (.missingEntry key)
  | text _ => .error .textIndexed
  | list _ => .error .listIndexed
  | other => .error (.noEntries other.kind)

/-- The items of a list, the characters of a text, or the keys of an object. -/
def iterate : Data → Except Fault (List Data)
  | list items => .ok items
  | text s => .ok (s.toList.map fun c => text (String.ofList [c]))
  | object entries => .ok (entries.map fun (key, _) => text key)
  | other => .error (.notIterable other.kind)

/-- How deep a value may be nested that is written as a text. -/
def detailDepth : Nat := 990

/-- Refuses a value when no level is left for it. -/
def checkLevels (levels : Nat) : Except Fault Unit :=
  if levels == 0 then .error (.nested " while getting the repr of an object") else .ok ()

mutual

/-- Refuses values that cannot be written: those nested deeper than so many levels, and numbers
with too many digits. -/
def checkDetail (levels : Nat) : Data → Except Fault Unit
  | int n => do
    checkLevels levels
    if Text.isWritable n then .ok () else .error (.numeral .unwritable)
  | list items => do
    checkLevels levels
    checkItems (levels - 1) items
  | object entries => do
    checkLevels levels
    checkEntries (levels - 1) entries
  | _ => checkLevels levels

def checkItems (levels : Nat) : List Data → Except Fault Unit
  | [] => .ok ()
  | item :: rest => do
    checkDetail levels item
    checkItems levels rest

def checkEntries (levels : Nat) : List (String × Data) → Except Fault Unit
  | [] => .ok ()
  | (_, value) :: rest => do
    checkDetail levels value
    checkEntries levels rest

end

/-- The text of a value on its own, unless it cannot be written. -/
def written (d : Data) : Except Fault String :=
  match d with
  | text s => .ok s
  | value => (checkDetail detailDepth value).map fun () => value.shown

/-- A text, asked for an operation that other values lack. -/
def textFor (member : String) : Data → Except Fault String
  | text s => .ok s
  | other => .error (.noMember other.kind member)

/-- The value as a number that may have a fraction. -/
def toReal : Data → Except Fault Decimal.Binary64
  | bool b => .ok (if b then .ofRatio false 1 1 else .zero)
  | int n =>
    match Decimal.Binary64.ofInt? n with
    | some x => .ok x
    | none => .error .realRange
  | float x => .ok x
  | text s =>
    match Decimal.readReal? s with
    | some x => .ok x
    | none => .error (.notReal s)
  | other => .error (.noReal other.kind)

/-- The value as a whole number; a fraction is cut off. -/
def toWhole : Data → Except Fault Int
  | bool b => .ok b.toNat
  | int n => .ok n
  | float x =>
    match x.truncate? with
    | some n => .ok n
    | none => .error (.notWhole x)
  | text s => (Text.readInt s).mapError .numeral
  | other => .error (.noWhole other.kind)

end Marginalia.Data
