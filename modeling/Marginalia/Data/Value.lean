import Marginalia.Decimal.Layout
import Marginalia.Text.Quoted
import Marginalia.Time.Moment

/-!
# Data

Values as settings files, tool arguments and unchecked fields hold them: the values of JSON, whole
numbers apart from other numbers, and the dates and times of TOML. Objects keep the order of
their entries.
-/

namespace Marginalia

open Decimal (Binary64)

inductive Data
  | null
  | bool (b : Bool)
  | int (n : Int)
  | float (x : Binary64)
  | text (s : String)
  | list (items : List Data)
  | object (entries : List (String × Data))
  | date (date : Time.Date)
  | time (clock : Time.Clock)
  | moment (moment : Time.Moment)
  deriving BEq, Repr, Inhabited

/-- The entry of a key. -/
def valueOf? (entries : List (String × α)) (key : String) : Option α :=
  entries.lookup key

/-- The entries with one set. A key that is there keeps its place. -/
def setEntry (entries : List (String × α)) (key : String) (value : α) : List (String × α) :=
  match entries with
  | [] => [(key, value)]
  | (k, v) :: rest => if k == key then (k, value) :: rest else (k, v) :: setEntry rest key value

namespace Data

/-- What kind of value this is, as messages call it. -/
def kind : Data → String
  | null => "NoneType"
  | bool _ => "bool"
  | int _ => "int"
  | float _ => "float"
  | text _ => "str"
  | list _ => "list"
  | object _ => "dict"
  | date _ => "datetime.date"
  | time _ => "datetime.time"
  | moment _ => "datetime.datetime"

/-- Whether a value counts as true: neither null nor false nor zero nor empty. -/
def holds : Data → Bool
  | null => false
  | bool b => b
  | int n => n != 0
  | float x => !x.isZero
  | text s => !s.isEmpty
  | list items => !items.isEmpty
  | object entries => !entries.isEmpty
  | date _ | time _ | moment _ => true

def boolText (b : Bool) : String := if b then "True" else "False"

/-- The fields of a time of day that are written: hours and minutes always, finer ones up to the
last that is not zero. -/
def clockFields (clock : Time.Clock) : List Nat :=
  if clock.microsecond != 0 then [clock.hour, clock.minute, clock.second, clock.microsecond]
  else if clock.second != 0 then [clock.hour, clock.minute, clock.second]
  else [clock.hour, clock.minute]

def offsetDetail (offset : Int) : String :=
  if offset == 0 then "datetime.timezone.utc"
  else "datetime.timezone(" ++ Time.durationText offset ++ ")"

def callText (name : String) (fields : List String) : String :=
  name ++ "(" ++ String.intercalate ", " fields ++ ")"

def dateFields (date : Time.Date) : List String :=
  [toString date.year, toString date.month, toString date.day]

mutual

/-- The text of a value inside another one: texts are quoted and dates are spelled out. -/
def detail : Data → String
  | null => "None"
  | bool b => boolText b
  | int n => toString n
  | float x => x.text
  | text s => Text.quoted s
  | list items => "[" ++ String.intercalate ", " (itemDetails items) ++ "]"
  | object entries => "\x7b" ++ String.intercalate ", " (entryDetails entries) ++ "\x7d"
  | date d => callText "datetime.date" (dateFields d)
  | time clock => callText "datetime.time" ((clockFields clock).map toString)
  | moment m =>
    callText "datetime.datetime" (dateFields m.date ++ (clockFields m.clock).map toString ++
      (match m.offset with
       | none => []
       | some offset => ["tzinfo=" ++ offsetDetail offset]))

def itemDetails : List Data → List String
  | [] => []
  | item :: rest => detail item :: itemDetails rest

def entryDetails : List (String × Data) → List String
  | [] => []
  | (key, value) :: rest => (Text.quoted key ++ ": " ++ detail value) :: entryDetails rest

end

/-- The text of a value on its own. -/
def shown : Data → String
  | text s => s
  | date d => d.text
  | time clock => clock.text
  | moment m => m.text
  | value => value.detail

def isText : Data → Bool
  | text _ => true
  | _ => false

def text? : Data → Option String
  | text s => some s
  | _ => none

/-- The value as a number, truth values being 0 and 1. -/
def number? : Data → Option (Sum Int Binary64)
  | bool b => some (.inl b.toNat)
  | int n => some (.inl n)
  | float x => some (.inr x)
  | _ => none

def ofOption : Option String → Data
  | none => null
  | some s => text s

/-- A text, or null for none. -/
def toOption? : Data → Option (Option String)
  | null => some none
  | text s => some (some s)
  | _ => none

end Data

end Marginalia
