import Marginalia.Journal.Cell

/-!
# Records

What the journal keeps of one remark across scans, in the form in which its table stores it. Times
are texts. A priority is a number from 1 to 5, and a whole one wherever the journal writes it.
-/

namespace Marginalia.Journal

inductive Status
  | active
  | completed
  | cancelled
  deriving DecidableEq, Repr

namespace Status

def all : List Status := [active, completed, cancelled]

def name : Status → String
  | active => "active"
  | completed => "completed"
  | cancelled => "cancelled"

def ofName? (text : String) : Option Status :=
  all.find? fun status => status.name == text

/-- The status that a value names. -/
def ofData (value : Data) : Except Fault Status :=
  match value.text?.bind ofName? with
  | some status => .ok status
  | none => .error (.notStatus value)

theorem ofName?_name (status : Status) : ofName? status.name = some status := by
  cases status <;> decide

end Status

/-- A priority: whole, or between two whole numbers. -/
inductive Level
  | whole (n : Int)
  | between (x : Decimal.Binary64)
  deriving DecidableEq, Repr

namespace Level

def toData : Level → Data
  | whole n => .int n
  | between x => .float x

def number : Level → Sum Int Decimal.Binary64
  | whole n => .inl n
  | between x => .inr x

end Level

structure Record where
  id : Int
  type : String
  title : String
  description : Option String
  status : Status
  createdAt : String
  completedAt : Option String
  priority : Level
  tags : Option String
  sourceKey : String
  deriving DecidableEq, Repr

end Marginalia.Journal
