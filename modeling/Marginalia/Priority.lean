/-!
# Priorities

The severity of a remark, set by the marker behind its tag, and the coarser scale from 1
to 5 on which the journal keeps it.
-/

namespace Marginalia

inductive Priority
  | critical
  | high
  | normal
  | low
  deriving DecidableEq, Repr

namespace Priority

/-- All priorities, most severe first. -/
def all : List Priority := [critical, high, normal, low]

def name : Priority → String
  | critical => "critical"
  | high => "high"
  | normal => "normal"
  | low => "low"

def ofName? (text : String) : Option Priority :=
  all.find? fun priority => priority.name == text

/-- Sort rank, most severe first. -/
def rank : Priority → Nat
  | critical => 0
  | high => 1
  | normal => 2
  | low => 3

/-- The level in the journal, which tells only two severities apart. -/
def level : Priority → Nat
  | critical | high => 4
  | normal | low => 3

theorem ofName?_name (priority : Priority) : ofName? priority.name = some priority := by
  cases priority <;> decide

end Priority

end Marginalia
