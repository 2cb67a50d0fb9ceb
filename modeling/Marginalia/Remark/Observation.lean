import Marginalia.Remark
import Marginalia.Data.Order

/-!
# Observations

A remark as it is handed in from outside: only its priority is checked, and every other
field may hold a value of any kind. What a scan finds is an observation with all fields in order.
-/

namespace Marginalia

structure Observation where
  file : Data
  line : Data
  tag : Data
  message : Data
  priority : Priority
  owner : Data
  date : Data
  category : Data
  id : Data
  deriving BEq, Repr

/-- The priority that a value names. -/
def Priority.ofData (value : Data) : Except Fault Priority :=
  match value.text?.bind Priority.ofName? with
  | some priority => .ok priority
  | none => .error (.notPriority value)

def Remark.observe (a : Remark) : Observation where
  file := .text a.file
  line := .int a.line
  tag := .text a.tag
  message := .text a.message
  priority := a.priority
  owner := .ofOption a.owner
  date := .ofOption a.date
  category := .ofOption a.category
  id := .ofOption a.id

namespace Observation

/-- The remark that an observation holds, if every field is in order. -/
def remark? (o : Observation) : Option Remark := do
  let file ← o.file.text?
  let line ← match o.line with
    | .int n => some n
    | _ => none
  let tag ← o.tag.text?
  let message ← o.message.text?
  let owner ← o.owner.toOption?
  let date ← o.date.toOption?
  let category ← o.category.toOption?
  let id ← o.id.toOption?
  some ⟨file, line, tag, message, o.priority, owner, date, category, id⟩

def fingerprint (o : Observation) : String :=
  fingerprintOf o.tag.shown o.file.shown o.message.shown

/-- The file and the line, as far as they can be written. -/
def location (o : Observation) : String :=
  o.file.shown ++ ":" ++ o.line.shown

/-- The fields as an object. -/
def toData (o : Observation) : Data :=
  .object [("file", o.file), ("line", o.line), ("tag", o.tag),
    ("priority", .text o.priority.name), ("message", o.message), ("owner", o.owner),
    ("date", o.date), ("category", o.category), ("id", o.id)]

/-- Whether an observation comes before another one: the more severe first, then by file, then by
line. -/
def precedes (a b : Observation) : Except Fault Bool :=
  if a.priority != b.priority then .ok (a.priority.rank < b.priority.rank)
  else if !a.file.same b.file then a.file.before b.file
  else if !a.line.same b.line then a.line.before b.line
  else .ok false

end Observation

theorem Observation.remark?_observe (a : Remark) : a.observe.remark? = some a := by
  obtain ⟨file, line, tag, message, priority, owner, date, category, id⟩ := a
  cases owner <;> cases date <;> cases category <;> cases id <;> rfl

def Remark.toData (a : Remark) : Data := a.observe.toData

end Marginalia
