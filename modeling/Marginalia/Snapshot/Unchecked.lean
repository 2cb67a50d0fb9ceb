import Marginalia.Data.Access
import Marginalia.Snapshot.Writer
import Marginalia.Sorting.Runs

/-!
# Snapshots of unchecked observations

Observations whose fields are all in order are sorted and written as remarks. Others are
handled with care: the first comparison or column that a value has no part in is a fault.
-/

namespace Marginalia.Snapshot

/-- The observations in the order of a snapshot. -/
def sortUnchecked (observations : List Observation) : Except Fault (List Observation) :=
  match observations.mapM Observation.remark? with
  | some remarks => .ok ((sort remarks).map Remark.observe)
  | none => Sorting.sort Observation.precedes observations

/-- A value, or the sign for an absent one if it does not count as true. -/
def valueOrMissing (value : Data) : Data :=
  if value.holds then value else .text missing

/-- The padded values of a row, not checked yet. -/
def paddedValues (o : Observation) : List Data :=
  [.text o.location, o.tag, .text o.priority.name, valueOrMissing o.owner,
    valueOrMissing o.date, valueOrMissing o.category, valueOrMissing o.id]

/-- Refuses a location that cannot be written, such as one with a line number of too many digits. -/
def checkLocation (o : Observation) : Except Fault Unit := do
  let _ ← o.file.written
  let _ ← o.line.written
  .ok ()

/-- Refuses a value without length. -/
def checkLength : Data → Except Fault Unit
  | .text _ | .list _ | .object _ => .ok ()
  | value => .error (.noLength value.kind)

/-- Refuses the first value without length, column by column. -/
def checkLengths (columns : Nat) (rows : List (List Data)) : Except Fault Unit :=
  (List.range columns).forM fun i => rows.forM fun row =>
    match row[i]? with
    | some value => checkLength value
    | none => .ok ()

/-- A value that can be padded. -/
def paddable (value : Data) : Except Fault String :=
  match value with
  | .text s => .ok s
  | value => .error (.noMember value.kind "ljust")

def checkCells (o : Observation) : Except Fault Cells := do
  let padded ← (paddedValues o).mapM paddable
  match o.message with
  | .text message => .ok ⟨padded, message⟩
  | value => .error (.joinedItem (columnNames.length - 1) value.kind)

/-- The text of a snapshot of observations at a time. -/
def writeUnchecked (stamp : String) (observations : List Observation) : Except Fault String := do
  let sorted ← sortUnchecked observations
  sorted.forM checkLocation
  checkLengths paddedNames.length (sorted.map paddedValues)
  let rows ← sorted.mapM checkCells
  .ok (layout stamp rows)

end Marginalia.Snapshot
