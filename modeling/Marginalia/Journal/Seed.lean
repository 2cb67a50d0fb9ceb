import Marginalia.Journal.Store

/-!
# Foreign rows

Rows that are put into the table from outside, column by column. Every column has its rules:
which kind of cell it holds, what it holds when nothing is given, and what it may not hold.
-/

namespace Marginalia.Journal

def columnNames : List String :=
  ["id", "type", "title", "description", "status", "created_at", "completed_at", "priority",
    "tags", "source_key"]

/-- The names that stand for the number of a row besides its column. -/
def rowNumberNames : List String := ["rowid", "_rowid_", "oid"]

/-- The column that a name means; letters of ASCII may have any size. -/
def columnOf? (name : String) : Option String :=
  let name := name.map Char.toLower
  if columnNames.contains name then some name
  else if rowNumberNames.contains name then some "id"
  else none

/-- The columns that the names of a row mean. A row has to name one. -/
def rowColumns (row : List (String × Data)) : Except Fault (List String) :=
  if row.isEmpty then .error (.misplaced ")")
  else
    row.mapM fun (name, _) =>
      match columnOf? name with
      | some column => .ok column
      | none => .error (.noColumn "issues" name)

/-- The cells of a row by column; the values are the parameters of the statement in order. -/
def rowCells (row : List (String × Data)) : Except Fault (List (String × Cell)) := do
  let columns ← rowColumns row
  let cells ← row.zipIdx.mapM fun ((_, value), i) => Cell.ofData (i + 1) value
  .ok (columns.zip cells)

/-- The text of a column that has to have one. -/
def required (cells : List (String × Cell)) (name : String) (default : Cell) :
    Except Fault String :=
  match ((valueOf? cells name).getD default).asText with
  | some s => .ok s
  | none => .error (.notNull name)

def optional (cells : List (String × Cell)) (name : String) : Option String :=
  ((valueOf? cells name).getD .null).asText

def statusCondition : String := "status IN ('active', 'completed', 'cancelled')"

def priorityCondition : String := "priority BETWEEN 1 AND 5"

/-- A priority within its bounds. -/
def levelOf? : Cell → Option Level
  | .int n => if 1 ≤ n && n ≤ 5 then some (.whole n) else none
  | .real x =>
    if x.compareInt? 1 != some .lt && x.compareInt? 5 != some .gt then some (.between x) else none
  | _ => none

/-- The number given for a row, or the next one. Of several numbers the last one counts, where of
other columns the first one does. -/
def Store.idFor (store : Store) (cells : List (String × Cell)) : Except Fault Int :=
  match (valueOf? cells.reverse "id").getD .null with
  | .null => store.nextId
  | cell =>
    match cell.whole? with
    | some n => .ok n
    | none => .error .datatype

/-- The tables with a row put in. Its number is settled first; then missing values are refused,
then values that a condition excludes, and last numbers and keys that are taken. -/
def Store.seed (store : Store) (row : List (String × Data)) : Except Fault Store := do
  let cells ← rowCells row
  let id ← store.idFor cells
  let type ← required cells "type" .null
  let title ← required cells "title" .null
  let status ← required cells "status" (.text Status.active.name)
  let createdAt ← required cells "created_at" .null
  let priority := ((valueOf? cells "priority").getD (.int 3)).asNumber
  if priority == .null then throw (.notNull "priority")
  let sourceKey ← required cells "source_key" .null
  match Status.ofName? status, levelOf? priority with
  | none, _ => .error (.check statusCondition)
  | _, none => .error (.check priorityCondition)
  | some status, some priority =>
    store.insert {
      id, type, title, description := optional cells "description", status, createdAt
      completedAt := optional cells "completed_at", priority, tags := optional cells "tags"
      sourceKey }

/-- The tables with another version recorded, or none. -/
def Store.setVersion (store : Store) (version : Data) : Except Fault Store := do
  match ← Cell.ofData 1 version with
  | .null => .ok { store with version := none }
  | cell =>
    match cell.whole? with
    | some n => .ok { store with version := some n }
    | none => .error .datatype

end Marginalia.Journal
