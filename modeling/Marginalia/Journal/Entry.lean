import Marginalia.Journal.Record

/-!
# Entries

A record as it is handed out: its status and its times are read, and its other fields are taken
as they are. An entry is shown as an object or on one line.
-/

namespace Marginalia.Journal

structure Entry where
  id : Data
  type : Data
  title : Data
  description : Data
  status : Status
  createdAt : Time.Moment
  completedAt : Option Time.Moment
  priority : Data
  tags : Data
  sourceKey : Data
  deriving BEq, Repr

/-- The moment that a value writes. -/
def readStamp (value : Data) : Except Fault Time.Moment :=
  match value with
  | .text s => (Time.Iso.read s).mapError .moment
  | _ => .error .notStamp

/-- The field of a row. -/
def column (row : List (String × Data)) (name : String) : Except Fault Data :=
  match valueOf? row name with
  | some value => .ok value
  | none => .error (.missingEntry name)

namespace Entry

/-- The entry of a row of the table. A completion time that does not count as true is none. -/
def ofRow (row : List (String × Data)) : Except Fault Entry := do
  let completed ← column row "completed_at"
  let id ← column row "id"
  let type ← column row "type"
  let title ← column row "title"
  let description ← column row "description"
  let status ← Status.ofData (← column row "status")
  let createdAt ← readStamp (← column row "created_at")
  let completedAt ← if completed.holds then some <$> readStamp completed else .ok none
  let priority ← column row "priority"
  let tags ← column row "tags"
  let sourceKey ← column row "source_key"
  .ok ⟨id, type, title, description, status, createdAt, completedAt, priority, tags, sourceKey⟩

def toData (entry : Entry) : Data :=
  .object [("id", entry.id), ("type", entry.type), ("title", entry.title),
    ("description", entry.description), ("status", .text entry.status.name),
    ("created_at", .text entry.createdAt.millisText),
    ("completed_at", match entry.completedAt with
      | none => .null
      | some moment => .text moment.millisText),
    ("priority", entry.priority), ("tags", entry.tags), ("source_key", entry.sourceKey)]

/-- A text with blanks behind it up to a width. -/
def padTo (width : Nat) (text : String) : String :=
  text ++ String.ofList (List.replicate (width - text.length) ' ')

/-- The text of a value in a column of a width. Truth values show as numbers. -/
def columnText (width : Nat) (value : Data) : Except Fault String :=
  match value with
  | .text s => .ok (padTo width s)
  | .int n => .ok (padTo width (toString n))
  | .float x => .ok (padTo width x.text)
  | .bool b => .ok (padTo width (toString b.toNat))
  | other => .error (.noColumnWidth other.kind)

/-- The entry on one line: number, type, status, priority, title and description. -/
def line (entry : Entry) : Except Fault String := do
  let id ← columnText 5 entry.id
  let type ← columnText 5 entry.type
  let start := "#" ++ id ++ " " ++ type ++ " " ++ padTo 9 entry.status.name ++ " p" ++
    entry.priority.shown ++ "  " ++ entry.title.shown
  .ok (if entry.description.holds then start ++ "  (" ++ entry.description.shown ++ ")"
    else start)

end Entry

namespace Record

/-- The columns of the table, by name. -/
def row (record : Record) : List (String × Data) :=
  [("id", .int record.id), ("type", .text record.type), ("title", .text record.title),
    ("description", .ofOption record.description), ("status", .text record.status.name),
    ("created_at", .text record.createdAt), ("completed_at", .ofOption record.completedAt),
    ("priority", record.priority.toData), ("tags", .ofOption record.tags),
    ("source_key", .text record.sourceKey)]

/-- The entry of a record. Only times that other programs wrote can be unreadable. -/
def entry (record : Record) : Except Fault Entry :=
  Entry.ofRow record.row

end Record

end Marginalia.Journal
