import Marginalia.Data.Value
import Marginalia.Journal.Record

/-!
# Tools

The operations that the project offers to an assistant: their names, what they say of themselves,
and the parameters they take. The description of a tool is data that follows the JSON schema.
-/

namespace Marginalia

/-- What a parameter has to be. -/
inductive ParameterKind
  | text
  | texts
  | whole
  | switch
  | object
  deriving DecidableEq, Repr

structure Parameter where
  name : String
  kind : ParameterKind
  description : String
  default : Option Data := none
  choices : List String := []
  deriving BEq, Repr

/-- What a tool says of itself. -/
structure Offer where
  name : String
  description : String
  parameters : List Parameter := []
  required : List String := []
  deriving BEq, Repr

namespace ParameterKind

def fields : ParameterKind → List (String × Data)
  | text => [("type", .text "string")]
  | texts => [("type", .text "array"), ("items", .object [("type", .text "string")])]
  | whole => [("type", .text "integer")]
  | switch => [("type", .text "boolean")]
  | object => [("type", .text "object")]

end ParameterKind

namespace Parameter

def schema (p : Parameter) : Data :=
  .object (p.kind.fields ++
    (if p.choices.isEmpty then [] else [("enum", .list (p.choices.map .text))]) ++
    [("description", .text p.description)] ++
    (match p.default with
      | some value => [("default", value)]
      | none => []))

end Parameter

namespace Offer

def schema (offer : Offer) : Data :=
  .object ([("type", .text "object"),
    ("properties", .object (offer.parameters.map fun p => (p.name, p.schema)))] ++
    if offer.required.isEmpty then [] else [("required", .list (offer.required.map .text))])

def toData (offer : Offer) : Data :=
  .object [("name", .text offer.name), ("description", .text offer.description),
    ("inputSchema", offer.schema)]

end Offer

inductive Tool
  | scan
  | sync
  | active
  | history
  | stats
  | cancel
  | readSnapshot
  deriving DecidableEq, Repr

/-- How many records a page has if nothing else is asked for. -/
def pageSize : Int := 200

namespace Tool

def all : List Tool := [scan, sync, active, history, stats, cancel, readSnapshot]

def name : Tool → String
  | scan => "issues_scan"
  | sync => "issues_sync"
  | active => "issues_active"
  | history => "issues_history"
  | stats => "issues_stats"
  | cancel => "issues_cancel"
  | readSnapshot => "issues_snapshot_read"

def ofName? (text : String) : Option Tool :=
  all.find? fun tool => tool.name == text

def description : Tool → String
  | scan =>
    "Scan the project for inline TODO/BUG/FIXME annotations and optionally write the snapshot " ++
      "file. Does not touch the journal."
  | sync =>
    "Scan the project and update the journal: seen items become active, items no longer present " ++
      "become completed."
  | active => "List active journal records, highest priority first."
  | history =>
    "List journal records of any status, including completed and cancelled ones."
  | stats =>
    "Summarize the journal: totals by status, completions this week, counts by type and status."
  | cancel =>
    "Cancel a journal record. Cancelled records are never reactivated by later scans."
  | readSnapshot => "Read the last written snapshot file. A missing snapshot reads as empty."

/-- The parameters that choose a page of a listing. -/
def pageParameters : List Parameter := [
  { name := "limit", kind := .whole, description := "Maximum records to return"
    default := some (.int pageSize) },
  { name := "offset", kind := .whole, description := "Number of records to skip"
    default := some (.int 0) }]

def parameters : Tool → List Parameter
  | scan => [
    { name := "path", kind := .text
      description :=
        "Directory to scan, relative to the project root (default: whole project)" },
    { name := "tags", kind := .texts
      description := "Tags to look for (default: configured tags)" },
    { name := "write_snapshot", kind := .switch
      description := "Also write the plain-text snapshot file", default := some (.bool false) }]
  | active => pageParameters
  | history => pageParameters ++ [
    { name := "status", kind := .text, description := "Only records with this status"
      choices := Journal.Status.all.map Journal.Status.name },
    { name := "type", kind := .text
      description := "Only records of this tag (e.g., TODO, BUG)" }]
  | cancel => [{ name := "id", kind := .whole, description := "Journal record id" }]
  | sync | stats | readSnapshot => []

def required : Tool → List String
  | cancel => ["id"]
  | _ => []

def offer (tool : Tool) : Offer :=
  ⟨tool.name, tool.description, tool.parameters, tool.required⟩

theorem ofName?_name (tool : Tool) : ofName? tool.name = some tool := by
  cases tool <;> decide

end Tool

end Marginalia
