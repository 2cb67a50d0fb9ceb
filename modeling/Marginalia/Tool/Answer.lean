import Marginalia.Engine
import Marginalia.Tool

/-!
# Answers of tools

What a tool answers to a call. Every call has an answer: an object that says whether the call
succeeded, and if it did not, what went wrong and of which kind that is.
-/

namespace Marginalia.Tool

def success (fields : List (String × Data)) : Data :=
  .object (("success", .bool true) :: fields)

def counted (name : String) (items : List Data) : List (String × Data) :=
  [("count", .int items.length), (name, .list items)]

/-- An argument, or what stands in for it if it is not given. -/
def argument (arguments : Data) (name : String) (default : Data) : EngineM Data := do
  return (← liftExcept (arguments.lookUp? name)).getD default

def fieldsOf : Data → List (String × Data)
  | .object fields => fields
  | _ => []

/-- The tags to scan for; null stands for the configured ones. -/
def tagsOf : Data → Option Data
  | .null => none
  | value => some value

/-- Does what a tool does, with arguments of any kind. -/
def run (arguments : Data) : Tool → EngineM Data
  | scan => do
    let path ← argument arguments "path" .null
    let tags ← argument arguments "tags" .null
    let remarks ← Engine.scan path (tagsOf tags)
    let found := counted "annotations" (remarks.map Remark.toData)
    if (← argument arguments "write_snapshot" .null).holds then
      let path ← Engine.writeSnapshot (remarks.map Remark.observe) none
      return success (found ++ [("snapshot_path", .text path.text)])
    else return success found
  | sync => do
    let counts ← Engine.sync none
    return success (fieldsOf counts.toData ++
      [("message", .text s!"Synced {counts.journaled} item(s) to the journal")])
  | active => do
    let limit ← argument arguments "limit" (.int pageSize)
    let offset ← argument arguments "offset" (.int 0)
    let entries ← Engine.listActive limit offset
    return success (counted "records" (entries.map Journal.Entry.toData))
  | history => do
    let limit ← argument arguments "limit" (.int pageSize)
    let offset ← argument arguments "offset" (.int 0)
    let status ← argument arguments "status" .null
    let type ← argument arguments "type" .null
    let entries ← Engine.list limit offset status type
    return success (counted "records" (entries.map Journal.Entry.toData))
  | stats => do
    return success (fieldsOf (← Engine.stats).toData)
  | cancel => do
    let id ← liftExcept (arguments.require "id")
    let entry ← Engine.cancel (.int (← liftExcept id.toWhole))
    return success [("record", entry.toData),
      ("message", .text s!"Record {entry.id.shown} cancelled")]
  | readSnapshot => do
    let rows ← Engine.readSnapshot none
    return success (counted "rows" (rows.map Snapshot.Row.toData))

def failure (text kind : String) : Data :=
  .object [("success", .bool false), ("error", .text text), ("error_type", .text kind)]

/-- A failure with advice on what to do about it. -/
def failureWith (text kind advice : String) : Data :=
  .object [("success", .bool false), ("error", .text text), ("error_type", .text kind),
    ("suggestion", .text advice)]

/-- The answer to a call that a fault ended. -/
def failureOf (fault : Fault) : Data :=
  match fault.faultClass with
  | .key => failure ("Missing required argument: " ++ fault.message) "missing_argument"
  | .scan =>
    failureWith fault.message "scan_error"
      "Scans need a git work tree and readable files; the journal was not changed"
  | .recordNotFound =>
    failureWith fault.message "record_not_found" "Use issues_history to find record ids"
  | .transition => failure fault.message "invalid_transition"
  | .journal => failure fault.message "journal_error"
  | .config => failure fault.message "config_error"
  | .lock => failure fault.message "issues_error"
  | .value | .decoding => failure fault.message "invalid_argument"
  | _ => failure fault.message "unexpected_error"

/-- The answer to a call, and the engine after it. -/
def answer (name : String) (arguments : Data) (engine : Engine) : Data × Engine :=
  match ofName? name with
  | none => (failure s!"Unknown tool: {name}" "unknown_tool", engine)
  | some tool =>
    match run arguments tool engine with
    | .ok result engine => (result, engine)
    | .error fault engine => (failureOf fault, engine)

end Marginalia.Tool
