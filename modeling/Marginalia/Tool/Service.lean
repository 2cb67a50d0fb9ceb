import Marginalia.Data.Json.Printer
import Marginalia.Tool.Answer

/-!
# The tool service

All tools of a project, its own ones included, behind one list and one call. A tool of the project
hides a tool of the same name. Answers are JSON texts.

A tool of the project may do anything: what its functions do is a parameter. If such a tool fails,
this is the answer; only a departure leaves the call.
-/

namespace Marginalia

open Text (trim)

namespace CustomTool

/-- The first line of the description, or a stand-in if there is none. -/
def summary (tool : CustomTool) : String :=
  match tool.description with
  | some text =>
    if text.isEmpty then s!"Custom tool: {tool.name}"
    else String.ofList ((trim text.toList).takeWhile (· != '\n'))
  | none => s!"Custom tool: {tool.name}"

def offer (tool : CustomTool) : Offer where
  name := tool.name
  description := tool.summary
  parameters := [
    { name := "params", kind := .object, description := "Parameters for the custom tool" }]

end CustomTool

/-- How often each owner occurs, in the order of the owners. -/
def countOwners (owners : List String) : List (String × Data) :=
  ((distinct owners).mergeSort fun a b => a ≤ b).map fun owner =>
    (owner, .int (owners.count owner))

/-- What the functions of a project do, by their names. They are given parameters, and may use the
engine. -/
abbrev Functions := String → Data → EngineM Data

namespace ToolAction

/-- Does what a tool of the project does, with parameters of any kind. -/
def run (functions : Functions) (params : Data) : ToolAction → EngineM Data
  | function name => functions name params
  | echo => return .object [("params", params)]
  | fail start => do
    let reason ← Tool.argument params "why" (.text "")
    throw (.custom (start ++ reason.shown))
  | countActive text => do
    let entries ← Engine.listActive (.int pageSize) (.int 0)
    return .object [("active", .int entries.length), ("text", .text text)]
  | wrap => return .list [params]
  | ownerReport => do
    let remarks ← Engine.scan (← Tool.argument params "path" .null) none
    let owners := remarks.map fun a =>
      match a.owner with
      | some owner => if owner.isEmpty then "(unassigned)" else owner
      | none => "(unassigned)"
    return Tool.success [("owners", .object (countOwners owners))]
  | critical => do
    let remarks ← Engine.scanAll
    let found := remarks.filter fun a => a.priority == .critical
    return Tool.success (Tool.counted "annotations" (found.map Remark.toData))
  | constant data => return data
  | value data => throw (.notCallable data.kind)

end ToolAction

namespace Service

/-- The tools of a project: those that every project has, then its own. -/
def offers (config : Config) : List Offer :=
  let start := Tool.all.map fun tool => (tool.name, tool.offer)
  (config.customTools.foldl (fun offers tool => setEntry offers tool.name tool.offer) start).map
    Prod.snd

/-- Runs a tool of the project. Its parameters are the argument `params`, or all arguments if that
is not given. -/
def runCustom (functions : Functions) (tool : CustomTool) (arguments : Data) : EngineM Data := do
  tool.action.run functions (← Tool.argument arguments "params" arguments)

/-- Turns a failure of a tool of the project into an answer. Departures pass. -/
def answered (name : String) (work : EngineM Data) : EngineM Data := fun engine =>
  match work engine with
  | .ok result engine => .ok result engine
  | .error fault engine =>
    if fault.isOrdinary then
      .ok (Tool.failure fault.message "custom_tool_error")
        { engine with
          workspace := engine.workspace.report .error .server s!"Custom tool {name} failed" }
    else .error fault engine

/-- The answer to a call as data. -/
def answer (functions : Functions) (name : String) (arguments : Data) : EngineM Data := do
  match (← get).config.customTools.find? fun tool => tool.name == name with
  | none => modifyGet (Tool.answer name arguments)
  | some tool => answered name (runCustom functions tool arguments)

/-- The answer to a call as text. -/
def reply (functions : Functions) (name : String) (arguments : Data) : EngineM String := do
  return Json.print (← answer functions name arguments)

/-- The text of the answer in a project without functions: one that is asked for is missing. -/
def call (name : String) (arguments : Data) (engine : Engine) : String × Engine :=
  match reply (fun name _ => throw (.missingEntry name)) name arguments engine with
  | .ok text engine => (text, engine)
  | .error fault engine => (fault.message, engine)

end Service

end Marginalia
