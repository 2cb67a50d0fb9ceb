import Marginalia.Config
import Marginalia.Text.Forms

/-!
# Scripts

A settings file may be a script that is run. What counts of it is what it leaves behind: variables
that are set to plain data, tools, or a failure. A script may also leave the program.
-/

namespace Marginalia

structure Script where
  /-- The variables that are set to data, the first one first. They may be set again. -/
  values : List (String × Data) := []
  tools : List CustomTool := []
  /-- Why the script fails, if it does. -/
  failure : Option String := none
  /-- How the script leaves the program, if it does. -/
  departure : Option Departure := none
  deriving BEq, Repr

namespace Script

/-- How the names of tools start in a script. -/
def toolMark : String := "custom_tool_"

/-- The variables with the names they count as, the last one in front. -/
def bindings (script : Script) : List (String × Data) :=
  (script.values.map fun (name, data) => (Text.plainName name, data)).reverse

/-- The settings: the variable in capitals wins over the one in small letters. -/
def settings (script : Script) : Data :=
  match script.bindings.lookup "CONFIG", script.bindings.lookup "config" with
  | some data, _ => data
  | none, some data => data
  | none, none => .object []

/-- The tools, with the variables that are named like tools among them, by name. A variable hides a
tool. -/
def allTools (script : Script) : List CustomTool :=
  let tools := script.tools.map fun tool => { tool with name := Text.plainName tool.name }
  let fromVariables := script.bindings.filterMap fun (name, data) =>
    (Text.dropPart? toolMark.toList name.toList).map fun rest =>
      (⟨String.ofList rest, none, .value data⟩ : CustomTool)
  let all := (fromVariables ++ tools.reverse).foldl (fun tools tool =>
    if tools.any fun other => other.name == tool.name then tools else tool :: tools) []
  all.mergeSort fun a b => a.name ≤ b.name

end Script

end Marginalia
