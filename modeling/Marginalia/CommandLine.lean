import Marginalia.CommandLine.Command
import Marginalia.Config.Load
import Marginalia.Data.Json.Printer
import Marginalia.Engine

/-!
# The command line

One run of the program: its words are read, the configuration is loaded, the command is done, and
what it printed and how it ended is told. Faults of the program itself end a run with a message;
all others leave it.
-/

namespace Marginalia

namespace Path

/-- The names of a path after those of the place it is seen from; double dots take one back. -/
def follow (place : Place) (parts : List String) : Place :=
  parts.foldl (fun place name => if name == ".." then place.dropLast else place ++ [name]) place

/-- The path from the root on, without double dots. -/
def resolve (path : Path) (current : Place) : Path :=
  ⟨.root, follow (if path.anchor == .relative then current else []) path.parts⟩

end Path

namespace CommandLine

/-- An engine that prints. -/
structure Console where
  engine : Engine
  /-- The printed lines. -/
  output : List String := []
  /-- The printed messages besides reports. -/
  messages : List String := []

abbrev ConsoleM := EStateM Fault Console

namespace Console

/-- Does something with the engine. -/
def onEngine (work : EngineM α) : ConsoleM α := fun console =>
  match work console.engine with
  | .ok a engine => .ok a { console with engine }
  | .error fault engine => .error fault { console with engine }

def print (line : String) : ConsoleM Unit :=
  modify fun console => { console with output := console.output ++ [line] }

def printMessage (line : String) : ConsoleM Unit :=
  modify fun console => { console with messages := console.messages ++ [line] }

/-- Prints the lines of entries one after the other. -/
def printLines : List Journal.Entry → ConsoleM Unit
  | [] => pure ()
  | entry :: rest => do
    print ("  " ++ (← liftExcept entry.line))
    printLines rest

def printEntries (entries : List Journal.Entry) : Format → ConsoleM Unit
  | .json => print (Json.print (.list (entries.map Journal.Entry.toData)))
  | .text => do
    print s!"Found {entries.length} record(s)"
    printLines entries

/-- The line of a group of records. -/
def groupLine (group : Journal.Store.GroupCount) : String :=
  "  " ++ Journal.Entry.padTo 5 group.type ++ " " ++
    Journal.Entry.padTo 9 group.status.name ++ s!" {group.count}"

def printStats (stats : Journal.Store.Stats) : Format → ConsoleM Unit
  | .json => print (Json.print stats.toData)
  | .text => do
    print s!"Active:              {stats.active}"
    print s!"Completed:           {stats.completed}"
    print s!"Cancelled:           {stats.cancelled}"
    print s!"Completed this week: {stats.completedThisWeek}"
    if !stats.groups.isEmpty then
      print ""
      for group in stats.groups do print (groupLine group)

end Console

/-- The tags of a text with commas; an empty text gives none. -/
def tagsOf (text : Option String) : Option Data :=
  match text with
  | some s =>
    if s.isEmpty then none
    else some (.list ((Text.splitOn ',' s.toList).map fun part => .text (String.ofList part)))
  | none => none

open Console in
/-- Does a command. -/
def Command.run : Command → ConsoleM Unit
  | .serve => throw .packageMissing
  | .init => do
    let root := (← get).engine.config.root
    let path ← onEngine Engine.setUp
    print s!"Initialized inline-issues in {root.text}"
    let place ← liftExcept (path.relativeTo root)
    print s!"  - {place.text}/"
  | .scan path tags includeResolved out json => do
    if includeResolved then
      modify fun console => { console with engine.config.includeResolved := true }
    let remarks ← onEngine (Engine.scan path (tagsOf tags))
    if json then print (Json.print (.list (remarks.map Remark.toData)))
    else
      let path ← onEngine (Engine.writeSnapshot (remarks.map Remark.observe) out)
      printMessage s!"Found {remarks.length} issues -> {path.text}"
  | .sync => do
    let counts ← onEngine (Engine.sync none)
    print (s!"Synced {counts.journaled} item(s) to the journal " ++
      s!"({counts.completed} completed, {counts.skipped} skipped)")
  | .active limit offset format => do
    printEntries (← onEngine (Engine.listActive limit offset)) format
  | .history limit offset status type format => do
    printEntries (← onEngine (Engine.list limit offset status type)) format
  | .stats format => do printStats (← onEngine Engine.stats) format
  | .cancel id => do
    let entry ← onEngine (Engine.cancel id)
    print ("Cancelled " ++ (← liftExcept entry.line))

/-- How a run of the program ended: with an exit code or by a fault that left it, and with what
was printed. -/
structure Outcome where
  exit : Except Fault Nat
  output : String
  messages : String
  workspace : Workspace

/-- Lines with their ends. -/
def joinLines (lines : List String) : String :=
  lines.foldl (fun text line => text ++ line ++ "\n") ""

/-- The reports that are shown: all of them, or only those of problems. -/
def shownReports (verbose : Bool) (log : List LogLine) : List String :=
  ((log.reverse.filter fun line =>
    verbose || line.level == .warning || line.level == .error).map LogLine.print)

/-- The end of a run after a fault: faults of the program itself are told and give exit code 1. -/
def refusal (start : String) (fault : Fault) : Except Fault Nat × List String :=
  if fault.faultClass.isOwn then (.ok 1, [start ++ fault.message]) else (.error fault, [])

/-- Does a command with a configuration. The journal is closed at the end. -/
def runCommand (verbose : Bool) (config : Config) (command : Command) (workspace : Workspace) :
    Outcome :=
  let console : Console := { engine := { config, workspace := { workspace with log := [] } } }
  let ((exit, last), console) :=
    match command.run console with
    | .ok () console => ((Except.ok 0, []), console)
    | .error fault console => (refusal "Error: " fault, console)
  let after := (console.engine.closed).workspace
  { exit
    output := joinLines console.output
    messages := joinLines (shownReports verbose after.log ++ console.messages ++ last)
    workspace := { after with log := workspace.log } }

/-- Loads the configuration that a command line asks for. -/
def Invocation.loadConfig (invocation : Invocation) (root : Path) : FilesM Config := do
  Config.load root (← Config.liftResult invocation.configPath)

/-- Does what a command line asks for. -/
def runInvocation (invocation : Invocation) (workspace : Workspace) : Outcome :=
  let ended (exit : Except Fault Nat) (messages : List String) : Outcome :=
    ⟨exit, "", joinLines messages, workspace⟩
  match invocation.rootPath with
  | .error fault => ended (.error fault) []
  | .ok path =>
    let root := path.resolve workspace.files.current
    if invocation.command == .serve then
      ended (.ok 1) ["Error: MCP package not installed.",
        "Install with: pip install inline-issues[mcp]"]
    else
      match invocation.loadConfig root workspace.files with
      | .error fault files =>
        let (exit, last) := refusal "Error loading config: " fault
        { ended exit last with workspace := { workspace with files } }
      | .ok config files =>
        runCommand invocation.verbose config invocation.command { workspace with files }

/-- Runs the program with the words of a command line. -/
def run (words : List String) (workspace : Workspace) : Outcome :=
  match readInvocation ⟨.root, workspace.files.current⟩ words with
  | .ok invocation => runInvocation invocation workspace
  | .error (.help _) => ⟨.ok 0, "", "", workspace⟩
  | .error (.complaint program complaint) =>
    ⟨.ok 2, "", joinLines [s!"{program}: error: {complaint.message}"], workspace⟩

end CommandLine

end Marginalia
