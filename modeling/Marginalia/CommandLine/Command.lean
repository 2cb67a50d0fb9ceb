import Marginalia.CommandLine.Arguments
import Marginalia.Data.Access
import Marginalia.Files

/-!
# Commands

The commands of the program, how they are written on a command line, and what they ask for.
-/

namespace Marginalia.CommandLine

def programName : String := "inline-issues"

def helpFlag : Flag := { names := ["-h", "--help"], field := "help", kind := .help }

def limitFlag : Flag :=
  { names := ["--limit"], field := "limit", kind := .value .whole, default := .int 200 }

def offsetFlag : Flag :=
  { names := ["--offset"], field := "offset", kind := .value .whole, default := .int 0 }

def formatFlag : Flag :=
  { names := ["--format"], field := "format", kind := .value (.oneOf ["text", "json"])
    default := .text "text" }

/-- The flags of a command. -/
def commandFlags : String → List Flag
  | "scan" => [
    { names := ["--path"], field := "path", kind := .value .text },
    { names := ["--tag", "-t"], field := "tag", kind := .value .text },
    { names := ["--include-resolved", "-r"], field := "include_resolved", kind := .switch },
    { names := ["--out", "-o"], field := "out", kind := .value .path },
    { names := ["--json"], field := "json", kind := .switch, default := .bool false }]
  | "active" => [limitFlag, offsetFlag, formatFlag]
  | "history" => [
    limitFlag, offsetFlag,
    { names := ["--status"], field := "status"
      kind := .value (.oneOf (Journal.Status.all.map Journal.Status.name)) },
    { names := ["--type"], field := "record_type", kind := .value .text },
    formatFlag]
  | "stats" => [formatFlag]
  | _ => []

def commandNames : List String :=
  ["serve", "init", "scan", "sync", "active", "history", "stats", "cancel"]

def commandGrammar (name : String) : Grammar where
  program := programName ++ " " ++ name
  flags := helpFlag :: commandFlags name
  operand := if name == "cancel" then .whole "id" else .none

/-- The grammar of the program, which is run in a directory. -/
def mainGrammar (current : Path) : Grammar where
  program := programName
  flags := [
    helpFlag,
    { names := ["--project-root", "-p"], field := "project_root", kind := .value .path
      default := .text current.text },
    { names := ["--config", "-c"], field := "config", kind := .value .path },
    { names := ["--verbose", "-v"], field := "verbose", kind := .switch
      default := .bool false }]
  operand := .command "command" commandNames

/-- Reads a command line in a directory. -/
def readOptions (current : Path) (words : List String) : Except Refusal Options :=
  parse (mainGrammar current) commandGrammar words

/-- How records are printed. -/
inductive Format
  | text
  | json
  deriving DecidableEq, Repr

/-- A command with its options. An option that was given a double dash holds an empty list. -/
inductive Command
  | serve
  | init
  | scan (path : Data) (tags : Option String) (includeResolved : Bool) (out : Option Path)
      (json : Bool)
  | sync
  | active (limit offset : Data) (format : Format)
  | history (limit offset status type : Data) (format : Format)
  | stats (format : Format)
  | cancel (id : Data)
  deriving BEq, Repr

/-- What a command line asks for. -/
structure Invocation where
  root : Data
  config : Data
  verbose : Bool
  command : Command
  deriving BEq, Repr

def option (options : Options) (field : String) : Data :=
  (valueOf? options field).getD .null

def optionText? (options : Options) (field : String) : Option String :=
  (option options field).text?

def optionPath? (options : Options) (field : String) : Option Path :=
  (optionText? options field).map Path.ofText

def optionSwitch (options : Options) (field : String) : Bool :=
  option options field == .bool true

def optionFormat (options : Options) : Format :=
  if optionText? options "format" == some "json" then .json else .text

/-- The command in the options of a command line. Without a command the program serves. -/
def Command.ofOptions (options : Options) : Command :=
  match optionText? options "command" with
  | some "init" => .init
  | some "scan" =>
    .scan (option options "path") (optionText? options "tag")
      (optionSwitch options "include_resolved") (optionPath? options "out")
      (optionSwitch options "json")
  | some "sync" => .sync
  | some "active" =>
    .active (option options "limit") (option options "offset") (optionFormat options)
  | some "history" =>
    .history (option options "limit") (option options "offset") (option options "status")
      (option options "record_type") (optionFormat options)
  | some "stats" => .stats (optionFormat options)
  | some "cancel" => .cancel (option options "id")
  | _ => .serve

def Invocation.ofOptions (options : Options) : Invocation where
  root := option options "project_root"
  config := option options "config"
  verbose := optionSwitch options "verbose"
  command := .ofOptions options

/-- The directory of the project. -/
def Invocation.rootPath (invocation : Invocation) : Except Fault Path := do
  let path := Path.ofText (← invocation.root.textFor "resolve")
  Files.checkPath path
  .ok path

/-- The settings file that is named, if one is. -/
def Invocation.configPath (invocation : Invocation) : Except Fault (Option Path) :=
  match invocation.config with
  | .null => .ok none
  | value => (value.textFor "suffix").map fun text => some (Path.ofText text)

/-- What a command line asks for that is read in a directory. -/
def readInvocation (current : Path) (words : List String) : Except Refusal Invocation := do
  .ok (.ofOptions (← readOptions current words))

end Marginalia.CommandLine
