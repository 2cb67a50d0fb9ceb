import Marginalia.Data.Access
import Marginalia.Files.Path
import Marginalia.Remark.Tags

/-!
# Configuration

What a project scans for, what it journals, and where it keeps its files. A configuration is made
from settings, data with the groups `project`, `directories`, `scan` and `journal`. File names
are taken over unchecked, and first used when a path is asked for.
-/

namespace Marginalia

open Text (trim upper splitOn)

def defaultTags : List String := ["TODO", "BUG", "FIXME", "XXX", "HACK", "NOTE", "QUESTION"]

def defaultIgnore : List String := ["vendor/", "node_modules/", "dist/", ".git/", "*.min.js"]

def defaultJournalTags : List String := ["TODO", "BUG"]

/-- Tags of remarks that are settled, which a scan takes in on demand. -/
def resolvedTags : List String := ["DONE", "RESOLVED"]

/-- What a custom tool does with its parameters. Some actions are told outright; any other one is a
function, known by its name. -/
inductive ToolAction
  /-- Does what the function of a name does. -/
  | function (name : String)
  /-- Gives the parameters back inside an object. -/
  | echo
  /-- Fails with a text that starts so, and tells why. -/
  | fail (start : String)
  /-- Counts the active records, and gives a fixed text. -/
  | countActive (text : String)
  /-- Gives the parameters back in a list. -/
  | wrap
  /-- Counts the remarks of each owner. -/
  | ownerReport
  /-- Lists the critical remarks. -/
  | critical
  /-- Gives a fixed value. -/
  | constant (value : Data)
  /-- Is no function but a value, and cannot be called. -/
  | value (value : Data)
  deriving BEq, Repr

/-- A tool that a project adds: its name, its description if it has one, and what it does. -/
structure CustomTool where
  name : String
  description : Option String
  action : ToolAction
  deriving BEq, Repr

structure Config where
  projectName : String := "unnamed"
  root : Path
  dataDir : Data := .text ".inline-issues"
  snapshotFile : Data := .text "issues.txt"
  databaseFile : Data := .text "journal.db"
  tags : List String := defaultTags
  ignore : List String := defaultIgnore
  includeResolved : Bool := false
  journalTags : List String := defaultJournalTags
  lockTimeout : Decimal.Binary64 := .ofRatio false 10 1
  customTools : List CustomTool := []
  deriving BEq, Repr

/-- The parts of a text between commas, trimmed, blank ones left out. -/
def splitList (text : List Char) : List String :=
  (((splitOn ',' text).map trim).filter fun part => !part.isEmpty).map String.ofList

namespace Config

/-- The texts of a setting: a list of texts, or one text with commas. -/
def stringList (group key : String) (value : Data) : Except Fault (List String) :=
  match value with
  | .text s => .ok (splitList s.toList)
  | .list items =>
    match items.mapM Data.text? with
    | some strings => .ok strings
    | none => .error (.notStringList group key)
  | _ => .error (.notStringList group key)

def switch (group key : String) (value : Data) : Except Fault Bool :=
  match value with
  | .bool b => .ok b
  | _ => .error (.notSwitch group key)

/-- The number under a key. A refusal tells which setting is wrong, unless nothing can be looked up
in the settings or the number is too large. -/
def number? (group key : String) (settings : Data) :
    Except Fault (Option Decimal.Binary64) :=
  match settings.member? key with
  | .ok none => .ok none
  | .ok (some value) =>
    match value.toReal with
    | .ok x => .ok (some x)
    | .error .realRange => .error .realRange
    | .error fault => .error (.notNumber group key fault)
  | .error (.noMembership kind) => .error (.noMembership kind)
  | .error fault => .error (.notNumber group key fault)

/-- Applies a change for the entry of a key, if there is one. -/
def whenSet (d : Data) (key : String) (config : Config) (change : Data → Except Fault Config) :
    Except Fault Config := do
  match ← d.member? key with
  | some value => change value
  | none => .ok config

def applyProject (config : Config) (group : Data) : Except Fault Config :=
  whenSet group "name" config fun value => do
    .ok { config with projectName := ← value.written }

def applyDirectories (config : Config) (group : Data) : Except Fault Config := do
  let config ← whenSet group "data" config fun value => .ok { config with dataDir := value }
  let config ← whenSet group "snapshot" config fun value =>
    .ok { config with snapshotFile := value }
  whenSet group "database" config fun value => .ok { config with databaseFile := value }

def applyScan (config : Config) (group : Data) : Except Fault Config := do
  let config ← whenSet group "tags" config fun value => do
    .ok { config with tags := ← stringList "scan" "tags" value }
  let config ← whenSet group "ignore" config fun value => do
    .ok { config with ignore := ← stringList "scan" "ignore" value }
  whenSet group "include_resolved" config fun value => do
    .ok { config with includeResolved := ← switch "scan" "include_resolved" value }

def applyJournal (config : Config) (group : Data) : Except Fault Config := do
  let config ← whenSet group "tags" config fun value => do
    .ok { config with journalTags := (← stringList "journal" "tags" value).map upper }
  match ← number? "journal" "lock_timeout" group with
  | some timeout => .ok { config with lockTimeout := timeout }
  | none => .ok config

/-- The configuration of a project with given settings. -/
def ofSettings (root : Path) (settings : Data) : Except Fault Config := do
  let config : Config := { root }
  let config ← whenSet settings "project" config config.applyProject
  let config ← whenSet settings "directories" config config.applyDirectories
  let config ← whenSet settings "scan" config config.applyScan
  whenSet settings "journal" config config.applyJournal

def dataPath (config : Config) : Except Fault Path :=
  config.root.childOf config.dataDir

def snapshotPath (config : Config) : Except Fault Path := do
  (← config.dataPath).childOf config.snapshotFile

def databasePath (config : Config) : Except Fault Path := do
  (← config.dataPath).childOf config.databaseFile

/-- The tags to scan for instead of the configured ones, where a value is given: its texts. -/
def overrideTags (value : Option Data) : Except Fault (Option (List String)) :=
  match value with
  | none => .ok none
  | some data => do
    let items ← data.iterate
    .ok (some (← items.mapM (·.textFor "strip")))

/-- The tags to scan for in normal form, each one once. -/
def effectiveTags (config : Config) (override : Option (List String)) : List String :=
  let base := override.getD config.tags
  let all := if config.includeResolved then base ++ resolvedTags else base
  (distinct ((all.map normalTag).filter fun tag => !tag.isEmpty)).map String.ofList

end Config

end Marginalia
