import Marginalia.Config.Legacy
import Marginalia.Data.Json.Reader
import Marginalia.Data.Toml.Reader
import Marginalia.Files

/-!
# Loading configurations

Settings are looked for under six names in the directory of the project, or read from a file that
is named. The end of the name tells how the file is read. A project without settings has the
default configuration.
-/

namespace Marginalia.Config

open Text (lower)

/-- The names of settings files, in the order they are looked for. -/
def fileNames : List String :=
  ["issues_config.py", "issues_config.toml", "issues_config.json", ".inline-issues.toml",
    ".inline-issues.json", ".gitodos"]

/-- The first settings file that is there, of those with given names. -/
def findAmong (root : Path) : List String → FilesM (Option Path)
  | [] => return none
  | name :: rest => do
    let path := root.child name
    if ← Files.doesExist path then return some path else findAmong root rest

def findFile (root : Path) : FilesM (Option Path) :=
  findAmong root fileNames

/-- The text of a settings file. -/
def decodedText (path : Path) : FilesM (List Char) := do
  match Text.decodeBytes (← Files.readBytes path) with
  | .ok cs => return cs
  | .error _ => throw .malformedSettings

def loadToml (path : Path) : FilesM Data := do
  match Toml.read (← decodedText path) with
  | .ok data => return data
  | .error .form => throw .malformedSettings
  | .error (.tooLong digits) => throw (.numeral (.tooLong digits))
  | .error .tooDeep => throw (.nested "")

def loadJson (path : Path) : FilesM Data := do
  match Json.read (Text.unifyNewlines (← decodedText path)) with
  | .ok data => return data
  | .error .form => throw .malformedSettings
  | .error (.tooLong digits) => throw (.numeral (.tooLong digits))
  | .error (.tooDeep nest) =>
    throw (.nested s!" while decoding a JSON {nest.name} from a unicode string")

def loadLegacy (path : Path) : FilesM Data := do
  return readLegacy (Text.unifyNewlines (← decodedText path))

/-- What a script leaves behind. Only names that end in small letters are run. A script is looked
for from the root on. An empty file is a script that does nothing; no other file is run unless it
is known what it does. -/
def loadScript (path : Path) : FilesM Script := do
  if path.suffix != ".py" then throw (.scriptUnloadable path.text)
  let absolute := Path.join ⟨.root, (← get).current⟩ path
  match ← Files.readContent absolute with
  | .script _ script =>
    match script.departure, script.failure with
    | some departure, _ => throw (.departure departure)
    | none, some reason => throw (.custom reason)
    | none, none => return script
  | .bytes [] => return {}
  | _ => throw (.scriptUnloadable path.text)

/-- A fault while a settings file is read or applied, as the caller gets it. Departures pass. -/
def loadingFault (path : Path) (fault : Fault) : Fault :=
  if !fault.isOrdinary then fault
  else if fault.faultClass == .config then .configFile path.text fault
  else .configUnreadable path.text fault

/-- Runs a reader of settings. -/
def guarded (path : Path) (reader : FilesM Config) : FilesM Config := fun files =>
  match reader files with
  | .ok config files => .ok config files
  | .error fault files => .error (loadingFault path fault) files

def liftResult (result : Except Fault α) : FilesM α :=
  match result with
  | .ok a => pure a
  | .error fault => throw fault

/-- The configuration from a settings file. -/
def loadFile (root path : Path) : FilesM Config :=
  let suffix := lower path.suffix
  if suffix == ".py" then
    guarded path do
      let script ← loadScript path
      let config ← liftResult (ofSettings root script.settings)
      return { config with customTools := script.allTools }
  else if suffix == ".toml" then
    guarded path do liftResult (ofSettings root (← loadToml path))
  else if suffix == ".json" then
    guarded path do liftResult (ofSettings root (← loadJson path))
  else if path.name == ".gitodos" then
    guarded path do liftResult (ofSettings root (← loadLegacy path))
  else throw (.configKind (if suffix.isEmpty then path.name else suffix))

/-- The configuration of a project, from a file that is named or from the first one found. -/
def load (root : Path) (explicit : Option Path) : FilesM Config := do
  let path ← match explicit with
    | some path => pure (some path)
    | none => findFile root
  match path with
  | some path => loadFile root path
  | none => return { root }

end Marginalia.Config
