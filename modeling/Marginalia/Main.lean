import Marginalia.CommandLine
import Marginalia.Journal.Archive
import Marginalia.Scan.Listing
import Std.Time.DateTime.Timestamp

/-!
# The program

Reads the files that a command line is about, runs the command, and writes back what it changed;
everything in between works on values. The names of the files to scan are read from the standard
input, each followed by a zero byte.
-/

namespace Marginalia

namespace Disk

def textOf (place : Place) : String := Path.text ⟨.root, place⟩

/-- Adds a directory and those above it. -/
def addDirectory (files : Files) (place : Place) : Files :=
  (List.range (place.length + 1)).foldl (fun files n =>
    let above := place.take n
    if (files.node? above).isSome then files else files.put above .directory) files

/-- Adds the file at a place, if there is one. One that may not be read is not taken for missing,
since it would be replaced. -/
def add (files : Files) (place : Place) : IO Files := do
  match ← (IO.FS.readBinFile (textOf place)).toBaseIO with
  | .ok bytes =>
    return (addDirectory files place.dropLast).write place (.ofDisk bytes.toList)
  | .error (.permissionDenied file code text) => throw (.permissionDenied file code text)
  | .error _ => return files

/-- Brings a place up to what it holds now. A file is replaced as a whole. -/
def update (place : Place) : Node → IO Unit
  | .directory => IO.FS.createDirAll (textOf place)
  | .file _ content => do
    let draft := textOf place ++ "~"
    IO.FS.writeBinFile draft ⟨content.onDisk.toArray⟩
    IO.FS.rename draft (textOf place)

/-- Writes back what differs, directories before what is in them. -/
def writeBack (before after : Files) : IO Unit := do
  for (place, _) in before.nodes do
    if (after.node? place).isNone then IO.FS.removeFile (textOf place)
  for (place, node) in after.nodes.mergeSort fun a b => a.1.length ≤ b.1.length do
    if before.node? place != some node then update place node

end Disk

/-- The present time, as far as years have four digits. -/
def presentTime : IO Time.Moment := do
  let epoch : Time.Moment := ⟨⟨1970, 1, 1⟩, ⟨0, 0, 0, 0⟩, some 0⟩
  let now ← Std.Time.Timestamp.now
  let micros := now.toNanosecondsSinceUnixEpoch.val / 1000
  return (Time.Moment.ofInstant? (epoch.instant + micros)).getD epoch

/-- The paths of the files that a configuration names. -/
def Config.paths (config : Config) : List Path :=
  [config.snapshotPath, config.databasePath].filterMap Except.toOption

namespace CommandLine

/-- Whether a command scans. -/
def Command.scans : Command → Bool
  | .scan .. | .sync => true
  | _ => false

/-- The files that a command writes by name. -/
def Command.targets : Command → List Path
  | .scan _ _ _ out _ => out.toList
  | _ => []

/-- The names in the standard input. -/
def readListing : IO (List String) := do
  let bytes ← (← IO.getStdin).readBinToEnd
  return Source.namesOf (Text.repairBytes bytes.toList)

/-- The files that a command line is about, among them those with given names. -/
def filesFor (invocation : Invocation) (current : Place) (names : List String) : IO Files := do
  let .ok path := invocation.rootPath | return { nodes := [], current }
  let root := path.resolve current
  let addAll (files : Files) (paths : List Path) : IO Files :=
    paths.foldlM (fun files path => Disk.add files (path.resolve current).parts) files
  let start := Disk.addDirectory (Disk.addDirectory { nodes := [], current } current) root.parts
  let named := (invocation.configPath.toOption.bind id).toList
  let settings := named ++ Config.fileNames.map root.child
  let files ← addAll start (settings ++ invocation.command.targets ++ names.map root.child)
  match invocation.loadConfig root files with
  | .ok config files => addAll files config.paths
  | .error _ files => return files

/-- Runs a command line in a directory. -/
def runIn (current : Place) (words : List String) : IO UInt32 := do
  let mut names : List String := []
  let mut files : Files := { nodes := [], current }
  if let .ok invocation := readInvocation ⟨.root, current⟩ words then
    if invocation.command.scans then names ← readListing
    files ← filesFor invocation current names
  let outcome := run words { files, listing := Source.narrowed names, now := ← presentTime }
  Disk.writeBack files outcome.workspace.files
  IO.print outcome.output
  IO.eprint outcome.messages
  match outcome.exit with
  | .ok code => return code.toUInt32
  | .error fault =>
    IO.eprintln fault.message
    return 1

end CommandLine

end Marginalia

def main (words : List String) : IO UInt32 := do
  let current := Marginalia.Path.ofText (toString (← IO.currentDir))
  Marginalia.CommandLine.runIn current.parts words
