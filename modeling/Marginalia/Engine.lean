import Marginalia.Files.Replace
import Marginalia.Journal.Database
import Marginalia.Journal.Operations
import Marginalia.Scan.Source
import Marginalia.Snapshot.Reader
import Marginalia.Snapshot.Unchecked

/-!
# The engine

One project at work: it scans the tree, keeps the snapshot, and owns the journal, which it opens
when it is first needed. A writer holds the lock of the file it changes. A scan is finished before
the journal is touched, and what goes wrong in the journal leaves it as it was.
-/

namespace Marginalia

/-- What an engine works in: the files, what the version control system lists below a directory,
the clock, and what has been done so far. -/
structure Workspace where
  files : Files
  listing : Data → ListingOutcome
  now : Time.Moment
  /-- The runs of the version control system, the last one in front. -/
  runs : List (List String) := []
  /-- The reports, the last one in front. -/
  log : List LogLine := []

namespace Workspace

def report (workspace : Workspace) (level : LogLevel) (reporter : Reporter) (text : String) :
    Workspace :=
  { workspace with log := ⟨level, reporter, text⟩ :: workspace.log }

/-- The present time as snapshots write it. -/
def snapshotStamp (workspace : Workspace) : Except Fault String :=
  match workspace.now.snapshotStamp? with
  | some stamp => .ok stamp
  | none => .error .dateRange

end Workspace

structure Engine where
  config : Config
  workspace : Workspace
  /-- The journal, once it is open. -/
  journal : Option Journal.Handle := none

abbrev EngineM := EStateM Fault Engine

namespace Engine

def report (level : LogLevel) (reporter : Reporter) (text : String) : EngineM Unit :=
  modify fun engine => { engine with workspace := engine.workspace.report level reporter text }

/-- Does something to the files. -/
def onFiles (work : FilesM α) : EngineM α := fun engine =>
  match work engine.workspace.files with
  | .ok a files => .ok a { engine with workspace.files := files }
  | .error fault files => .error fault { engine with workspace.files := files }

/-- The journal, which is opened if it is not open yet. -/
def openJournal : EngineM Journal.Handle := do
  let engine ← get
  match engine.journal with
  | some handle => return handle
  | none =>
    let path ← liftExcept engine.config.databasePath
    let handle ← onFiles (Journal.openFile path (engine.config.journalTags.map Text.upper))
    modify fun engine => { engine with journal := some handle }
    return handle

/-- The engine after a session of its journal. -/
def keep (engine : Engine) (handle : Journal.Handle) (session : Journal.Session) : Engine :=
  let isChanged := handle.isChanged || session.store != handle.store
  { engine with
    journal := some {
      handle with store := session.store, isChanged, connection := session.connected }
    workspace.files := handle.save session.store engine.workspace.files
    workspace.log := session.log ++ engine.workspace.log }

/-- Does something to the journal. -/
def onJournal (work : Journal.JournalM α) : EngineM α := do
  let handle ← openJournal
  let store ← liftExcept (handle.current (← get).workspace.files)
  fun engine =>
    let session : Journal.Session := {
      store, tags := handle.tags, now := engine.workspace.now, connection := handle.connection }
    match work session with
    | .ok a session => .ok a (engine.keep handle session)
    | .error fault session => .error fault (engine.keep handle session)

/-- Runs a block while the lock of a file is held. However the block ends, the lock is given
back. -/
def locked (path : Path) (block : EngineM α) : EngineM α := do
  let lock ← onFiles (Files.acquire path)
  fun engine =>
    match block engine with
    | .ok a engine => (do onFiles (Files.release lock); return a) engine
    | .error fault engine => (do onFiles (Files.release lock); throw fault) engine

/-- The engine with the journal closed. It is opened again when it is needed. -/
def closed (engine : Engine) : Engine :=
  match engine.journal with
  | none => engine
  | some handle =>
    let (files, isWell) := handle.close engine.workspace.files
    let workspace := { engine.workspace with files }
    { engine with
      journal := none
      workspace := if isWell then workspace
        else workspace.report .debug .journal (Journal.closingReport handle.path) }

/-- Closes the journal. -/
def close : EngineM Unit := modify closed

/-- Makes the data directory and the journal, and says where. -/
def setUp : EngineM Path := do
  let path ← liftExcept (← get).config.dataPath
  onFiles (Files.ensureDirectory path)
  let _ ← openJournal
  return path

/-- The files below a directory that the version control system lists. -/
def listTracked (directory : Data) : EngineM (List String) := do
  let engine ← get
  let root := engine.config.root
  let run := Source.listingArguments root directory
  set { engine with workspace.runs := run :: engine.workspace.runs }
  liftExcept (Journal.checkHashable [directory])
  liftExcept (Source.listed root (engine.workspace.listing directory))

/-- The remarks below a directory, file by file and line by line, for the configured tags or for
others. A directory that does not count as true stands for the whole project. -/
def scan (directory : Data) (tags : Option Data) : EngineM (List Remark) := do
  let engine ← get
  let root := engine.config.root
  let scanner ← liftExcept (Scanner.ofConfig engine.config tags)
  let listed ← listTracked (if directory.holds then directory else .text ".")
  let names := listed.filter fun name => !ignored scanner.ignore name
  report .debug .scanner s!"Scanning {names.length} files under {root.text}"
  let remarks ← onFiles (scanner.scanFiles root names)
  let place ← if directory.holds then liftExcept (root.childOf directory) else pure root
  report .info .engine s!"Found {remarks.length} annotation(s) under {place.text}"
  return remarks

/-- The remarks of the whole project. -/
def scanAll : EngineM (List Remark) := scan .null none

/-- Writes a snapshot, to the configured file or to another one, and says where. -/
def writeSnapshot (observations : List Observation) (target : Option Path) : EngineM Path := do
  let engine ← get
  let path ← match target with
    | some path => pure path
    | none => liftExcept engine.config.snapshotPath
  let stamp ← liftExcept engine.workspace.snapshotStamp
  let text ← liftExcept (Snapshot.writeUnchecked stamp observations)
  onFiles (Files.withLock path (Files.replaceText path (.ok text.toList)))
  return path

/-- The rows of a snapshot. A missing file has none. -/
def readSnapshot (source : Option Path) : EngineM (List Snapshot.Row) := do
  let engine ← get
  let path ← match source with
    | some path => pure path
    | none => liftExcept engine.config.snapshotPath
  if ← onFiles (Files.doesExist path) then
    let text ← onFiles (Files.readText path)
    liftExcept (Snapshot.read engine.workspace.snapshotStamp (String.ofList text))
  else return []

/-- Brings the journal in line with observations, or with a scan of the whole project. -/
def sync (observations : Option (List Observation)) : EngineM Journal.SyncCounts := do
  let items ← match observations with
    | some items => pure items
    | none => do pure ((← scanAll).map Remark.observe)
  let path ← liftExcept (← get).config.databasePath
  let counts ← locked path (onJournal (Journal.sync items))
  report .info .engine (s!"Synced {counts.scanned} annotation(s): {counts.journaled} journaled, " ++
    s!"{counts.skipped} skipped, {counts.completed} completed")
  return counts

/-- Cancels a record of the journal, for good. -/
def cancel (id : Data) : EngineM Journal.Entry := do
  let path ← liftExcept (← get).config.databasePath
  locked path (onJournal (Journal.cancel id))

def listActive (limit offset : Data) : EngineM (List Journal.Entry) :=
  onJournal (Journal.list limit offset (some .active) .null)

/-- A page of the entries of a status and of a type, where these are given. A status that does not
count as true is none. -/
def list (limit offset status type : Data) : EngineM (List Journal.Entry) := do
  let _ ← openJournal
  let status ← if status.holds then some <$> liftExcept (Journal.Status.ofData status)
    else pure none
  onJournal (Journal.list limit offset status type)

def stats : EngineM Journal.Store.Stats :=
  onJournal Journal.stats

end Engine

end Marginalia
