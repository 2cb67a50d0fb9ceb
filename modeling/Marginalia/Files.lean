import Marginalia.Config.Script
import Marginalia.Files.Path
import Marginalia.Journal.Page
import Marginalia.Journal.Store
import Marginalia.Text.Lines
import Marginalia.Text.Utf8

/-!
# Files

A tree of directories and files without links. A place in the tree is the list of names that lead
to it from the root; a path leads to a place only through directories that exist. What the file
system refuses it refuses with an error number and without any effect.
-/

namespace Marginalia

/-- What a file holds. -/
inductive Content
  | bytes (bytes : Text.Bytes)
  /-- A script, with what it leaves behind when it is run. Bytes alone do not tell this. -/
  | script (bytes : Text.Bytes) (script : Script)
  /-- The tables of a journal. They are filed when the journal is closed and lie beside the file
  before that. -/
  | journal (store : Journal.Store) (isFiled : Bool)
  deriving BEq, Repr

/-- The bytes of a file. Of a journal that is filed they are the start of the file. -/
def Content.toBytes : Content → Text.Bytes
  | .bytes data | .script data _ => data
  | .journal _ isFiled => if isFiled then Journal.filedStart else Journal.emptyPage

/-- What a place holds. A file has a number of its own, which it keeps when it is written to or
moved. -/
inductive Node
  | directory
  | file (number : Nat) (content : Content)
  deriving BEq, Repr

/-- The content of a file. -/
def Node.content? : Node → Option Content
  | directory => none
  | file _ content => some content

/-- The names that lead to a place from the root. -/
abbrev Place := List String

structure Files where
  /-- All places below the root that hold something. -/
  nodes : List (Place × Node)
  /-- The place that relative paths start from. -/
  current : Place
  /-- The number of the next file that is made. -/
  next : Nat := 0
  /-- The numbers of the files that are locked. They may have lost their places. -/
  locks : List Nat := []
  deriving BEq, Repr

/-- The longest name, in bytes. -/
def nameLimit : Nat := 255

/-- The longest path, in bytes. -/
def pathLimit : Nat := 4095

def errNoEntry : Nat := 2
def errBusy : Nat := 16
def errExists : Nat := 17
def errNotDirectory : Nat := 20
def errIsDirectory : Nat := 21
def errNameTooLong : Nat := 36
def errLinks : Nat := 40

namespace Files

/-- What is at a place. -/
def node? (files : Files) (place : Place) : Option Node :=
  if place.isEmpty then some .directory else files.nodes.lookup place

/-- The files with something put at a place. -/
def put (files : Files) (place : Place) (node : Node) : Files :=
  { files with nodes := (place, node) :: files.nodes.filter fun (other, _) => other != place }

/-- The files with a new file at a place. -/
def make (files : Files) (place : Place) (content : Content) : Files :=
  { files.put place (.file files.next content) with next := files.next + 1 }

/-- The files with something written to the file at a place, which is made if it is missing. -/
def write (files : Files) (place : Place) (content : Content) : Files :=
  match files.node? place with
  | some (.file number _) => files.put place (.file number content)
  | _ => files.make place content

/-- The files without what is at a place. -/
def erase (files : Files) (place : Place) : Files :=
  { files with nodes := files.nodes.filter fun (other, _) => other != place }

/-- The place that names lead to from a place. Each name is looked for in a directory. -/
def walk (files : Files) : Place → List String → Except Nat Place
  | place, [] => .ok place
  | place, name :: rest =>
    match files.node? place with
    | none => .error errNoEntry
    | some (.file ..) => .error errNotDirectory
    | some .directory =>
      if nameLimit < name.utf8ByteSize then .error errNameTooLong
      else if name == ".." then walk files place.dropLast rest
      else walk files (place ++ [name]) rest

/-- The place that a path leads to. -/
def locate (files : Files) (path : Path) : Except Nat Place :=
  if pathLimit < path.text.utf8ByteSize then .error errNameTooLong
  else files.walk (if path.anchor == .relative then files.current else []) path.parts

/-- What a path leads to. -/
def look (files : Files) (path : Path) : Except Nat Node := do
  match files.node? (← files.locate path) with
  | some node => .ok node
  | none => .error errNoEntry

/-- Makes a directory. -/
def makeDirectory (files : Files) (path : Path) : Except Nat Files := do
  let place ← files.locate path
  match files.node? place with
  | some _ => .error errExists
  | none => .ok (files.put place .directory)

/-- Opens a file for writing: it is empty from then on. -/
def openForWriting (files : Files) (path : Path) : Except Nat (Files × Place) := do
  let place ← files.locate path
  match files.node? place with
  | some .directory => .error errIsDirectory
  | _ => .ok (files.write place (.bytes []), place)

/-- Makes an empty file unless something is there. -/
def touch (files : Files) (path : Path) : Except Nat Files := do
  let place ← files.locate path
  match files.node? place with
  | some _ => .ok files
  | none => .ok (files.make place (.bytes []))

/-- Removes a file. -/
def unlink (files : Files) (path : Path) : Except Nat Files := do
  let place ← files.locate path
  match files.node? place with
  | none => .error errNoEntry
  | some .directory => .error errIsDirectory
  | some (.file ..) => .ok (files.erase place)

/-- Puts a file in the place of another one. -/
def rename (files : Files) (source target : Path) : Except Nat Files := do
  let source ← files.locate source
  if target.name == ".." then .error errBusy
  else do
    let place ← files.locate target
    match files.node? source, files.node? place with
    | none, _ => .error errNoEntry
    | some _, some .directory => .error errIsDirectory
    | some node, _ => .ok ((files.erase source).put place node)

end Files

abbrev FilesM := EStateM Fault Files

namespace Files

/-- The fault of a call about a path. -/
def refusal (path : Path) (code : Nat) : Fault :=
  .system ⟨code, path.text, none⟩

/-- Refuses paths that no call can be made about. -/
def checkPath (path : Path) : Except Fault Unit :=
  if path.text.toList.contains '\x00' then .error .nullByte else .ok ()

/-- A call that changes the files. -/
def change (path : Path) (call : Files → Except Nat Files) : FilesM Unit := fun files =>
  match checkPath path with
  | .error fault => .error fault files
  | .ok () =>
    match call files with
    | .ok changed => .ok () changed
    | .error code => .error (refusal path code) files

/-- A call that looks at the files. -/
def query (path : Path) (call : Files → Except Nat α) : FilesM α := fun files =>
  match checkPath path with
  | .error fault => .error fault files
  | .ok () =>
    match call files with
    | .ok a => .ok a files
    | .error code => .error (refusal path code) files

/-- Error numbers that mean that there is nothing at a path. -/
def meansAbsent (code : Nat) : Bool :=
  code == errNoEntry || code == errNotDirectory || code == errLinks

/-- What is at a path, if anything is. -/
def find? (path : Path) : FilesM (Option Node) := fun files =>
  match checkPath path with
  | .error _ => .ok none files
  | .ok () =>
    match files.look path with
    | .ok node => .ok (some node) files
    | .error code => if meansAbsent code then .ok none files else .error (refusal path code) files

def doesExist (path : Path) : FilesM Bool := do
  return (← find? path).isSome

def isDirectory (path : Path) : FilesM Bool := do
  return (← find? path) == some .directory

/-- Makes a directory, unless there is one already. -/
def ensureOne (path : Path) : FilesM Unit := fun files =>
  match change path (·.makeDirectory path) files with
  | .ok () changed => .ok () changed
  | .error (.system fault) same =>
    (do if ← isDirectory path then pure () else throw (Fault.system fault)) same
  | .error fault same => .error fault same

/-- Makes a directory and those above it that are missing. The names come last one first. -/
def ensureNames (anchor : Anchor) : (reversed : List String) → FilesM Unit
  | [] => ensureOne ⟨anchor, []⟩
  | name :: above => fun files =>
    let path : Path := ⟨anchor, (name :: above).reverse⟩
    match change path (·.makeDirectory path) files with
    | .ok () changed => .ok () changed
    | .error (.system fault) same =>
      if fault.code == errNoEntry then (do ensureNames anchor above; ensureOne path) same
      else ensureOne path same
    | .error fault same => .error fault same

/-- Makes a directory and those above it that are missing. -/
def ensureDirectory (path : Path) : FilesM Unit :=
  ensureNames path.anchor path.parts.reverse

/-- The content of a file. -/
def readContent (path : Path) : FilesM Content := do
  match ← query path (·.look path) with
  | .file _ content => return content
  | .directory => throw (refusal path errIsDirectory)

/-- The bytes of a file. -/
def readBytes (path : Path) : FilesM Text.Bytes := do
  return (← readContent path).toBytes

/-- The text of a file, its newlines unified. -/
def readText (path : Path) : FilesM (List Char) := do
  match Text.decodeBytes (← readBytes path) with
  | .ok cs => return Text.unifyNewlines cs
  | .error fault => throw (.decoding fault)

end Files

end Marginalia
