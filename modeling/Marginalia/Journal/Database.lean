import Marginalia.Files
import Marginalia.Journal.Connection
import Marginalia.Journal.Schema

/-!
# Journal files

The file that holds the tables of a journal. A missing or empty file is a journal without records;
a file that holds anything else is refused. An open journal keeps to its file: when the file is
removed or replaced, the journal goes on with the tables it had, and they are lost when it is
closed. When the file is overwritten, the journal puts back what was stored since it was opened.
-/

namespace Marginalia.Journal

/-- A journal that is open. -/
structure Handle where
  path : Path
  place : Place
  /-- The number of the file. -/
  number : Nat
  /-- Whether the file was empty before. -/
  isNew : Bool
  /-- Whether something was stored since the journal was opened. -/
  isChanged : Bool := false
  /-- The tags that are kept. -/
  tags : List String
  /-- The tables as they were last seen. -/
  store : Store
  connection : Connection := {}
  deriving Repr

namespace Handle

/-- What the file of the journal holds, unless it is gone from its place. -/
def content? (handle : Handle) (files : Files) : Option Content :=
  match files.node? handle.place with
  | some (.file number content) => if number == handle.number then some content else none
  | _ => none

/-- The tables of the journal. They cannot be told from a file that was overwritten before anything
was stored in it. -/
def current (handle : Handle) (files : Files) : Except Fault Store :=
  match handle.content? files with
  | none => .ok handle.store
  | some (.journal store _) => .ok store
  | some _ =>
    if handle.isNew || handle.isChanged then .ok handle.store else .error .malformedDatabase

/-- The files with the tables stored. -/
def save (handle : Handle) (store : Store) (files : Files) : Files :=
  match handle.content? files with
  | some (.journal _ isFiled) => files.write handle.place (.journal store isFiled)
  | _ => files

/-- The files after the journal is closed, and whether all went well. A file that was overwritten
gets its tables back if all of them were stored since the journal was opened. -/
def close (handle : Handle) (files : Files) : Files × Bool :=
  match handle.content? files with
  | none => (files, false)
  | some (.journal store _) => (files.write handle.place (.journal store true), true)
  | some content =>
    if handle.isNew then (files.write handle.place (.journal handle.store true), true)
    else if handle.isChanged then
      (files.write handle.place (.bytes (content.toBytes ++ [0, 0])), false)
    else if content.toBytes.length < 2 then (files.write handle.place (.bytes []), true)
    else (files, false)

end Handle

/-- The longest path of a journal with the files beside it, in bytes. -/
def journalPathLimit : Nat := 512

/-- What is added to the names of the files beside a journal, at most, in bytes. -/
def sideSuffixSize : Nat := 8

/-- The tables that a file holds before they are opened, none if it is empty. A single byte counts
as nothing. -/
def tablesIn : Content → Except Fault (Option Store)
  | .journal store _ => .ok (some store)
  | content => if content.toBytes.length < 2 then .ok none else .error .notDatabase

/-- Opens the journal at a path; its directory and the file are made if they are missing. A name
that leaves no room for the files beside the journal is refused when the file is there. -/
def openFile (path : Path) (tags : List String) : FilesM Handle := do
  Files.ensureDirectory path.parent
  liftExcept (Files.checkPath path)
  let .ok place := (← get).locate path | throw .noDatabaseFile
  let size := (Path.text ⟨.root, place⟩).utf8ByteSize
  if journalPathLimit < size + sideSuffixSize then throw .noDatabaseFile
  if ((← get).node? place).isNone then modify fun files => files.make place (.bytes [])
  let some (.file number content) := (← get).node? place | throw .noDatabaseFile
  let tables ← liftExcept (tablesIn content)
  if nameLimit < path.name.utf8ByteSize + sideSuffixSize then throw .noDatabaseFile
  let store ← liftExcept ((tables.getD .fresh).opened)
  modify fun files => files.write place (.journal store tables.isSome)
  return { path, place, number, isNew := tables.isNone, tags, store }

end Marginalia.Journal
