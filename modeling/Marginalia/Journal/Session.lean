import Marginalia.Files.Path
import Marginalia.Journal.Connection
import Marginalia.Journal.Schema
import Marginalia.Journal.Seed
import Marginalia.Log

/-!
# Journal sessions

A journal that is in use: its tables, the tags it keeps, the clock, and what it reported. Changes
are made in transactions. A block inside a transaction joins it, and a fault that leaves the
outermost block takes everything back that was done since its start. Two things give up an open
transaction before its block ends: closing the journal, and a fault that the database cannot go on
from, such as running out of record numbers. The block cannot end well any more then. A closed
journal is opened by the next operation on its tables.
-/

namespace Marginalia.Journal

structure Session where
  store : Store
  /-- The tables and keys at the start of the open transaction, if one is open. -/
  saved : Option (Store × List (Option String)) := none
  /-- How often the journal was closed. -/
  closings : Nat := 0
  /-- The connection to the database, if it is open. -/
  connection : Option Connection := some {}
  /-- Whether an attempt to open the journal was refused. The refused one keeps the file in use. -/
  isShared : Bool := false
  /-- The tags whose remarks are journaled, in capitals. -/
  tags : List String
  now : Time.Moment
  /-- The keys of the last reconciliation, as far as they are still there. -/
  keys : List (Option String) := []
  /-- The reports, the last one in front. -/
  log : List LogLine := []
  deriving Repr

abbrev JournalM := EStateM Fault Session

namespace Session

/-- Whether a transaction is open. -/
def inTransaction (s : Session) : Bool := s.saved.isSome

/-- The connection, opened if it is not open. -/
def connected (s : Session) : Connection := s.connection.getD {}

/-- The session after something went well on its connection. -/
def settled (s : Session) : Session := { s with connection := some s.connected.settled }

/-- The session after a statement with a fault. -/
def failed (s : Session) (fault : Fault) : Session :=
  { s with connection := some (s.connected.failed fault) }

/-- The session at the start of a block. -/
def enter (s : Session) : Session :=
  if s.inTransaction then s else { s.settled with saved := some (s.store, s.keys) }

/-- The session with the open transaction given up. -/
def giveUp (s : Session) : Session :=
  match s.saved with
  | some (store, keys) => { s with store, keys, saved := none }
  | none => s

/-- The fault by which a block ends that was entered from `s`, got to `t`, and perhaps was left by
a fault. A transaction that the block began has to be still there at its end. -/
def blockFault (s t : Session) (fault : Option Fault) : Option Fault :=
  if s.inTransaction then fault
  else if t.closings != s.closings then some .closed
  else if t.inTransaction then fault
  else fault <|> some .noTransaction

/-- The session after a block that was entered from `s` and ended well at `t`. -/
def commit (s t : Session) : Session :=
  if s.inTransaction then t else { t.settled with saved := none }

/-- The session after a block that was entered from `s` and left by a fault at `t`. -/
def rollback (s t : Session) (fault : Fault) : Session :=
  if s.inTransaction then t
  else if t.closings != s.closings then t.giveUp
  else if t.inTransaction then t.giveUp.settled
  else
    match fault with
    | .noTransaction => t.failed fault
    | _ => t

def report (s : Session) (level : LogLevel) (text : String) : Session :=
  { s with log := ⟨level, .journal, text⟩ :: s.log }

/-- The present time as the journal writes it. -/
def stamp (s : Session) : Except Fault String :=
  match s.now.stamp? with
  | some text => .ok text
  | none => .error .dateRange

end Session

def report (level : LogLevel) (text : String) : JournalM Unit :=
  modify fun s => s.report level text

/-- Runs a block in a transaction. -/
def transaction (block : JournalM α) : JournalM α := fun s =>
  match block s.enter with
  | .ok a t =>
    match s.blockFault t none with
    | none => .ok a (s.commit t)
    | some fault => .error fault (s.rollback t fault)
  | .error fault t =>
    let fault := (s.blockFault t (some fault)).getD fault
    .error fault (s.rollback t fault)

/-- A statement by whose fault the database ends the open transaction itself. -/
def strike (fault : Fault) : JournalM α := fun s => .error fault (s.failed fault).giveUp

/-- Changes the tables. A statement that finds no number left gives up the open transaction. -/
def change (statement : Store → Except Fault (α × Store)) : JournalM α := fun s =>
  match statement s.store with
  | .ok (a, store) => .ok a { s.settled with store }
  | .error .full => strike .full s
  | .error fault => .error fault (s.failed fault)

/-- Looks into the tables. -/
def query (statement : Store → Except Fault α) : JournalM α :=
  change fun store => (statement store).map fun a => (a, store)

/-- Prepares a statement and takes its first parameter. -/
def parameter (statement : Statement) (value : Data) : JournalM Unit := fun s =>
  match (s.connected.prepare statement).take value with
  | (.ok (), connection) => .ok () { s with connection := some connection }
  | (.error fault, connection) => .error fault { s with connection := some connection }

/-- The report about a journal that is closed without its file being put in order. -/
def closingReport (path : Path) : String :=
  s!"Could not checkpoint {path.text} on close"

/-- Closes the journal in a file. The file cannot be put in order in a transaction, nor while
something else uses it. -/
def close (path : Path) : JournalM Unit := do
  let s ← get
  if s.connection.isSome && (s.inTransaction || s.isShared) then report .debug (closingReport path)
  modify fun s => { s.giveUp with keys := [], closings := s.closings + 1, connection := none }

/-- Closes the journal in a file and opens it anew, to keep the given tags, in capitals, from then
on. A journal that cannot be opened stays as it is. -/
def reopen (path : Path) (tags : List String) : JournalM Unit := do
  close path
  match (← get).store.opened with
  | .ok store => modify fun s => { s with store, tags, connection := some {} }
  | .error fault =>
    modify fun s => { s with isShared := true }
    throw fault

/-- Records another version, or none. A version that is refused leaves none. -/
def setVersion (version : Data) : JournalM Unit := do
  change fun store => .ok ((), { store with version := none })
  change fun store => (store.setVersion version).map fun store => ((), store)

/-- Prepares the statement for a row, and takes the first of its values. -/
def prepareRow (row : List (String × Data)) : JournalM Unit :=
  match rowColumns row, row with
  | .error fault, _ => query fun _ => .error fault
  | .ok _, (_, value) :: _ => parameter (.row (row.map Prod.fst)) value
  | .ok _, [] => pure ()

/-- Puts in rows from outside, one by one. -/
def seed : List (List (String × Data)) → JournalM Unit
  | [] => pure ()
  | row :: rest => do
    prepareRow row
    change fun store => (store.seed row).map fun store => ((), store)
    seed rest

end Marginalia.Journal
