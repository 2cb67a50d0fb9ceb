import Marginalia.Journal.Cell

/-!
# Connections

What a connection to the database remembers of its statements. A fault of the database stays until
something goes well. It shows once more when the first parameter of a statement is refused that was
prepared before: the refusal is made without asking the database, and the old fault is found there.
-/

namespace Marginalia.Journal

/-- A statement that takes a value from outside as its first parameter. -/
inductive Statement
  /-- The record of a number. -/
  | record
  /-- The status of the record of a number. -/
  | status
  /-- The record of a source key. -/
  | find
  /-- A page of all records. -/
  | page
  /-- A new row with values for some columns. -/
  | row (columns : List String)
  deriving DecidableEq, Repr

structure Connection where
  /-- The statements that were prepared. -/
  prepared : List Statement := []
  /-- The fault of the database that was last met, if nothing went well since. -/
  residue : Option Fault := none
  deriving Repr

namespace Connection

/-- The connection after something went well. -/
def settled (connection : Connection) : Connection :=
  { connection with residue := none }

/-- The connection after a statement with a fault. Faults that are none of the database mean that
it was asked and went well. -/
def failed (connection : Connection) (fault : Fault) : Connection :=
  { connection with residue := if fault.faultClass.isOfDatabase then some fault else none }

/-- The connection with a statement prepared. Preparing one for the first time goes well. -/
def prepare (connection : Connection) (statement : Statement) : Connection :=
  if connection.prepared.contains statement then connection
  else ⟨statement :: connection.prepared, none⟩

/-- Takes the first parameter of a statement that is prepared. -/
def take (connection : Connection) (value : Data) : Except Fault Unit × Connection :=
  match Cell.ofData 1 value with
  | .ok _ => (.ok (), connection.settled)
  | .error fault => (.error (connection.residue.getD fault), connection)

end Connection

end Marginalia.Journal
