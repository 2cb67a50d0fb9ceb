import Marginalia.Journal.Session
import Marginalia.Text.Case

/-!
# Working with a journal

Taking in what a scan found, completing what it did not find, cancelling, and looking at what is
there. Every change is a transaction of its own unless one is open already.
-/

namespace Marginalia.Journal

/-- The record of a number that is known to be there. -/
def recordOf (id : Int) : JournalM Record := do
  parameter .record (.int id)
  match (← get).store.ofId? id with
  | some record => pure record
  | none => throw (.noRecord (.int id))

def changeReport (type : String) (id : Int) (location : String) : Store.Change → Option String
  | .inserted => some s!"Journaled new {type} #{id}: {location}"
  | .reactivated => some s!"Reactivated {type} #{id}: {location}"
  | .refreshed => none

/-- Takes one observation in, whose tag is journaled. -/
def upsertTagged (type : String) (o : Observation) : JournalM Record :=
  transaction do
    let stamp := (← get).stamp
    let (id, kind) ← change fun store => store.upsert stamp type o
    match changeReport type id o.location kind with
    | some text => report .debug text
    | none => pure ()
    recordOf id

/-- Takes one observation in. One with another tag is passed over. -/
def upsert (o : Observation) : JournalM (Option Entry) := do
  let type ← liftExcept ((o.tag.textFor "upper").map Text.upper)
  if (← get).tags.contains type then
    let record ← upsertTagged type o
    liftExcept (record.entry.map some)
  else
    report .warning s!"Skipping {o.tag.shown} annotation at {o.location}: tag is not journaled"
    return none

/-- Refuses values that cannot be members of a set. -/
def checkHashable (keys : List Data) : Except Fault Unit :=
  keys.forM fun key =>
    match key with
    | .list _ | .object _ => .error (.unhashable key.kind)
    | _ => .ok ()

/-- The members of a list without those that equal earlier ones. -/
def distinctData : List Data → List Data
  | [] => []
  | key :: rest => key :: (distinctData rest).filter fun other => !key.same other

/-- Adds a key to those of the reconciliation. No text is taken twice. -/
def addKey (key : Data) : JournalM Unit := do
  let text := (← liftExcept (Cell.ofData 1 key)).asText
  let keys := (← get).keys
  query fun _ =>
    if text.isSome && keys.contains text then .error (.notUnique "current_keys" "source_key")
    else .ok ()
  modify fun s => { s with keys := text :: keys }

/-- Completes every active record whose key is not among those given, and counts them. Keys that
are left over from a reconciliation that failed do not count. -/
def reconcile (keys : List Data) : JournalM Nat := do
  liftExcept (checkHashable keys)
  let completed ← transaction do
    modify fun s => { s.settled with keys := [] }
    (distinctData keys).forM addKey
    let s ← get
    let now ← liftExcept s.stamp
    set { s with store := s.store.complete s.keys now, keys := [] }
    return s.store.missingCount s.keys
  report .info s!"Reconciled journal: {completed} record(s) completed"
  return completed

/-- What a scan did to the journal. -/
structure SyncCounts where
  scanned : Nat := 0
  journaled : Nat := 0
  skipped : Nat := 0
  completed : Nat := 0
  deriving DecidableEq, Repr

/-- Takes observations in one by one, and counts those journaled and those passed over. -/
def upsertAll : List Observation → SyncCounts → JournalM SyncCounts
  | [], counts => pure counts
  | o :: rest, counts => do
    let type ← liftExcept ((o.tag.textFor "upper").map Text.upper)
    if (← get).tags.contains type then
      let _ ← upsert o
      upsertAll rest { counts with journaled := counts.journaled + 1 }
    else upsertAll rest { counts with skipped := counts.skipped + 1 }

/-- Brings the journal in line with a whole scan: takes its observations in, then completes what
the scan did not see. Observations that are passed over count as seen. -/
def sync (items : List Observation) : JournalM SyncCounts :=
  transaction do
    let counts ← upsertAll items { scanned := items.length }
    if counts.skipped != 0 then
      report .debug s!"Skipped {counts.skipped} annotation(s) with unjournaled tags"
    let completed ← reconcile (items.map fun o => .text o.fingerprint)
    return { counts with completed }

/-- Cancels a record. -/
def cancel (id : Data) : JournalM Entry := do
  let record ← transaction do
    parameter .status id
    recordOf (← change fun store => store.cancel id)
  liftExcept record.entry

def getEntry (id : Data) : JournalM (Option Entry) := do
  parameter .record id
  match ← query fun store => store.lookUp id with
  | some record => liftExcept (record.entry.map some)
  | none => return none

def findEntry (key : Data) : JournalM (Option Entry) := do
  parameter .find key
  match ← query fun store => store.lookUpKey key with
  | some record => liftExcept (record.entry.map some)
  | none => return none

def list (limit offset : Data) (status : Option Status) (type : Data) : JournalM (List Entry) := do
  let type ← liftExcept (Store.typeFilter type)
  if type.isNone && status.isNone then parameter .page limit
  let records ← query fun store => store.list limit offset status type
  liftExcept (records.mapM Record.entry)

/-- The days for which completions are counted. -/
def week : Nat := 7

def stats : JournalM Store.Stats := do
  let store ← query .ok
  match ((← get).now.daysBefore? week).map Time.Moment.millisText with
  | some since => return store.stats since
  | none => throw .dateRange

/-- The tags of a value in capitals. -/
def tagsOf (value : Data) : Except Fault (List String) := do
  let items ← value.iterate
  items.mapM fun item => (item.textFor "upper").map Text.upper

def SyncCounts.toData (counts : SyncCounts) : Data :=
  .object [("scanned", .int counts.scanned), ("journaled", .int counts.journaled),
    ("skipped", .int counts.skipped), ("completed", .int counts.completed)]

end Marginalia.Journal
