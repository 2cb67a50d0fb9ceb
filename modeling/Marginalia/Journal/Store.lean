import Marginalia.Data.Access
import Marginalia.Journal.Entry
import Marginalia.Remark.Observation
import Marginalia.Remark.Tags

/-!
# The journal's tables

The records, the counter that hands out their numbers, and the version of the layout. A number
that has been handed out is not handed out again. Two records never have one number or one source
key. The operations are functions from tables to tables; what they refuse leaves no trace.
-/

namespace Marginalia.Journal

structure Store where
  records : List Record
  /-- The greatest number handed out so far. -/
  counter : Int
  /-- The version of the layout, if it is recorded. -/
  version : Option Int
  deriving DecidableEq, Repr

/-- The version of the layout described here. -/
def layoutVersion : Int := 1

namespace Store

/-- The tables of a new journal. -/
def fresh : Store := ⟨[], 0, some layoutVersion⟩

def ofId? (store : Store) (id : Int) : Option Record :=
  store.records.find? fun record => record.id == id

def ofKey? (store : Store) (key : String) : Option Record :=
  store.records.find? fun record => record.sourceKey == key

def greatestId (store : Store) : Int :=
  store.records.foldl (fun greatest record => max greatest record.id) 0

/-- The number of the next record: greater than all numbers in use and all handed out before. -/
def nextId (store : Store) : Except Fault Int :=
  let greatest := max store.greatestId store.counter
  if greatest == greatestInt then .error .full else .ok (greatest + 1)

/-- The tables with a new record, unless its number or source key is taken. -/
def insert (store : Store) (record : Record) : Except Fault Store :=
  if (store.ofId? record.id).isSome then .error (.notUnique "issues" "id")
  else if (store.ofKey? record.sourceKey).isSome then .error (.notUnique "issues" "source_key")
  else .ok { store with
    records := store.records ++ [record], counter := max store.counter record.id }

/-- The tables with the record of a number changed. -/
def update (store : Store) (id : Int) (change : Record → Record) : Store :=
  { store with records := store.records.map fun record =>
      if record.id == id then change record else record }

/-- What an observation did to the tables. -/
inductive Change
  | inserted
  | reactivated
  | refreshed
  deriving DecidableEq, Repr

/-- The title that a cell gives. -/
def titleOf (cell : Cell) : Except Fault String :=
  match cell.asText with
  | some title => .ok title
  | none => .error (.notNull "title")

/-- A record with title, description and priority of an observation. A completed one is active
again. -/
def refresh (title : String) (o : Observation) (record : Record) : Record :=
  let refreshed := { record with
    title, description := some o.location, priority := .whole o.priority.level }
  if record.status == .completed then
    { refreshed with status := .active, completedAt := none }
  else refreshed

/-- Takes an observation in: a new fingerprint makes a new active record, a known one has its
record refreshed. The message is the second parameter of the one statement and the first of the
other. -/
def upsert (store : Store) (now : Except Fault String) (type : String) (o : Observation) :
    Except Fault ((Int × Change) × Store) :=
  match store.ofKey? o.fingerprint with
  | none => do
    let createdAt ← now
    let message ← Cell.ofData 2 o.message
    let id ← store.nextId
    let title ← titleOf message
    let store ← store.insert {
      id, type, title, description := some o.location, status := .active, createdAt
      completedAt := none, priority := .whole o.priority.level, tags := none
      sourceKey := o.fingerprint }
    .ok ((id, .inserted), store)
  | some record => do
    let title ← titleOf (← Cell.ofData 1 o.message)
    .ok ((record.id, if record.status == .completed then .reactivated else .refreshed),
      store.update record.id (refresh title o))

/-- Whether a record is missing among the keys. No record is where a key is null: it could be
any. -/
def isMissing (keys : List (Option String)) (record : Record) : Bool :=
  record.status == .active && !keys.contains none && !keys.contains (some record.sourceKey)

/-- Completes the active records that are missing among the keys. -/
def complete (store : Store) (keys : List (Option String)) (now : String) : Store :=
  { store with records := store.records.map fun record =>
      if isMissing keys record then { record with status := .completed, completedAt := some now }
      else record }

/-- How many records are missing among the keys. -/
def missingCount (store : Store) (keys : List (Option String)) : Nat :=
  store.records.countP (isMissing keys)

/-- The record of a number that is given by a value, the first parameter of a statement. -/
def lookUp (store : Store) (id : Data) : Except Fault (Option Record) := do
  let cell ← Cell.ofData 1 id
  .ok (cell.whole?.bind store.ofId?)

/-- Cancels a record, for good. -/
def cancel (store : Store) (id : Data) : Except Fault (Int × Store) := do
  match ← store.lookUp id with
  | none => .error (.noRecord id)
  | some record =>
    if record.status == .cancelled then .error (.alreadyCancelled id)
    else
      .ok (record.id, store.update record.id fun record => { record with status := .cancelled })

/-- The record with a source key that is given by a value. -/
def lookUpKey (store : Store) (key : Data) : Except Fault (Option Record) := do
  let cell ← Cell.ofData 1 key
  .ok (cell.asText.bind store.ofKey?)

/-- Whether a record may be listed before another one: higher priorities first, then newer ones,
then greater numbers. -/
def listedBefore (a b : Record) : Bool :=
  match Data.compareNumbers? a.priority.number b.priority.number with
  | some .gt => true
  | some .lt => false
  | _ => b.createdAt < a.createdAt || (a.createdAt == b.createdAt && b.id ≤ a.id)

/-- The records of a status and of a type, where these are given, in the order of listings. -/
def listing (store : Store) (status : Option Status) (type : Option String) : List Record :=
  (store.records.filter fun record =>
    status.all (· == record.status) && type.all (· == record.type)).mergeSort listedBefore

/-- A page of a listing. A negative limit is none, and a negative offset is zero. -/
def page (records : List Record) (limit offset : Int) : List Record :=
  let rest := records.drop offset.toNat
  if limit < 0 then rest else rest.take limit.toNat

/-- The number that a parameter of a page stands for. -/
def pageBound (cell : Cell) : Except Fault Int :=
  match cell.whole? with
  | some n => .ok n
  | none => .error .datatype

/-- The type to list that a value names, in capitals; null names none. -/
def typeFilter : Data → Except Fault (Option String)
  | .null => .ok none
  | value => (value.textFor "upper").map fun s => some (Text.upper s)

/-- A page of the listing of a status and of a type. An empty page does not look at its offset. -/
def list (store : Store) (limit offset : Data) (status : Option Status) (type : Option String) :
    Except Fault (List Record) := do
  let filters := type.toList.length + status.toList.length
  let limit ← Cell.ofData (filters + 1) limit
  let offset ← Cell.ofData (filters + 2) offset
  let limit ← pageBound limit
  if limit == 0 then .ok []
  else do
    let offset ← pageBound offset
    .ok (page (store.listing status type) limit offset)

/-- How many records there are of a type and status. -/
structure GroupCount where
  type : String
  status : Status
  count : Nat
  deriving DecidableEq, Repr

structure Stats where
  active : Nat
  completed : Nat
  cancelled : Nat
  completedThisWeek : Nat
  groups : List GroupCount
  deriving DecidableEq, Repr

def countOf (store : Store) (status : Status) : Nat :=
  store.records.countP fun record => record.status == status

/-- The order of groups: by type, then by the name of the status. -/
def groupBefore (a b : String × Status) : Bool :=
  a.1 < b.1 || (a.1 == b.1 && (a.2.name < b.2.name || a.2.name == b.2.name))

/-- The counts of the types and statuses that occur. -/
def groups (store : Store) : List GroupCount :=
  let keys := distinct (store.records.map fun record => (record.type, record.status))
  (keys.mergeSort groupBefore).map fun (type, status) =>
    ⟨type, status, store.records.countP fun record =>
      record.type == type && record.status == status⟩

/-- The counts of the records, those completed since a time among them. -/
def stats (store : Store) (since : String) : Stats where
  active := store.countOf .active
  completed := store.countOf .completed
  cancelled := store.countOf .cancelled
  completedThisWeek := store.records.countP fun record =>
    record.status == .completed && record.completedAt.any fun time => since ≤ time
  groups := store.groups

end Store

def Store.Stats.toData (stats : Store.Stats) : Data :=
  .object [("total_active", .int stats.active), ("total_completed", .int stats.completed),
    ("total_cancelled", .int stats.cancelled),
    ("completed_this_week", .int stats.completedThisWeek),
    ("by_type_status", .list (stats.groups.map fun group =>
      .object [("type", .text group.type), ("status", .text group.status.name),
        ("count", .int group.count)]))]

end Marginalia.Journal
