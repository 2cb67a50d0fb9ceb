import Marginalia.Proofs.Journal.Moves

/-!
# Operations and their writes

The four operations that change the tables, and what each of them may write. A scan writes what
its observations write, one after the other, and then what a reconciliation writes.
-/

namespace Marginalia.Journal

open Relation (ReflTransGen)

inductive Operation
  | upsert (o : Observation)
  | reconcile (keys : List Data)
  | sync (items : List Observation)
  | cancel (id : Data)

def keysOf (items : List Observation) : List Data := items.map fun o => .text o.fingerprint

namespace Operation

def run : Operation → JournalM Unit
  | upsert o => do let _ ← Journal.upsert o
  | reconcile keys => do let _ ← Journal.reconcile keys
  | sync items => do let _ ← Journal.sync items
  | cancel id => do let _ ← Journal.cancel id

/-- What an operation may write to the tables, one write at a time. -/
inductive Writes : Operation → Store → Store → Prop
  | upsert {s : Session} (h : store.upsert s.stamp type o = .ok (done, store')) :
      Writes (.upsert o) store store'
  | reconcile {s : Session} (h : s.stamp = .ok now) :
      Writes (.reconcile keys) store (store.complete current now)
  | takeIn (ho : o ∈ items) (h : Writes (.upsert o) store store') :
      Writes (.sync items) store store'
  | complete (h : Writes (.reconcile (keysOf items)) store store') :
      Writes (.sync items) store store'
  | cancel {store store' : Store} (h : store.cancel value = .ok (n, store')) :
      Writes (.cancel value) store store'

end Operation

variable {s t : Session} {write : Store → Store → Prop}

theorem moving_recordOf (n : Int) : Moving write (recordOf n) := by
  refine moving_bind (moving_parameter _ _) fun _ => moving_bind moving_get fun s => ?_
  split
  · exact moving_pure _
  · exact moving_throw _

-- ---------------------------------------------------------------------------
-- Taking in
-- ---------------------------------------------------------------------------

def upsertSteps (type : String) (o : Observation) : JournalM Record := do
  let stamp := (← get).stamp
  let (id, kind) ← change fun store => store.upsert stamp type o
  match changeReport type id o.location kind with
  | some text => report .debug text
  | none => pure ()
  recordOf id

theorem upsertTagged_eq (type : String) (o : Observation) :
    upsertTagged type o = transaction (upsertSteps type o) := rfl

theorem moving_upsertSteps (type : String) (o : Observation) :
    Moving (Operation.upsert o).Writes (upsertSteps type o) := by
  refine moving_bind moving_get fun s => ?_
  refine moving_bind (moving_change fun store done store' h => .single (.upsert h)) ?_
  rintro ⟨n, kind⟩
  dsimp only
  split
  · exact moving_bind (moving_report _ _) fun _ => moving_recordOf n
  · exact moving_recordOf n

theorem moving_upsertTagged (type : String) (o : Observation) :
    Moving (Operation.upsert o).Writes (upsertTagged type o) :=
  moving_transaction (moving_upsertSteps type o)

theorem moving_upsert (o : Observation) : Moving (Operation.upsert o).Writes (upsert o) := by
  refine moving_bind (moving_liftExcept _) fun type => moving_bind moving_get fun s => ?_
  refine moving_ite ?_ ?_
  · exact moving_bind (moving_upsertTagged type o) fun _ => moving_liftExcept _
  · exact moving_bind (moving_report _ _) fun _ => moving_pure _

theorem moving_upsertAll
    (hwrite : ∀ o ∈ items, ∀ a b, (Operation.upsert o).Writes a b → write a b)
    (counts : SyncCounts) : Moving write (upsertAll items counts) := by
  induction items generalizing counts with
  | nil => exact moving_pure _
  | cons o rest ih =>
    have hrest := ih fun o' ho' => hwrite o' (List.mem_cons_of_mem _ ho')
    refine moving_bind (moving_liftExcept _) fun type => moving_bind moving_get fun s => ?_
    refine moving_ite ?_ (hrest _)
    exact moving_bind ((moving_upsert o).mono (hwrite o List.mem_cons_self)) fun _ => hrest _

-- ---------------------------------------------------------------------------
-- Completing, scanning, cancelling
-- ---------------------------------------------------------------------------

theorem moving_addKey (key : Data) : Moving write (addKey key) := by
  refine moving_bind (moving_liftExcept _) fun cell => moving_bind moving_get fun s => ?_
  refine moving_bind (moving_query _) fun _ => ?_
  exact moving_of_quiet fun _ => ⟨rfl, rfl, rfl⟩

theorem moving_get_bind {f : Session → JournalM α}
    (h : ∀ s, Moves write s (faultOf (f s) s) (after (f s) s)) : Moving write (get >>= f) := by
  intro s
  have hrun : (get >>= f).run s = (f s).run s := by simp
  simpa only [faultOf, after, hrun] using h s

def completeUnseen : JournalM Nat := do
  let s ← get
  let now ← liftExcept s.stamp
  set { s with store := s.store.complete s.keys now, keys := [] }
  return s.store.missingCount s.keys

theorem moving_completeUnseen (keys : List Data) :
    Moving (Operation.reconcile keys).Writes completeUnseen := by
  refine moving_get_bind fun s => ?_
  cases hnow : s.stamp with
  | error fault => exact .of_same rfl rfl rfl
  | ok now => exact .kept rfl rfl (.single (.reconcile hnow))

/-- Completes the records whose keys are not among those of a scan. -/
def completing (keys : List Data) : JournalM Nat := do
  modify fun s => { s.settled with keys := [] }
  (distinctData keys).forM addKey
  completeUnseen

theorem moving_completing (keys : List Data) :
    Moving (Operation.reconcile keys).Writes (completing keys) :=
  moving_bind (moving_of_quiet fun _ => ⟨rfl, rfl, rfl⟩) fun _ =>
    moving_bind (moving_forM moving_addKey) fun _ => moving_completeUnseen keys

theorem moving_reconcile (keys : List Data) :
    Moving (Operation.reconcile keys).Writes (reconcile keys) :=
  moving_bind (moving_liftExcept _) fun _ =>
    moving_bind (moving_transaction (moving_completing keys)) fun _ =>
      moving_bind (moving_report _ _) fun _ => moving_pure _

def finishScan (items : List Observation) (counts : SyncCounts) : JournalM SyncCounts := do
  if counts.skipped != 0 then
    report .debug s!"Skipped {counts.skipped} annotation(s) with unjournaled tags"
  let completed ← reconcile (keysOf items)
  return { counts with completed }

theorem sync_eq (items : List Observation) : sync items =
    transaction (upsertAll items { scanned := items.length } >>= finishScan items) := rfl

theorem moving_scan (items : List Observation) : Moving (Operation.sync items).Writes
    (upsertAll items { scanned := items.length } >>= finishScan items) := by
  have hreconcile : Moving (Operation.sync items).Writes (reconcile (keysOf items)) :=
    (moving_reconcile _).mono fun _ _ => .complete
  refine moving_bind (moving_upsertAll (fun o ho _ _ => .takeIn ho) _) fun counts => ?_
  unfold finishScan
  split
  · exact moving_bind (moving_report _ _) fun _ => moving_bind hreconcile fun _ => moving_pure _
  · exact moving_bind hreconcile fun _ => moving_pure _

theorem moving_sync (items : List Observation) :
    Moving (Operation.sync items).Writes (sync items) := moving_transaction (moving_scan items)

def cancelSteps (value : Data) : JournalM Record := do
  parameter .status value
  recordOf (← change fun store => store.cancel value)

theorem moving_cancelSteps (value : Data) :
    Moving (Operation.cancel value).Writes (cancelSteps value) := by
  refine moving_bind (moving_parameter _ _) fun _ => ?_
  refine moving_bind (moving_change ?_) moving_recordOf
  exact fun _ _ _ h => .single (.cancel h)

def cancelRecord (value : Data) : JournalM Record := transaction (cancelSteps value)

theorem moving_cancelRecord (value : Data) :
    Moving (Operation.cancel value).Writes (cancelRecord value) :=
  moving_transaction (moving_cancelSteps value)

theorem moving_cancel (value : Data) : Moving (Operation.cancel value).Writes (cancel value) :=
  moving_bind (moving_cancelRecord value) fun _ => moving_liftExcept _

/-- An operation does to the tables no more than it may write. -/
theorem Operation.moving_run (op : Operation) : Moving op.Writes op.run := by
  cases op with
  | upsert o => exact moving_bind (moving_upsert o) fun _ => moving_pure _
  | reconcile keys => exact moving_bind (moving_reconcile keys) fun _ => moving_pure _
  | sync items => exact moving_bind (moving_sync items) fun _ => moving_pure _
  | cancel value => exact moving_bind (moving_cancel value) fun _ => moving_pure _

end Marginalia.Journal
