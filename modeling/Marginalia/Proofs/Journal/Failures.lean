import Marginalia.Proofs.Journal.Changes

/-!
# Operations that fail

On tables that only the journal wrote, an operation that fails leaves no trace: once it has
written, it ends well. A scan is the exception. Inside a transaction it leaves the observations
that it took in before it failed. Running out of record numbers is the other one, since the open
transaction goes with it.
-/

namespace Marginalia.Journal

def NoWrite (_ _ : Store) : Prop := False

/-- How an operation that fails leaves the tables. -/
inductive Session.Spared (s : Session) (fault : Fault) (t : Session) : Prop
  | untouched (saved : t.saved = s.saved) (store : t.store = s.store)
  /-- No record number was left, and the open transaction is given up. -/
  | dropped (full : fault = .full) (saved : t.saved = none) (store : t.store = s.committed)

def AnyWrite (_ _ : Store) : Prop := True

/-- Work that can fail only before it writes. -/
structure Sparing (m : JournalM α) : Prop where
  moving : Moving AnyWrite m
  spares : ∀ s fault t, s.store.Own → m.run s = .error fault t → Moves NoWrite s (some fault) t

variable {s t u : Session} {m : JournalM α}

theorem eq_of_noWrite {a b : Store} (h : Relation.ReflTransGen NoWrite a b) : b = a := by
  cases h with
  | refl => rfl
  | tail _ h => cases h

theorem spared_of_moves (h : Moves NoWrite s (some fault) t) : s.Spared fault t := by
  cases h with
  | kept saved closings store => exact .untouched saved (eq_of_noWrite store)
  | lost full opened saved closings store => exact .dropped (Option.some.inj full) saved store

-- ---------------------------------------------------------------------------
-- After the write
-- ---------------------------------------------------------------------------

theorem run_parameter_of_cell (statement : Statement) (h : Cell.ofData 1 value = .ok cell) :
    ∃ connection, (parameter statement value).run s =
      .ok () { s with connection := some connection } := by
  simp only [EStateM.run, parameter, Connection.take, h]
  exact ⟨_, rfl⟩

theorem run_recordOf (hr : s.store.ofId? n = some r) (hfits : fits n = true) :
    ∃ connection, (recordOf n).run s = .ok r { s with connection := some connection } := by
  have hcell : Cell.ofData 1 (.int n) = .ok (.int n) := by simp [Cell.ofData, hfits]
  obtain ⟨connection, hrun⟩ := run_parameter_of_cell .record (s := s) hcell
  refine ⟨connection, ?_⟩
  rw [recordOf, EStateM.run_bind, hrun]
  simp only [EStateM.run_bind, EStateM.run_get, hr]
  rfl

theorem Store.Own.ofId?_upsert {store store' : Store} (hown : store.Own)
    (h : store.upsert s.stamp type o = .ok (done, store')) :
    store'.Own ∧ ∃ r, store'.ofId? done.1 = some r ∧ r ∈ store'.records := by
  have hown' : store'.Own := hown.writes (.upsert h)
  obtain ⟨title, -, ⟨r, -, -, -, hr⟩ | ⟨createdAt, -, -, -, -, hr⟩⟩ :=
    hown.wellFormed.ofId?_upsert h
  · exact ⟨hown', _, hr, (hown'.wellFormed.ofId?_eq_some.mp hr).1⟩
  · exact ⟨hown', _, hr, (hown'.wellFormed.ofId?_eq_some.mp hr).1⟩

theorem Store.Own.ofId?_cancel {store store' : Store} (hown : store.Own)
    (h : store.cancel value = .ok (n, store')) :
    store'.Own ∧ ∃ r, store'.ofId? n = some r ∧ r ∈ store'.records := by
  have hown' : store'.Own := hown.writes (.cancel h)
  refine ⟨hown', ?_⟩
  simp only [hown'.wellFormed.ofId?_eq_some]
  obtain ⟨r, hr, -, rfl, rfl⟩ := cancel_ok h
  have hmem : { r with status := .cancelled } ∈
      (store.update r.id fun r => { r with status := .cancelled }).records :=
    List.mem_map.mpr ⟨r, (lookUp_some hr).2, by simp⟩
  exact ⟨_, ⟨hmem, rfl⟩, hmem⟩

-- ---------------------------------------------------------------------------
-- Operations that leave no trace
-- ---------------------------------------------------------------------------

theorem sparing_transaction (hm : Sparing m) : Sparing (transaction m) := by
  refine ⟨moving_transaction hm.moving, ?_⟩
  intro s fault t hown h
  cases hs : s.inTransaction with
  | true => exact hm.spares s fault t hown (run_transaction_inside hs ▸ h)
  | false =>
    obtain ⟨hsaved, hclosings, hstore⟩ := transaction_error_outside hm.moving hs h
    have hnone : s.saved = none := by simpa [Session.inTransaction] using hs
    exact .of_same (hsaved.trans hnone.symm) hclosings hstore

theorem Moving.any {write : Store → Store → Prop} (hm : Moving write m) : Moving AnyWrite m :=
  hm.mono fun _ _ _ => trivial

theorem sparing_of_moving (hm : Moving NoWrite m) : Sparing m :=
  ⟨hm.any, fun _ _ _ _ h => hm.error h⟩

/-- Work that does not write, and what goes on from there. -/
theorem sparing_bind {f : α → JournalM β} (hm : Moving NoWrite m) (hf : ∀ a, Sparing (f a)) :
    Sparing (m >>= f) := by
  refine ⟨moving_bind hm.any fun a => (hf a).moving, ?_⟩
  intro s fault t hown h
  rcases run_bind_error.mp h with h | ⟨a, u, hu, h⟩
  · exact hm.error h
  · have hmoves := hm.ok hu
    have hown' : u.store.Own := by
      cases hmoves with
      | kept saved closings store => exact (eq_of_noWrite store).symm ▸ hown
      | lost full => cases full
    exact hmoves.trans ((hf a).spares u fault t hown' h)

theorem sparing_then {f : α → JournalM β} (hm : Sparing m) (hf : ∀ a, Moving AnyWrite (f a))
    (hok : ∀ s a t, s.store.Own → m.run s = .ok a t → ∃ b u, (f a).run t = .ok b u) :
    Sparing (m >>= f) := by
  refine ⟨moving_bind hm.moving hf, ?_⟩
  intro s fault t hown h
  rcases run_bind_error.mp h with h | ⟨a, u, hu, h⟩
  · exact hm.spares s fault t hown h
  · obtain ⟨b, v, hv⟩ := hok s a u hown hu
    rw [hv] at h
    cases h

theorem sparing_change (statement : Store → Except Fault (α × Store)) :
    Sparing (change statement) :=
  ⟨moving_change fun _ _ _ _ => .single trivial, fun _ _ _ _ h => moves_of_change_error h⟩

theorem sparing_upsertTagged (type : String) (o : Observation) :
    Sparing (upsertTagged type o) := by
  refine sparing_transaction (sparing_bind moving_get fun a => ?_)
  refine sparing_then (sparing_change _) ?moving ?ok
  case moving =>
    rintro ⟨n, kind⟩
    dsimp only
    split
    · exact moving_bind (moving_report _ _) fun _ => moving_recordOf n
    · exact moving_recordOf n
  case ok =>
    rintro s ⟨n, kind⟩ t hown h
    obtain ⟨store, hupsert, rfl⟩ := run_change_ok.mp h
    obtain ⟨hown', r, hr, hmem⟩ := hown.ofId?_upsert hupsert
    have hrecord (t : Session) (ht : t.store = store) : ∃ b u, (recordOf n).run t = .ok b u := by
      obtain ⟨connection, hrun⟩ := run_recordOf (s := t) (ht ▸ hr)
        (hown'.wellFormed.ofId?_eq_some.mp hr |>.2 ▸ hown'.fits hmem)
      exact ⟨r, _, hrun⟩
    dsimp only
    split
    · rw [EStateM.run_bind, run_report]
      exact hrecord _ rfl
    · exact hrecord _ rfl

-- ---------------------------------------------------------------------------
-- Handing the record out
-- ---------------------------------------------------------------------------

/-- Work whose result is a record of the tables. -/
def Yielding (m : JournalM Record) : Prop :=
  ∀ s r t, m.run s = .ok r t → r ∈ t.store.records

theorem yielding_recordOf (n : Int) : Yielding (recordOf n) := by
  intro s r t h
  obtain ⟨hr, -, connection, rfl⟩ := recordOf_ok h
  exact List.mem_of_find?_eq_some hr

theorem yielding_bind {f : α → JournalM Record} (hf : ∀ a, Yielding (f a)) :
    Yielding (m >>= f) := by
  intro s r t h
  obtain ⟨a, u, -, h⟩ := run_bind_ok.mp h
  exact hf a u r t h

theorem yielding_transaction {m : JournalM Record} (hm : Yielding m) :
    Yielding (transaction m) := by
  intro s r t h
  obtain ⟨u, hu, rfl⟩ := run_transaction_ok h
  rw [Session.store_commit]
  exact hm _ r u hu

theorem yielding_upsertTagged (type : String) (o : Observation) :
    Yielding (upsertTagged type o) := by
  refine yielding_transaction (yielding_bind fun a => yielding_bind ?_)
  rintro ⟨n, kind⟩
  dsimp only
  split
  · exact yielding_bind fun _ => yielding_recordOf n
  · exact yielding_recordOf n

theorem Moving.own {op : Operation} (hm : Moving op.Writes m) (hown : s.store.Own)
    (h : m.run s = .ok a t) : t.store.Own := by
  cases hm.ok h with
  | kept saved closings store => exact hown.writesAll store
  | lost full => cases full

theorem sparing_entry {op : Operation} {m : JournalM Record} {f : Record → Except Fault α}
    (hm : Sparing m) (hmoving : Moving op.Writes m) (hyielding : Yielding m)
    (hf : ∀ r e, r.entry = .ok e → ∃ a, f r = .ok a) :
    Sparing (m >>= fun r => liftExcept (f r)) := by
  refine sparing_then hm (fun r => moving_liftExcept _) ?_
  intro s r t hown h
  obtain ⟨e, he⟩ := (hmoving.own hown h).entry (hyielding s r t h)
  obtain ⟨a, ha⟩ := hf r e he
  exact ⟨a, t, by simp [ha]⟩

theorem sparing_upsert (o : Observation) : Sparing (upsert o) := by
  refine sparing_bind (moving_liftExcept _) fun type => sparing_bind moving_get fun a => ?_
  split
  · refine sparing_entry (sparing_upsertTagged type o) (moving_upsertTagged type o)
      (yielding_upsertTagged type o) fun r e he => ⟨some e, ?_⟩
    simp [he, Except.map]
  · exact sparing_of_moving (moving_bind (moving_report _ _) fun _ => moving_pure _)

theorem sparing_cancelRecord (value : Data) : Sparing (cancelRecord value) := by
  refine sparing_transaction (sparing_bind (moving_parameter _ _) fun _ => ?_)
  refine sparing_then (sparing_change _) moving_recordOf ?_
  intro s n t hown h
  obtain ⟨store, hcancel, rfl⟩ := run_change_ok.mp h
  obtain ⟨hown', r, hr, hmem⟩ := hown.ofId?_cancel hcancel
  have hfits : fits n = true := (hown'.wellFormed.ofId?_eq_some.mp hr).2 ▸ hown'.fits hmem
  obtain ⟨connection, hrun⟩ := run_recordOf (s := { s.settled with store }) hr hfits
  exact ⟨r, _, hrun⟩

theorem sparing_cancel (value : Data) : Sparing (cancel value) := by
  have hyielding : Yielding (cancelRecord value) :=
    yielding_transaction (yielding_bind fun _ => yielding_bind yielding_recordOf)
  exact sparing_entry (sparing_cancelRecord value) (moving_cancelRecord value) hyielding
    fun r e he => ⟨e, he⟩

theorem sparing_completeUnseen : Sparing completeUnseen := by
  refine ⟨(moving_completeUnseen []).any, ?_⟩
  intro s fault t _ h
  cases hnow : s.stamp with
  | error fault' =>
    simp only [completeUnseen, EStateM.run_bind, EStateM.run_get, run_liftExcept, hnow] at h
    cases h
    exact .of_same rfl rfl rfl
  | ok now =>
    simp only [completeUnseen, EStateM.run_bind, EStateM.run_get, run_liftExcept, hnow] at h
    cases h

theorem sparing_reconcile (keys : List Data) : Sparing (reconcile keys) := by
  refine sparing_bind (moving_liftExcept _) fun _ => sparing_then (sparing_transaction ?_) ?_ ?_
  · exact sparing_bind (moving_of_quiet fun _ => ⟨rfl, rfl, rfl⟩) fun _ =>
      sparing_bind (moving_forM moving_addKey) fun _ => sparing_completeUnseen
  · exact fun _ => moving_bind (moving_report _ _) fun _ => moving_pure _
  · intro s n t _ _
    exact ⟨n, _, rfl⟩

-- ---------------------------------------------------------------------------
-- Scans
-- ---------------------------------------------------------------------------

theorem upsertAll_cons (o : Observation) (rest : List Observation) (counts : SyncCounts) :
    upsertAll (o :: rest) counts = upsertAll [o] counts >>= upsertAll rest := by
  simp only [upsertAll, bind_assoc]
  refine bind_congr fun type => bind_congr fun s => ?_
  split
  · simp only [bind_assoc, pure_bind]
  · simp only [pure_bind]

theorem sparing_upsertAll_single (o : Observation) (counts : SyncCounts) :
    Sparing (upsertAll [o] counts) := by
  refine sparing_bind (moving_liftExcept _) fun type => sparing_bind moving_get fun a => ?_
  split
  · exact sparing_then (sparing_upsert o) (fun _ => moving_pure _) fun _ _ t _ _ => ⟨_, t, rfl⟩
  · exact sparing_of_moving (moving_pure _)

theorem finishScan_error (h : (finishScan items counts).run u = .error fault t) :
    ∃ v, v.store = u.store ∧ v.saved = u.saved ∧ v.closings = u.closings ∧
      (reconcile (keysOf items)).run v = .error fault t := by
  have hlast (v : Session) (h : (reconcile (keysOf items) >>= fun completed =>
      pure { counts with completed }).run v = .error fault t) :
      (reconcile (keysOf items)).run v = .error fault t := by
    rcases run_bind_error.mp h with h | ⟨_, _, -, h⟩
    · exact h
    · cases h
  unfold finishScan at h
  split at h
  · rw [EStateM.run_bind, run_report] at h
    exact ⟨u.report .debug _, rfl, rfl, rfl, hlast _ h⟩
  · exact ⟨u, rfl, rfl, rfl, hlast u h⟩

def Operation.isScan : Operation → Bool
  | sync _ => true
  | _ => false

theorem Operation.run_error {op : Operation} (h : op.run.run s = .error fault t) :
    match op with
    | upsert o => (Journal.upsert o).run s = .error fault t
    | reconcile keys => (Journal.reconcile keys).run s = .error fault t
    | sync items => (Journal.sync items).run s = .error fault t
    | cancel value => (Journal.cancel value).run s = .error fault t := by
  cases op <;>
    · rcases run_bind_error.mp h with h | ⟨_, _, -, h⟩
      · exact h
      · cases h

theorem Operation.spared_of_error {op : Operation} (hown : s.store.Own) (hop : op.isScan = false)
    (h : op.run.run s = .error fault t) : s.Spared fault t := by
  have herror := run_error h
  cases op with
  | upsert o => exact spared_of_moves ((sparing_upsert o).spares s fault t hown herror)
  | reconcile keys => exact spared_of_moves ((sparing_reconcile keys).spares s fault t hown herror)
  | cancel value => exact spared_of_moves ((sparing_cancel value).spares s fault t hown herror)
  | sync items => cases hop

/-- Outside transactions, every operation that fails leaves the tables as they were. -/
theorem Operation.store_of_error {op : Operation} (hown : s.store.Own)
    (hs : s.inTransaction = false) (h : op.run.run s = .error fault t) :
    t.store = s.store ∧ t.inTransaction = false := by
  have hnone : s.saved = none := by simpa [Session.inTransaction] using hs
  cases hop : op.isScan with
  | false =>
    cases op.spared_of_error hown hop h with
    | untouched saved store =>
      exact ⟨store, by rw [inTransaction_congr saved, hs]⟩
    | dropped full saved store =>
      exact ⟨store.trans (Session.committed_of_not_inTransaction hs),
        Session.not_inTransaction saved⟩
  | true =>
    cases op with
    | upsert | reconcile | cancel => cases hop
    | sync items =>
      obtain ⟨hsaved, -, hstore⟩ := transaction_error_outside (moving_scan items) hs (run_error h)
      exact ⟨hstore, Session.not_inTransaction hsaved⟩

end Marginalia.Journal
