import Marginalia.Proofs.Journal.History
import Marginalia.Proofs.Journal.Rollback

/-!
# What a step does to the tables

`Store.Wrote` lists the writes of a step in order, each with what it was given: the time and, where
one was taken in, the observation. A step that keeps the transaction open, or ends well without one,
does the writes for the observations that the ledger enters. Any other step leaves what was stored.
-/

namespace Marginalia.Journal

/-- The tables before and after some writes at one time, with the observations they took in. -/
inductive Store.Wrote (stamp : Except Fault String) : List Observation → Store → Store → Prop
  | nothing (store : Store) : Wrote stamp [] store store
  | upsert (h : Wrote stamp items a b) (hwrite : b.upsert stamp type o = .ok (done, c)) :
      Wrote stamp (items ++ [o]) a c
  | complete (h : Wrote stamp items a b) (hstamp : stamp = .ok now) :
      Wrote stamp items a (b.complete keys now)
  | cancel (h : Wrote stamp items a b) (hwrite : b.cancel value = .ok (n, c)) :
      Wrote stamp items a c

open Store (Wrote)

variable {s t u entered : Session}

theorem Store.Wrote.trans (h : Wrote stamp items a b) (h' : Wrote stamp items' b c) :
    Wrote stamp (items ++ items') a c := by
  induction h' with
  | nothing => simpa using h
  | upsert _ hwrite ih => simpa using (ih h).upsert hwrite
  | complete _ hstamp ih => exact (ih h).complete hstamp
  | cancel _ hwrite ih => exact (ih h).cancel hwrite

theorem wrote_of_eq (h : b = a) : Wrote stamp [] a b := by
  subst h
  exact .nothing b

-- ---------------------------------------------------------------------------
-- Taking in
-- ---------------------------------------------------------------------------

theorem wrote_upsert (h : (upsert o).run s = .ok e t) :
    Wrote s.stamp (journaled s.tags [o]) s.store t.store := by
  obtain ⟨type, htype, -, -, hstore⟩ := upsert_run_ok h
  have hjournaled : o.isJournaled s.tags = s.tags.contains type := isJournaled_of_type htype
  split at hstore
  · rename_i hmem
    obtain ⟨done, r, handed⟩ := hstore
    have hone : journaled s.tags [o] = [o] := by simp [journaled, hjournaled, hmem]
    rw [hone]
    exact (Wrote.nothing s.store).upsert handed.stored
  · rename_i hmem
    have hnone : journaled s.tags [o] = [] := by simp [journaled, hjournaled, hmem]
    rw [hnone]
    exact wrote_of_eq hstore

theorem wrote_upsertAll_single (h : (upsertAll [o] counts).run s = .ok counts' t) :
    Wrote s.stamp (journaled s.tags [o]) s.store t.store ∧ t.stamp = s.stamp := by
  simp only [upsertAll, run_bind_ok, run_liftExcept_ok, EStateM.run_get, type_ok] at h
  obtain ⟨type, _, ⟨htype, rfl⟩, _, _, hget, h⟩ := h
  cases hget
  split at h
  · obtain ⟨e, u, hu, h⟩ := run_bind_ok.mp h
    cases h
    obtain ⟨-, -, -, hnow, -⟩ := upsert_run_ok hu
    exact ⟨wrote_upsert hu, by simp [Session.stamp, hnow]⟩
  · rename_i hmem
    cases h
    have hjournaled : o.isJournaled s.tags = s.tags.contains type := isJournaled_of_type htype
    have hnone : journaled s.tags [o] = [] := by simpa [journaled, hjournaled] using hmem
    rw [hnone]
    exact ⟨.nothing _, rfl⟩

/-- Where a failure left the tables: some writes were done, and the next step spared them. -/
def BrokenAfter (s : Session) (items : List Observation) (t : Session) : Prop :=
  ∃ (u : Session) (fault : Fault),
    Wrote s.stamp items s.store u.store ∧ u.saved = s.saved ∧ u.Spared fault t

theorem upsertAll_ends (hown : s.store.Own) : Ends
    (fun _ t => Wrote s.stamp (takenIn items counts s) s.store t.store ∧ t.stamp = s.stamp ∧
      t.saved = s.saved ∧ t.store.Own)
    (BrokenAfter s (takenIn items counts s)) (upsertAll items counts) s := by
  induction items generalizing s counts with
  | nil => exact ends_pure ⟨.nothing _, rfl, rfl, hown⟩
  | cons o rest ih =>
    have hmoving : Moving (Operation.sync [o]).Writes (upsertAll [o] counts) :=
      moving_upsertAll (fun _ ho _ _ => .takeIn ho) counts
    rw [upsertAll_cons]
    cases hfirst : (upsertAll [o] counts).run s with
    | error fault t =>
      have htaken : takenIn (o :: rest) counts s = [] := by simp [takenIn, hfirst]
      have hspared := (sparing_upsertAll_single o counts).spares s fault t hown hfirst
      rw [htaken]
      exact ends_bind (ends_of_error hfirst
        ⟨s, fault, .nothing _, rfl, spared_of_moves hspared⟩)
    | ok counts₁ u =>
      have htaken : takenIn (o :: rest) counts s =
          journaled s.tags [o] ++ takenIn rest counts₁ u := by simp [takenIn, hfirst]
      obtain ⟨hwrote, hstamp⟩ := wrote_upsertAll_single hfirst
      have hsaved := hmoving.saved hfirst
      rw [htaken]
      refine ends_bind (ends_of_ok hfirst ((ih (hmoving.own hown hfirst)).mono ?_ ?_))
      · rintro _ t ⟨hwrote', hstamp', hsaved', hown'⟩
        rw [hstamp] at hwrote' hstamp'
        exact ⟨hwrote.trans hwrote', hstamp', hsaved'.trans hsaved, hown'⟩
      · rintro t ⟨v, fault, hwrote', hsaved', hspared⟩
        rw [hstamp] at hwrote'
        exact ⟨v, fault, hwrote.trans hwrote', hsaved'.trans hsaved, hspared⟩

-- ---------------------------------------------------------------------------
-- Operations
-- ---------------------------------------------------------------------------

theorem finishScan_ok (h : (finishScan items counts).run s = .ok counts' t) :
    ∃ u n, u.store = s.store ∧ u.stamp = s.stamp ∧
      (reconcile (keysOf items)).run u = .ok n t := by
  have hlast (u : Session) (h : (reconcile (keysOf items) >>= fun completed =>
      pure { counts with completed }).run u = .ok counts' t) :
      ∃ n, (reconcile (keysOf items)).run u = .ok n t := by
    obtain ⟨n, v, hv, h⟩ := run_bind_ok.mp h
    cases h
    exact ⟨n, hv⟩
  unfold finishScan at h
  split at h
  · rw [EStateM.run_bind, run_report] at h
    obtain ⟨n, hn⟩ := hlast _ h
    exact ⟨s.report .debug _, n, rfl, rfl, hn⟩
  · obtain ⟨n, hn⟩ := hlast s h
    exact ⟨s, n, rfl, rfl, hn⟩

theorem wrote_reconcile (h : (reconcile keys).run s = .ok n t) :
    Wrote s.stamp [] s.store t.store := by
  obtain ⟨now, current, hstamp, -, hstore, -⟩ := reconcile_ok h
  rw [hstore]
  exact (Wrote.nothing s.store).complete hstamp

theorem wrote_of_cancels (h : Relation.ReflTransGen (Operation.cancel value).Writes a b) :
    Wrote stamp [] a b := by
  induction h with
  | refl => exact .nothing a
  | tail _ hwrite ih =>
    cases hwrite with
    | cancel hcancel => exact ih.cancel hcancel

theorem wrote_cancel (h : (cancel value).run s = .ok e t) : Wrote s.stamp [] s.store t.store := by
  cases (moving_cancel value).ok h with
  | kept saved closings store => exact wrote_of_cancels store
  | lost full => cases full

theorem wrote_sync (hown : s.store.Own) (h : (sync items).run s = .ok counts t) :
    Wrote s.stamp (takenIn items { scanned := items.length } s.enter) s.store t.store := by
  rw [sync_eq] at h
  obtain ⟨u, hu, rfl⟩ := run_transaction_ok h
  obtain ⟨tally, v, hv, hu⟩ := run_bind_ok.mp hu
  have hown' : s.enter.store.Own := by simpa using hown
  obtain ⟨hwrote, hstamp, -, -⟩ := (upsertAll_ends hown').ok hv
  obtain ⟨w, n, hstore, hstamp', hreconcile⟩ := finishScan_ok hu
  have hcomplete := wrote_reconcile hreconcile
  rw [hstore, hstamp', hstamp] at hcomplete
  simpa using hwrote.trans hcomplete

theorem wrote_of_ok {op : Operation} (hown : s.store.Own) (h : op.run.run s = .ok () t) :
    Wrote s.stamp ((Leaf.call op).taken s) s.store t.store := by
  cases op with
  | upsert o =>
    obtain ⟨e, _, hu, h⟩ := run_bind_ok.mp h
    cases h
    have htaken : (Leaf.call (.upsert o)).taken s = journaled s.tags [o] := by
      simp [Leaf.taken, succeeds_iff.mpr ⟨e, t, hu⟩]
    exact htaken ▸ wrote_upsert hu
  | reconcile keys =>
    obtain ⟨n, _, hu, h⟩ := run_bind_ok.mp h
    cases h
    exact wrote_reconcile hu
  | sync items =>
    obtain ⟨counts, _, hu, h⟩ := run_bind_ok.mp h
    cases h
    exact wrote_sync hown hu
  | cancel value =>
    obtain ⟨e, _, hu, h⟩ := run_bind_ok.mp h
    cases h
    exact wrote_cancel hu

theorem broken_sync (hown : s.store.Own) (hs : s.inTransaction = true)
    (h : (sync items).run s = .error fault t) :
    BrokenAfter s (takenIn items { scanned := items.length } s) t := by
  rw [sync_eq, run_transaction_inside hs, run_bind_error] at h
  rcases h with h | ⟨counts, u, hu, h⟩
  · exact (upsertAll_ends hown).error h
  · obtain ⟨hwrote, -, hsaved, hown'⟩ := (upsertAll_ends hown).ok hu
    obtain ⟨v, hstore, hsaved', -, herror⟩ := finishScan_error h
    have hspared := (sparing_reconcile (keysOf items)).spares v fault t (hstore ▸ hown') herror
    exact ⟨v, fault, hstore ▸ hwrote, hsaved'.trans hsaved, spared_of_moves hspared⟩

/-- Inside a transaction, an operation that fails has done the writes that the ledger enters. -/
theorem broken_of_error {op : Operation} (hown : s.store.Own) (hs : s.inTransaction = true)
    (h : op.run.run s = .error fault t) : BrokenAfter s ((Leaf.call op).taken s) t := by
  have hspared (hop : op.isScan = false) (htaken : (Leaf.call op).taken s = []) :
      BrokenAfter s ((Leaf.call op).taken s) t :=
    ⟨s, fault, htaken ▸ .nothing _, rfl, op.spared_of_error hown hop h⟩
  have hrun := Operation.run_error h
  cases op with
  | upsert o =>
    have hfails : succeeds (upsert o) s = false := not_succeeds_iff.mpr ⟨fault, t, hrun⟩
    exact hspared rfl (by simp [Leaf.taken, hfails])
  | reconcile keys => exact hspared rfl rfl
  | sync items => simpa [Leaf.taken, enter_inside hs] using broken_sync hown hs hrun
  | cancel value => exact hspared rfl rfl

-- ---------------------------------------------------------------------------
-- Steps of runs
-- ---------------------------------------------------------------------------

/-- What a step does to the tables: see the ledger. -/
inductive Event.Does (event : Event) (s : Session) : Prop
  | kept (opened : (event.next s).inTransaction = true)
      (committed : (event.next s).committed = s.committed)
      (store : Wrote s.stamp (event.taken s) s.store (event.next s).store)
  | stored (closed : (event.next s).inTransaction = false) (well : event.endsWell s = true)
      (store : Wrote s.stamp (event.taken s) s.store (event.next s).store)
  | dropped (closed : (event.next s).inTransaction = false) (ill : event.endsWell s = false)
      (store : ∃ v, (event.next s).store = { s.committed with version := v })

theorem does_call (hown : s.store.Own) (op : Operation) : (Event.leaf (.call op)).Does s := by
  cases hrun : op.run.run s with
  | ok _ t =>
    have hnext : (Event.leaf (.call op)).next s = t := after_of_ok hrun
    have hsaved : t.saved = s.saved := op.moving_run.saved hrun
    have hwrote := wrote_of_ok hown hrun
    cases hs : s.inTransaction with
    | true =>
      refine .kept ?_ ?_ ?_
      · rw [hnext, inTransaction_congr hsaved, hs]
      · rw [hnext, committed_congr hsaved hs]
      · rwa [hnext]
    | false =>
      refine .stored ?_ ?_ ?_
      · rw [hnext, inTransaction_congr hsaved, hs]
      · simp [Event.endsWell, Leaf.run, faultOf_of_ok hrun]
      · rwa [hnext]
  | error fault t =>
    have hnext : (Event.leaf (.call op)).next s = t := after_of_error hrun
    have hill : (Event.leaf (.call op)).endsWell s = false := by
      simp [Event.endsWell, Leaf.run, faultOf_of_error hrun]
    cases hs : s.inTransaction with
    | true =>
      obtain ⟨u, fault', hwrote, hsaved, hspared⟩ := broken_of_error hown hs hrun
      cases hspared with
      | untouched saved store =>
        refine .kept ?_ ?_ ?_
        · rw [hnext, inTransaction_congr (saved.trans hsaved), hs]
        · rw [hnext, committed_congr (saved.trans hsaved) hs]
        · rw [hnext, store]
          exact hwrote
      | dropped full saved store =>
        refine .dropped ?_ hill ⟨s.committed.version, ?_⟩
        · rw [hnext, Session.not_inTransaction saved]
        · rw [hnext, store, committed_congr hsaved hs]
    | false =>
      obtain ⟨hstore, hclosed⟩ := Operation.store_of_error hown hs hrun
      refine .dropped (hnext ▸ hclosed) hill ⟨s.committed.version, ?_⟩
      rw [hnext, hstore, Session.committed_of_not_inTransaction hs]

theorem does_broken (op : Operation) (fault : Fault) (s : Session) :
    (Event.leaf (.broken op fault)).Does s := by
  obtain ⟨t, hrun, hsaved, hstore, -⟩ := run_broken op fault s
  have hnext : (Event.leaf (.broken op fault)).next s = t := after_of_error hrun
  refine .dropped ?_ ?_ ⟨s.committed.version, ?_⟩
  · rw [hnext, Session.not_inTransaction hsaved]
  · simp [Event.endsWell, faultOf_of_error hrun]
  · rw [hnext, hstore]

theorem does_wait (now : Time.Moment) (s : Session) : (Event.leaf (.wait now)).Does s := by
  cases hs : s.inTransaction with
  | true => exact .kept hs rfl (.nothing _)
  | false => exact .stored hs rfl (.nothing _)

theorem does_enter (s : Session) : Event.enter.Does s :=
  .kept Session.inTransaction_enter (committed_of_enter s) (wrote_of_eq Session.store_enter)

/-- A block that ends well inside another one does nothing, and the outermost one stores the tables
in use. -/
theorem does_commit (h : entered.blockFault s fault = none) :
    (Event.leave entered fault).Does s := by
  have hnext : (Event.leave entered fault).next s = entered.commit s := by
    simp [Event.next, Session.leave, h]
  have hwell : (Event.leave entered fault).endsWell s = true := by simp [Event.endsWell, h]
  have hwrote : Wrote s.stamp [] s.store ((Event.leave entered fault).next s).store :=
    wrote_of_eq (by rw [hnext, Session.store_commit])
  cases hentered : entered.inTransaction with
  | true =>
    have hsame : entered.commit s = s := by simp [Session.commit, hentered]
    cases hs : s.inTransaction with
    | true => exact .kept (by rw [hnext, hsame, hs]) (by rw [hnext, hsame]) hwrote
    | false => exact .stored (by rw [hnext, hsame, hs]) hwell hwrote
  | false =>
    have hsaved : (entered.commit s).saved = none := by simp [Session.commit, hentered]
    exact .stored (hnext ▸ Session.not_inTransaction hsaved) hwell hwrote

theorem store_rollback_outermost (h : entered.inTransaction = false) (s : Session)
    (fault : Fault) : (entered.rollback s fault).store = s.committed := by
  have hclosed (hs : ¬ s.inTransaction = true) : s.store = s.committed :=
    (Session.committed_of_not_inTransaction (by simpa using hs)).symm
  simp only [Session.rollback, h, Bool.false_eq_true, if_false]
  split
  · exact Session.store_giveUp
  · split
    · exact Session.store_giveUp
    · split <;> exact hclosed ‹_›

/-- A block that fails inside another one takes nothing back, and the outermost one all that is not
stored. -/
theorem does_rollback (h : entered.blockFault s fault = some fault') :
    (Event.leave entered fault).Does s := by
  have hnext : (Event.leave entered fault).next s = entered.rollback s fault' := by
    simp [Event.next, Session.leave, h]
  have hill : (Event.leave entered fault).endsWell s = false := by simp [Event.endsWell, h]
  cases hentered : entered.inTransaction with
  | true =>
    have hsame : entered.rollback s fault' = s := by simp [Session.rollback, hentered]
    cases hs : s.inTransaction with
    | true =>
      exact .kept (by rw [hnext, hsame, hs]) (by rw [hnext, hsame])
        (wrote_of_eq (by rw [hnext, hsame]))
    | false =>
      refine .dropped (by rw [hnext, hsame, hs]) hill ⟨s.committed.version, ?_⟩
      rw [hnext, hsame, Session.committed_of_not_inTransaction hs]
  | false =>
    refine .dropped ?_ hill ⟨s.committed.version, ?_⟩
    · rw [hnext, Session.not_inTransaction (saved_rollback hentered fault')]
    · rw [hnext, store_rollback_outermost hentered]

theorem Event.does (hown : s.store.Own) (event : Event) : event.Does s := by
  cases event with
  | leaf step =>
    cases step with
    | call op => exact does_call hown op
    | broken op fault => exact does_broken op fault s
    | wait now => exact does_wait now s
  | enter => exact does_enter s
  | leave entered fault =>
    cases h : entered.blockFault s fault with
    | none => exact does_commit h
    | some fault' => exact does_rollback h
  | close path =>
    obtain ⟨t, hrun, hsaved, hstore, -⟩ := run_close path s
    have hnext : (Event.close path).next s = t := after_of_ok hrun
    refine .dropped ?_ rfl ⟨s.committed.version, ?_⟩
    · rw [hnext, Session.not_inTransaction hsaved]
    · rw [hnext, hstore]
  | reopen path types =>
    obtain ⟨hsaved, hstore⟩ := after_reopen path types s
    exact .dropped (Session.not_inTransaction hsaved) rfl hstore

end Marginalia.Journal
