import Marginalia.Proofs.Journal.Failures

/-!
# Operations that end well

On tables that only the journal wrote, it depends on the tables alone how an operation ends: what
its statements accept goes through, and what they refuse is the fault that shows, in a transaction
and outside.
-/

namespace Marginalia.Journal

variable {s t u : Session} {m : JournalM α} {store : Store}

-- ---------------------------------------------------------------------------
-- Blocks and statements
-- ---------------------------------------------------------------------------

theorem run_transaction_of_ok (h : m.run s.enter = .ok a u) (hsaved : u.saved = s.enter.saved)
    (hclosings : u.closings = s.closings) : (transaction m).run s = .ok a (s.commit u) := by
  cases hs : s.inTransaction with
  | true =>
    rw [run_transaction_inside hs, ← enter_inside hs, h]
    simp [Session.commit, hs, enter_inside hs]
  | false =>
    rw [run_transaction_outside hs (after_of_ok h ▸ hsaved) (after_of_ok h ▸ hclosings), h]
    simp [Session.commit, hs]

theorem run_transaction_of_error (h : m.run s.enter = .error fault u)
    (hsaved : u.saved = s.enter.saved) (hclosings : u.closings = s.closings) :
    ∃ t, (transaction m).run s = .error fault t := by
  cases hs : s.inTransaction with
  | true =>
    rw [enter_inside hs] at h
    exact ⟨u, (run_transaction_inside hs).trans h⟩
  | false =>
    rw [run_transaction_outside hs (after_of_error h ▸ hsaved) (after_of_error h ▸ hclosings), h]
    exact ⟨_, rfl⟩

theorem run_change_of_error {statement : Store → Except Fault (α × Store)}
    (h : statement s.store = .error fault) (hfull : fault ≠ .full) :
    (change statement).run s = .error fault (s.failed fault) := by
  simp only [EStateM.run, change, h]

-- ---------------------------------------------------------------------------
-- Taking in
-- ---------------------------------------------------------------------------

/-- What a run leaves alone. -/
structure Session.SameFrame (s t : Session) : Prop where
  saved : t.saved = s.saved
  closings : t.closings = s.closings
  tags : t.tags = s.tags
  now : t.now = s.now

theorem Session.SameFrame.refl (s : Session) : s.SameFrame s := ⟨rfl, rfl, rfl, rfl⟩

theorem Session.SameFrame.trans (h : s.SameFrame t) (h' : t.SameFrame u) : s.SameFrame u :=
  ⟨h'.saved.trans h.saved, h'.closings.trans h.closings, h'.tags.trans h.tags,
    h'.now.trans h.now⟩

theorem Session.SameFrame.commit (h : s.enter.SameFrame t) : s.SameFrame (s.commit t) := by
  refine ⟨?_, ?_, by simpa using h.tags, by simpa using h.now⟩
  · cases hs : s.inTransaction with
    | true => simpa [Session.commit, hs, enter_inside hs] using h.saved
    | false =>
      have hnone : s.saved = none := by simpa [Session.inTransaction] using hs
      simp [Session.commit, hs, hnone]
  · have hclosings := h.closings.trans Session.closings_enter
    unfold Session.commit
    split
    · exact hclosings
    · exact hclosings

/-- A block that leaves the frame alone goes through when its steps do. -/
theorem run_transaction_framed (h : m.run s.enter = .ok a u) (hframe : s.enter.SameFrame u) :
    (transaction m).run s = .ok a (s.commit u) ∧ s.SameFrame (s.commit u) :=
  ⟨run_transaction_of_ok h hframe.saved (hframe.closings.trans Session.closings_enter),
    hframe.commit⟩

theorem run_upsertSteps_ok (h : s.store.upsert s.stamp type o = .ok (done, store))
    (hr : store.ofId? done.1 = some r) (hfits : fits done.1 = true) :
    ∃ t, (upsertSteps type o).run s = .ok r t ∧ t.store = store ∧ s.SameFrame t := by
  have hchange : (change fun store => store.upsert s.stamp type o).run s =
      .ok done { s.settled with store } := run_change_ok.mpr ⟨store, h, rfl⟩
  have hrecord (u : Session) (hstore : u.store = store) (hframe : s.SameFrame u) :
      ∃ t, (recordOf done.1).run u = .ok r t ∧ t.store = store ∧ s.SameFrame t := by
    obtain ⟨connection, hrun⟩ := run_recordOf (hstore.symm ▸ hr) hfits
    exact ⟨_, hrun, hstore, hframe.saved, hframe.closings, hframe.tags, hframe.now⟩
  simp only [upsertSteps, EStateM.run_bind, EStateM.run_get, hchange]
  split
  · simp only [EStateM.run_bind, run_report]
    exact hrecord _ rfl ⟨rfl, rfl, rfl, rfl⟩
  · exact hrecord _ rfl ⟨rfl, rfl, rfl, rfl⟩

theorem run_upsertTagged_ok (h : s.store.upsert s.stamp type o = .ok (done, store))
    (hr : store.ofId? done.1 = some r) (hfits : fits done.1 = true) :
    ∃ t, (upsertTagged type o).run s = .ok r t ∧ t.store = store ∧ s.SameFrame t := by
  obtain ⟨u, hsteps, hstore, hframe⟩ :=
    run_upsertSteps_ok (s := s.enter) (by simpa using h) hr hfits
  obtain ⟨hrun, hframe'⟩ := run_transaction_framed hsteps hframe
  exact ⟨_, hrun, by simpa using hstore, hframe'⟩

/-- What the tables accept is taken in when its record can be found and handed out. -/
theorem run_upsert_handed (htag : (o.tag.textFor "upper").map Text.upper = .ok type)
    (hkept : s.tags.contains type = true)
    (h : s.store.upsert s.stamp type o = .ok (done, store))
    (hr : store.ofId? done.1 = some r) (hfits : fits done.1 = true) (he : r.entry = .ok e) :
    ∃ t, (upsert o).run s = .ok (some e) t ∧ t.store = store ∧ s.SameFrame t := by
  obtain ⟨t, hrun, hstore, hframe⟩ := run_upsertTagged_ok h hr hfits
  have hentry : r.entry.map some = .ok (some e) := map_ok.mpr ⟨e, he, rfl⟩
  refine ⟨t, ?_, hstore, hframe⟩
  simp only [upsert, EStateM.run_bind, run_liftExcept, htag, EStateM.run_get, hkept, if_true, hrun,
    hentry]

-- ---------------------------------------------------------------------------
-- Cancelling
-- ---------------------------------------------------------------------------

theorem lookUp_int (hn : fits n = true) (store : Store) :
    store.lookUp (.int n) = .ok (store.ofId? n) := by
  simp [Store.lookUp, Cell.ofData, hn, Cell.whole?, Cell.asNumber, bind, Except.bind]

theorem cancel_int (hn : fits n = true) (store : Store) : store.cancel (.int n) =
    match store.ofId? n with
    | none => .error (.noRecord (.int n))
    | some r =>
      if r.status = .cancelled then .error (.alreadyCancelled (.int n))
      else .ok (r.id, store.update r.id fun r => { r with status := .cancelled }) := by
  simp only [Store.cancel, lookUp_int hn, bind, Except.bind]
  cases store.ofId? n with
  | none => rfl
  | some r => simp

theorem run_cancelRecord_error (hn : fits n = true) (hfull : fault ≠ .full)
    (h : s.store.cancel (.int n) = .error fault) :
    ∃ t, (cancelRecord (.int n)).run s = .error fault t := by
  have hcell : Cell.ofData 1 (.int n) = .ok (.int n) := by simp [Cell.ofData, hn]
  obtain ⟨connection, hparameter⟩ := run_parameter_of_cell .status (s := s.enter) hcell
  refine run_transaction_of_error (u := { s.enter with connection := some connection }.failed fault)
    ?_ rfl Session.closings_enter
  rw [cancelSteps, EStateM.run_bind, hparameter]
  refine run_bind_error.mpr (.inl (run_change_of_error ?_ hfull))
  simpa using h

theorem run_cancelSteps_ok (hn : fits n = true) (hown : s.store.Own)
    (h : s.store.cancel (.int n) = .ok (k, store)) :
    ∃ r t, (cancelSteps (.int n)).run s = .ok r t ∧ store.ofId? k = some r ∧ t.store = store ∧
      s.SameFrame t := by
  have hcell : Cell.ofData 1 (.int n) = .ok (.int n) := by simp [Cell.ofData, hn]
  obtain ⟨connection, hparameter⟩ := run_parameter_of_cell .status (s := s) hcell
  generalize hu : { s with connection := some connection } = u at hparameter
  have hchange : (change fun store => store.cancel (.int n)).run u =
      .ok k { u.settled with store } := run_change_ok.mpr ⟨store, by simpa [← hu] using h, rfl⟩
  obtain ⟨hown', r, hr, hmem⟩ := hown.ofId?_cancel h
  have hfits : fits k = true := (hown'.wellFormed.ofId?_eq_some.mp hr).2 ▸ hown'.fits hmem
  obtain ⟨connection', hrecord⟩ := run_recordOf (s := { u.settled with store }) hr hfits
  have hrest := run_bind_ok.mpr ⟨k, _, hchange, hrecord⟩
  exact ⟨r, _, run_bind_ok.mpr ⟨(), u, hparameter, hrest⟩, hr, rfl, by simp [← hu], by simp [← hu],
    by simp [← hu], by simp [← hu]⟩

theorem run_cancelRecord_ok (hn : fits n = true) (hown : s.store.Own)
    (h : s.store.cancel (.int n) = .ok (k, store)) :
    ∃ r t, (cancelRecord (.int n)).run s = .ok r t ∧ store.ofId? k = some r ∧ t.store = store ∧
      s.SameFrame t := by
  obtain ⟨r, u, hsteps, hr, hstore, hframe⟩ := run_cancelSteps_ok (s := s.enter) hn
    (Session.store_enter.symm ▸ hown) (Session.store_enter.symm ▸ h)
  obtain ⟨hrun, hframe'⟩ := run_transaction_framed hsteps hframe
  exact ⟨r, _, hrun, hr, by simpa using hstore, hframe'⟩

theorem run_cancel_error (hn : fits n = true) (hown : s.store.Own) (hfull : fault ≠ .full)
    (h : s.store.cancel (.int n) = .error fault) :
    ∃ t, (cancel (.int n)).run s = .error fault t ∧ t.store = s.store := by
  obtain ⟨t, ht⟩ := run_cancelRecord_error hn hfull h
  have hrun : (cancel (.int n)).run s = .error fault t := run_bind_error.mpr (.inl ht)
  refine ⟨t, hrun, ?_⟩
  cases spared_of_moves ((sparing_cancel _).spares s fault t hown hrun) with
  | untouched saved store => exact store
  | dropped full saved store => exact absurd full hfull

theorem run_cancel_ok (hn : fits n = true) (hown : s.store.Own)
    (h : s.store.cancel (.int n) = .ok (k, store)) :
    ∃ r e t, (cancel (.int n)).run s = .ok e t ∧ store.ofId? k = some r ∧ r.entry = .ok e ∧
      t.store = store ∧ s.SameFrame t := by
  obtain ⟨r, t, hrun, hr, hstore, hframe⟩ := run_cancelRecord_ok hn hown h
  obtain ⟨hown', r', hr', hmem⟩ := hown.ofId?_cancel h
  cases hr.symm.trans hr'
  obtain ⟨e, he⟩ := hown'.entry hmem
  exact ⟨r, e, t, run_bind_ok.mpr ⟨r, t, hrun, by simp [he]⟩, hr, he, hstore, hframe⟩

/-- How a cancellation goes: it is refused for a number that no record has and for the number of a
cancelled record, and else it cancels the record and hands it out. -/
inductive Session.Cancels (s : Session) (n : Int) : Prop
  | absent (h : s.store.ofId? n = none)
      (run : ∃ t, (cancel (.int n)).run s = .error (.noRecord (.int n)) t ∧ t.store = s.store)
  | twice (h : s.store.ofId? n = some r) (cancelled : r.status = .cancelled)
      (run : ∃ t, (cancel (.int n)).run s = .error (.alreadyCancelled (.int n)) t ∧
        t.store = s.store)
  | once (h : s.store.ofId? n = some r) (cancelled : r.status ≠ .cancelled)
      (run : ∃ e t, (cancel (.int n)).run s = .ok e t ∧
        { r with status := .cancelled }.entry = .ok e ∧
        t.store = s.store.update n fun r => { r with status := .cancelled })

theorem cancels_of_fits (hn : fits n = true) (hown : s.store.Own) : s.Cancels n := by
  have hcancel := cancel_int hn s.store
  cases hr : s.store.ofId? n with
  | none => exact .absent hr (run_cancel_error hn hown nofun (by rw [hcancel, hr]))
  | some r =>
    rw [hr] at hcancel
    obtain ⟨hmem, rfl⟩ := hown.wellFormed.ofId?_eq_some.mp hr
    by_cases hstatus : r.status = .cancelled
    · exact .twice hr hstatus (run_cancel_error hn hown nofun (by simp [hcancel, hstatus]))
    · simp only [if_neg hstatus] at hcancel
      obtain ⟨r', e, t, hrun, hr', he, hstore, -⟩ := run_cancel_ok hn hown hcancel
      have hwf := (hown.writes (.cancel hcancel)).wellFormed
      have hmem' : { r with status := .cancelled } ∈
          (s.store.update r.id fun r => { r with status := .cancelled }).records :=
        List.mem_map.mpr ⟨r, hmem, by simp⟩
      cases hr'.symm.trans (hwf.ofId?_eq_some.mpr ⟨hmem', rfl⟩)
      exact .once hr hstatus ⟨e, t, hrun, he, hstore⟩

end Marginalia.Journal
