import Marginalia.Proofs.Journal.Success

/-!
# Nested blocks

Who opens a transaction ends it. A tree of blocks that is left by a fault leaves the tables as they
were, and one that ends well does what its leaves do, one after the other, in a single block. Only
the leaves that were executed count, together with the faults by which they ended: `trace` lists
them. What a transaction cannot outlive is a leaf that the database breaks off, as it does when the
disk is full or no record number is left.
-/

namespace Marginalia.Journal

namespace Program

/-- Whether a program leaves the journal open. -/
def staysOpen : Program → Bool
  | skip | leaf _ | fail _ => true
  | seq first second => first.staysOpen && second.staysOpen
  | block body => body.staysOpen
  | handle _ body handler => body.staysOpen && handler.staysOpen
  | close _ | reopen _ _ => false

/-- The leaves that a run executes, in order, each with the fault by which it ended. -/
def trace : Program → Session → List (Leaf × Option Fault)
  | leaf step, s => [(step, faultOf step.run s)]
  | seq first second, s =>
    first.trace s ++ if faultOf first.run s = none then second.trace (after first.run s) else []
  | block body, s => body.trace s.enter
  | handle catches body handler, s =>
    body.trace s ++
      if caught catches (faultOf body.run s) then handler.trace (after body.run s) else []
  | skip, _ | fail _, _ | close _, _ | reopen _ _, _ => []

end Program

variable {s t u : Session} {m : JournalM α} {p q : Program}

-- ---------------------------------------------------------------------------
-- The end of a block
-- ---------------------------------------------------------------------------

theorem saved_after_transaction (h : s.inTransaction = false) :
    (after (transaction m) s).saved = none := by
  simp only [after, EStateM.run, transaction]
  cases m s.enter with
  | error fault t => exact saved_rollback h _
  | ok a t =>
    dsimp only
    cases s.blockFault t none with
    | none => simp [Session.commit, h]
    | some fault => exact saved_rollback h _

theorem closings_after_transaction (m : JournalM α) (s : Session) :
    (after (transaction m) s).closings = (after m s.enter).closings := by
  simp only [after, EStateM.run, transaction]
  cases m s.enter with
  | error fault t => exact closings_rollback s t _
  | ok a t =>
    dsimp only
    cases s.blockFault t none with
    | none =>
      dsimp only
      unfold Session.commit
      split <;> rfl
    | some fault => exact closings_rollback s t _

theorem store_after_transaction (h : s.inTransaction = false)
    (hkept : (after m s.enter).saved = s.enter.saved)
    (hclosings : (after m s.enter).closings = s.closings) :
    (after (transaction m) s).store =
      if faultOf m s.enter = none then (after m s.enter).store else s.store := by
  have hrun := run_transaction_outside h hkept hclosings
  have hopen : (after m s.enter).committed = s.store := by
    rw [committed_congr hkept Session.inTransaction_enter, committed_enter h]
  cases hm : m.run s.enter with
  | ok a t =>
    rw [hm] at hrun
    rw [faultOf_of_ok hm, after_of_ok hm, after_of_ok hrun, if_pos rfl]
    rfl
  | error fault t =>
    rw [hm] at hrun
    rw [after_of_error hm] at hopen
    rw [faultOf_of_error hm, after_of_error hrun, if_neg (by simp)]
    exact Session.store_giveUp.trans hopen

-- ---------------------------------------------------------------------------
-- Programs that leave the journal open
-- ---------------------------------------------------------------------------

/-- The run of a program that is the run of another one, or that goes on from its end with the run
of a third one. -/
inductive GoesOn (p q r : Program) (s : Session) : Prop
  | stop (trace : r.trace s = p.trace s) (finish : after r.run s = after p.run s)
  | goOn (trace : r.trace s = p.trace s ++ q.trace (after p.run s))
      (finish : after r.run s = after q.run (after p.run s))

theorem goesOn_seq (first second : Program) (s : Session) :
    GoesOn first second (.seq first second) s := by
  have hafter := after_seq first second s
  by_cases hfault : faultOf first.run s = none
  · exact .goOn (by simp [Program.trace, hfault]) (by simp [hafter, hfault])
  · exact .stop (by simp [Program.trace, hfault]) (by simp [hafter, hfault])

theorem goesOn_handle (catches : Fault → Bool) (body handler : Program) (s : Session) :
    GoesOn body handler (.handle catches body handler) s := by
  have hafter := after_handle catches body handler s
  by_cases hcaught : Program.caught catches (faultOf body.run s) = true
  · exact .goOn (by simp [Program.trace, hcaught]) (by simp [hafter, hcaught])
  · exact .stop (by simp [Program.trace, hcaught]) (by simp [hafter, hcaught])

theorem GoesOn.elim {P : List (Leaf × Option Fault) → Session → Prop} (h : GoesOn p q r s)
    (hp : P (p.trace s) (after p.run s))
    (hq : P (p.trace s ++ q.trace (after p.run s)) (after q.run (after p.run s))) :
    P (r.trace s) (after r.run s) := by
  cases h with
  | stop trace finish => exact trace ▸ finish ▸ hp
  | goOn trace finish => exact trace ▸ finish ▸ hq

/-- Induction on programs that leave the journal open: a sequence and a handler alike are runs that
may go on. -/
theorem staysOpen_rec {P : Program → Prop}
    (still : ∀ p, (∀ s, p.trace s = [] ∧ after p.run s = s) → P p)
    (leaf : ∀ step, P (.leaf step))
    (goesOn : ∀ p q r, q.staysOpen = true → P p → P q → (∀ s, GoesOn p q r s) → P r)
    (block : ∀ body, body.staysOpen = true → P body → P (.block body))
    (hp : p.staysOpen = true) : P p := by
  induction p with
  | skip | fail fault => exact still _ fun s => ⟨rfl, rfl⟩
  | leaf step => exact leaf step
  | seq first second ih ih' =>
    obtain ⟨hfirst, hsecond⟩ : first.staysOpen = true ∧ second.staysOpen = true := by
      simpa [Program.staysOpen] using hp
    exact goesOn _ _ _ hsecond (ih hfirst) (ih' hsecond) (goesOn_seq first second)
  | block body ih => exact block body hp (ih hp)
  | handle catches body handler ih ih' =>
    obtain ⟨hbody, hhandler⟩ : body.staysOpen = true ∧ handler.staysOpen = true := by
      simpa [Program.staysOpen] using hp
    exact goesOn _ _ _ hhandler (ih hbody) (ih' hhandler) (goesOn_handle catches body handler)
  | close path => cases hp
  | reopen path types => cases hp

theorem closings_after (hp : p.staysOpen = true) (s : Session) :
    (after p.run s).closings = s.closings := by
  refine staysOpen_rec (P := fun p => ∀ s, (after p.run s).closings = s.closings)
    ?still ?leaf ?goesOn ?block hp s
  case still =>
    intro p h s
    rw [(h s).2]
  case leaf =>
    rintro (op | ⟨op, fault⟩ | now) s
    · exact (op.moving_run s).closings
    · obtain ⟨t, hrun, -, -, hclosings⟩ := run_broken op fault s
      exact (congrArg Session.closings (after_of_error hrun)).trans hclosings
    · rfl
  case goesOn =>
    intro p q r _ ih ih' hr s
    exact (hr s).elim (P := fun _ t => t.closings = s.closings) (ih s) ((ih' _).trans (ih s))
  case block =>
    intro body _ ih s
    exact (closings_after_transaction body.run s).trans ((ih _).trans Session.closings_enter)

theorem saved_after (hp : p.staysOpen = true) (hs : s.saved = none) :
    (after p.run s).saved = none := by
  refine staysOpen_rec (P := fun p => ∀ s, s.saved = none → (after p.run s).saved = none)
    ?still ?leaf ?goesOn ?block hp s hs
  case still =>
    intro p h s hs
    rwa [(h s).2]
  case leaf =>
    rintro (op | ⟨op, fault⟩ | now) s hs
    · cases op.moving_run s with
      | kept saved closings store => exact saved.trans hs
      | lost full opened saved closings store => exact saved
    · obtain ⟨t, hrun, hsaved, -⟩ := run_broken op fault s
      exact (congrArg Session.saved (after_of_error hrun)).trans hsaved
    · exact hs
  case goesOn =>
    intro p q r _ ih ih' hr s hs
    exact (hr s).elim (P := fun _ t => t.saved = none) (ih s hs) (ih' _ (ih s hs))
  case block =>
    intro body _ _ s hs
    exact saved_after_transaction (Session.not_inTransaction hs)

/-- A block around a body that does nothing to the tables does nothing to them either. -/
theorem after_block_same (hbody : body.staysOpen = true)
    (hsaved : (after body.run s.enter).saved = s.enter.saved)
    (hstore : (after body.run s.enter).store = s.enter.store) :
    (after (Program.block body).run s).saved = s.saved ∧
      (after (Program.block body).run s).store = s.store := by
  cases hs : s.inTransaction with
  | true =>
    have hrun : after (Program.block body).run s = after body.run s := after_transaction_inside hs
    rw [enter_inside hs] at hsaved hstore
    rw [hrun]
    exact ⟨hsaved, hstore⟩
  | false =>
    have hnone : s.saved = none := by simpa [Session.inTransaction] using hs
    have hclosings : (after body.run s.enter).closings = s.closings :=
      (closings_after hbody _).trans Session.closings_enter
    refine ⟨(saved_after_transaction hs).trans hnone.symm, ?_⟩
    refine (store_after_transaction hs hsaved hclosings).trans ?_
    split
    · exact hstore.trans Session.store_enter
    · rfl

theorem after_of_trace_nil (hp : p.staysOpen = true) (htrace : p.trace s = []) :
    (after p.run s).saved = s.saved ∧ (after p.run s).store = s.store := by
  refine staysOpen_rec (P := fun p => ∀ s, p.trace s = [] →
    (after p.run s).saved = s.saved ∧ (after p.run s).store = s.store)
    ?still ?leaf ?goesOn ?block hp s htrace
  case still =>
    intro p h s _
    rw [(h s).2]
    exact ⟨rfl, rfl⟩
  case leaf => exact fun step s htrace => nomatch htrace
  case goesOn =>
    intro p q r _ ih ih' hr s htrace
    refine (hr s).elim (P := fun tr t => tr = [] → t.saved = s.saved ∧ t.store = s.store)
      (ih s) ?_ htrace
    intro hboth
    obtain ⟨hnil, hnil'⟩ := List.append_eq_nil_iff.mp hboth
    obtain ⟨hsaved, hstore⟩ := ih s hnil
    obtain ⟨hsaved', hstore'⟩ := ih' _ hnil'
    exact ⟨hsaved'.trans hsaved, hstore'.trans hstore⟩
  case block =>
    intro body hbody ih s htrace
    obtain ⟨hsaved, hstore⟩ := ih s.enter htrace
    exact after_block_same hbody hsaved hstore

-- ---------------------------------------------------------------------------
-- What becomes of an open transaction
-- ---------------------------------------------------------------------------

/-- Whether a leaf that ended by a fault ended the open transaction with it: the database broke it
off, or no record number was left. -/
def Leaf.EndsAll (step : Leaf) (fault : Option Fault) : Prop :=
  (∃ op cause, step = .broken op cause) ∨ fault = some .full

/-- No leaf but the last one ended the open transaction. -/
def Unbroken (trace : List (Leaf × Option Fault)) : Prop :=
  ∀ e ∈ trace.dropLast, ¬ e.1.EndsAll e.2

/-- The open transaction at the end of a run: it is still there, or a leaf ended it. Then the
tables are those at its start, unless more leaves came. -/
inductive Keeps (trace : List (Leaf × Option Fault)) (s t : Session) : Prop
  | opened (saved : t.saved = s.saved)
  | dropped (saved : t.saved = none) (ended : ∃ e ∈ trace, e.1.EndsAll e.2)
      (store : Unbroken trace → t.store = s.committed)

theorem unbroken_of_append {first second : List (Leaf × Option Fault)}
    (h : Unbroken (first ++ second)) (hne : second ≠ []) :
    (∀ e ∈ first, ¬ e.1.EndsAll e.2) ∧ Unbroken second := by
  rw [Unbroken, List.dropLast_append_of_ne_nil hne, List.forall_mem_append] at h
  exact h

theorem Keeps.append {first second : List (Leaf × Option Fault)} (hs : s.inTransaction = true)
    (h : Keeps first s t) (hopen : t.inTransaction = true → Keeps second t u)
    (hclosed : t.saved = none → u.saved = none ∧ (second = [] → u.store = t.store)) :
    Keeps (first ++ second) s u := by
  cases h with
  | opened saved =>
    have ht : t.inTransaction = true := inTransaction_congr saved ▸ hs
    cases hopen ht with
    | opened saved' => exact .opened (saved'.trans saved)
    | dropped saved' ended store =>
      obtain ⟨e, he, hended⟩ := ended
      refine .dropped saved' ⟨e, List.mem_append_right _ he, hended⟩ fun hunbroken => ?_
      have hsecond := (unbroken_of_append hunbroken (List.ne_nil_of_mem he)).2
      exact (store hsecond).trans (committed_congr saved hs)
  | dropped saved ended store =>
    obtain ⟨hsaved, hstore⟩ := hclosed saved
    obtain ⟨e, he, hended⟩ := ended
    refine .dropped hsaved ⟨e, List.mem_append_left _ he, hended⟩ fun hunbroken => ?_
    by_cases hnil : second = []
    · rw [hnil, List.append_nil] at hunbroken
      exact (hstore hnil).trans (store hunbroken)
    · exact absurd hended ((unbroken_of_append hunbroken hnil).1 e he)

theorem keeps_leaf (step : Leaf) (s : Session) :
    Keeps [(step, faultOf step.run s)] s (after step.run s) := by
  cases step with
  | wait now => exact .opened rfl
  | broken op fault =>
    obtain ⟨t, hrun, hsaved, hstore, -⟩ := run_broken op fault s
    rw [after_of_error hrun]
    exact .dropped hsaved ⟨_, List.mem_singleton_self _, .inl ⟨op, fault, rfl⟩⟩ fun _ => hstore
  | call op =>
    cases op.moving_run s with
    | kept saved closings store => exact .opened saved
    | lost full opened saved closings store =>
      exact .dropped saved ⟨_, List.mem_singleton_self _, .inr full⟩ fun _ => store

theorem Program.keeps (hp : p.staysOpen = true) (hs : s.inTransaction = true) :
    Keeps (p.trace s) s (after p.run s) := by
  refine staysOpen_rec (P := fun p => ∀ s, s.inTransaction = true →
    Keeps (p.trace s) s (after p.run s)) ?still ?leaf ?goesOn ?block hp s hs
  case still =>
    intro p h s _
    exact .opened (by rw [(h s).2])
  case leaf => exact fun step s _ => keeps_leaf step s
  case goesOn =>
    intro p q r hq ih ih' hr s hs
    refine (hr s).elim (P := fun tr t => Keeps tr s t) (ih s hs) ?_
    exact (ih s hs).append hs (ih' _) fun hnone =>
      ⟨saved_after hq hnone, fun hnil => (after_of_trace_nil hq hnil).2⟩
  case block =>
    intro body _ ih s hs
    have hkeeps := ih s hs
    rw [show after (block body).run s = after body.run s from after_transaction_inside hs]
    simpa only [trace, enter_inside hs] using hkeeps

end Marginalia.Journal
