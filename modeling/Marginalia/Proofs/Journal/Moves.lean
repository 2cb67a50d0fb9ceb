import Marginalia.Proofs.Journal.Table
import Mathlib.Logic.Relation

/-!
# What work can do to the tables

Work moves the tables on, write by write, and leaves an open transaction open. There is one
exception: it may find no record number left. Then it ends, the open transaction is given up, and
the tables are those at the start of it. `Moving` says so about all that some work can do. It
passes from statements over sequences and blocks to whole operations.
-/

namespace Marginalia.Journal

open Relation (ReflTransGen)

/-- The fault by which work ends, if it does not end well. -/
def faultOf (m : JournalM α) (s : Session) : Option Fault :=
  match m.run s with
  | .ok _ _ => none
  | .error fault _ => some fault

/-- How work that ends at `t`, perhaps by a fault, gets there. -/
inductive Moves (write : Store → Store → Prop) (s : Session) (fault : Option Fault)
    (t : Session) : Prop
  | kept (saved : t.saved = s.saved) (closings : t.closings = s.closings)
      (store : ReflTransGen write s.store t.store)
  | lost (full : fault = some .full) (opened : s.inTransaction = true) (saved : t.saved = none)
      (closings : t.closings = s.closings) (store : t.store = s.committed)

/-- All that work can do is to move the tables on by writes of a kind. -/
def Moving (write : Store → Store → Prop) (m : JournalM α) : Prop :=
  ∀ s, Moves write s (faultOf m s) (after m s)

variable {s t u : Session} {write write' : Store → Store → Prop}
variable {m : JournalM α} {f : α → JournalM β}

-- ---------------------------------------------------------------------------
-- One session after the other
-- ---------------------------------------------------------------------------

theorem inTransaction_congr (h : t.saved = s.saved) : t.inTransaction = s.inTransaction := by
  simp [Session.inTransaction, h]

theorem Session.not_inTransaction (h : s.saved = none) : s.inTransaction = false := by
  simp [Session.inTransaction, h]

theorem committed_congr (hsaved : t.saved = s.saved) (hopen : s.inTransaction = true) :
    t.committed = s.committed := by
  unfold Session.committed
  cases hs : s.saved with
  | none => simp [Session.inTransaction, hs] at hopen
  | some saved => simp [hsaved, hs]

theorem Moves.of_same (hsaved : t.saved = s.saved) (hclosings : t.closings = s.closings)
    (hstore : t.store = s.store) : Moves write s fault t :=
  .kept hsaved hclosings (hstore ▸ .refl)

theorem Moves.closings (h : Moves write s fault t) : t.closings = s.closings := by
  cases h <;> assumption

theorem Moves.mono (hwrite : ∀ a b, write a b → write' a b) (h : Moves write s fault t) :
    Moves write' s fault t := by
  cases h with
  | kept saved closings store => exact .kept saved closings (ReflTransGen.mono hwrite _ _ store)
  | lost full opened saved closings store => exact .lost full opened saved closings store

/-- Work goes on only after work that ended well, so nothing was given up before. -/
theorem Moves.trans (h : Moves write s none t) (h' : Moves write t fault u) :
    Moves write s fault u := by
  cases h with
  | lost full => cases full
  | kept saved closings store =>
    cases h' with
    | kept saved' closings' store' =>
      exact .kept (saved'.trans saved) (closings'.trans closings) (store.trans store')
    | lost full opened saved' closings' store' =>
      have hopen : s.inTransaction = true := inTransaction_congr saved ▸ opened
      exact .lost full hopen saved' (closings'.trans closings)
        (store'.trans (committed_congr saved hopen))

-- ---------------------------------------------------------------------------
-- Steps and sequences
-- ---------------------------------------------------------------------------

theorem faultOf_of_ok (h : m.run s = .ok a t) : faultOf m s = none := by simp [faultOf, h]

theorem faultOf_of_error (h : m.run s = .error fault t) : faultOf m s = some fault := by
  simp [faultOf, h]

theorem Moving.ok (hm : Moving write m) (h : m.run s = .ok a t) : Moves write s none t :=
  faultOf_of_ok h ▸ after_of_ok h ▸ hm s

theorem Moving.error (hm : Moving write m) (h : m.run s = .error fault t) :
    Moves write s (some fault) t :=
  faultOf_of_error h ▸ after_of_error h ▸ hm s

theorem Moving.saved (hm : Moving write m)
    (h : m.run s = .ok a t) : t.saved = s.saved := by
  cases hm.ok h with
  | kept saved closings store => exact saved
  | lost full => cases full

theorem moving_of (hok : ∀ s a t, m.run s = .ok a t → Moves write s none t)
    (herror : ∀ s fault t, m.run s = .error fault t → Moves write s (some fault) t) :
    Moving write m := by
  intro s
  cases h : m.run s with
  | ok a t => simpa [faultOf, after, h] using hok s a t h
  | error fault t => simpa [faultOf, after, h] using herror s fault t h

theorem Moving.mono (hwrite : ∀ a b, write a b → write' a b) (hm : Moving write m) :
    Moving write' m := fun s => (hm s).mono hwrite

theorem moving_of_quiet (h : ∀ s, (after m s).saved = s.saved ∧
    (after m s).closings = s.closings ∧ (after m s).store = s.store) : Moving write m := by
  intro s
  obtain ⟨hsaved, hclosings, hstore⟩ := h s
  exact .of_same hsaved hclosings hstore

theorem moving_bind (hm : Moving write m) (hf : ∀ a, Moving write (f a)) :
    Moving write (m >>= f) := by
  refine moving_of ?_ ?_
  · intro s b t h
    obtain ⟨a, u, hu, h⟩ := run_bind_ok.mp h
    exact (hm.ok hu).trans ((hf a).ok h)
  · intro s fault t h
    rcases run_bind_error.mp h with h | ⟨a, u, hu, h⟩
    · exact hm.error h
    · exact (hm.ok hu).trans ((hf a).error h)

theorem moving_pure (a : α) : Moving write (pure a) := moving_of_quiet fun _ => ⟨rfl, rfl, rfl⟩

theorem moving_get : Moving write (get : JournalM Session) :=
  moving_of_quiet fun _ => ⟨rfl, rfl, rfl⟩

theorem moving_throw (fault : Fault) : Moving write (throw fault : JournalM α) :=
  moving_of_quiet fun _ => ⟨rfl, rfl, rfl⟩

theorem moving_report (level : LogLevel) (text : String) : Moving write (report level text) :=
  moving_of_quiet fun _ => ⟨rfl, rfl, rfl⟩

theorem moving_liftExcept (x : Except Fault α) : Moving write (liftExcept x : JournalM α) := by
  cases x <;> exact moving_of_quiet fun _ => ⟨rfl, rfl, rfl⟩

theorem moving_ite [Decidable p] {m' : JournalM α} (hm : Moving write m) (hm' : Moving write m') :
    Moving write (if p then m else m') := by
  split
  · exact hm
  · exact hm'

theorem moving_forM {f : α → JournalM Unit} {l : List α} (hf : ∀ a, Moving write (f a)) :
    Moving write (l.forM f) := by
  induction l with
  | nil => exact moving_pure ()
  | cons a rest ih => exact moving_bind (hf a) fun _ => ih

theorem moving_parameter (statement : Statement) (value : Data) :
    Moving write (parameter statement value) := by
  refine moving_of ?_ ?_
  · intro s _ t h
    obtain ⟨connection, rfl⟩ := run_parameter_ok h
    exact .of_same rfl rfl rfl
  · intro s fault t h
    obtain ⟨connection, rfl⟩ := run_parameter_error h
    exact .of_same rfl rfl rfl

theorem closings_giveUp : s.giveUp.closings = s.closings := by
  unfold Session.giveUp; split <;> rfl

theorem moves_of_change_error {statement : Store → Except Fault (α × Store)}
    (h : (change statement).run s = .error fault t) : Moves write s (some fault) t := by
  obtain ⟨-, ⟨rfl, rfl⟩ | ⟨-, rfl⟩⟩ := run_change_error h
  · have hclosings : (s.failed .full).giveUp.closings = s.closings := closings_giveUp
    have hstore : (s.failed .full).giveUp.store = s.committed := Session.store_giveUp
    cases hs : s.inTransaction with
    | true => exact .lost rfl hs Session.saved_giveUp hclosings hstore
    | false =>
      have hnone : s.saved = none := by simpa [Session.inTransaction] using hs
      exact .of_same (Session.saved_giveUp.trans hnone.symm) hclosings
        (hstore.trans (Session.committed_of_not_inTransaction hs))
  · exact .of_same rfl rfl rfl

theorem moving_change {statement : Store → Except Fault (α × Store)}
    (h : ∀ store a store', statement store = .ok (a, store') → ReflTransGen write store store') :
    Moving write (change statement) := by
  refine moving_of ?_ fun s fault t hrun => moves_of_change_error hrun
  intro s a t hrun
  obtain ⟨store, hstatement, rfl⟩ := run_change_ok.mp hrun
  exact .kept rfl rfl (h _ _ _ hstatement)

theorem moving_query (statement : Store → Except Fault α) : Moving write (query statement) := by
  refine moving_change fun store a store' h => ?_
  obtain ⟨_, -, heq⟩ := map_ok.mp h
  cases heq
  exact .refl

-- ---------------------------------------------------------------------------
-- Blocks
-- ---------------------------------------------------------------------------

theorem committed_enter (h : s.inTransaction = false) : s.enter.committed = s.store := by
  simp [Session.committed, Session.saved_enter h]

theorem committed_of_enter (s : Session) : s.enter.committed = s.committed := by
  cases h : s.inTransaction with
  | true => rw [enter_inside h]
  | false => rw [committed_enter h, Session.committed_of_not_inTransaction h]

theorem saved_rollback (h : s.inTransaction = false) (fault : Fault) :
    (s.rollback t fault).saved = none := by
  have hclosed (ht : ¬ t.inTransaction = true) : t.saved = none := by
    simpa [Session.inTransaction] using ht
  simp only [Session.rollback, h, Bool.false_eq_true, if_false]
  split
  · exact Session.saved_giveUp
  · split
    · exact Session.saved_giveUp
    · split <;> exact hclosed ‹_›

theorem closings_rollback (s t : Session) (fault : Fault) :
    (s.rollback t fault).closings = t.closings := by
  unfold Session.rollback
  repeat' split
  · rfl
  · exact closings_giveUp
  · exact closings_giveUp
  · rfl
  · rfl

/-- What the end of a block does not take back any more. -/
theorem store_rollback (hs : s.inTransaction = false) (hclosings : u.closings = s.closings)
    (hu : u.saved = none) (fault : Fault) : (s.rollback u fault).store = u.store := by
  have hclosed : u.inTransaction = false := Session.not_inTransaction hu
  simp only [Session.rollback, hs, hclosings, hclosed, bne_self_eq_false, Bool.false_eq_true,
    if_false]
  split <;> rfl

theorem rollback_same (hm : Moves write s.enter (some fault) t) (h : s.inTransaction = false) :
    (s.rollback t fault').saved = none ∧ (s.rollback t fault').closings = s.closings ∧
      (s.rollback t fault').store = s.store := by
  have hclosings : t.closings = s.closings := by simpa using hm.closings
  simp only [Session.rollback, h, Bool.false_eq_true, if_false, hclosings, bne_self_eq_false]
  cases hm with
  | kept saved closings store =>
    have hopen : t.inTransaction = true := inTransaction_congr saved ▸ Session.inTransaction_enter
    rw [if_pos hopen]
    refine ⟨by simp [Session.saved_giveUp], by simp [closings_giveUp, hclosings], ?_⟩
    rw [Session.store_settled, Session.store_giveUp,
      committed_congr saved Session.inTransaction_enter, committed_enter h]
  | lost full opened saved closings store =>
    have hclosed : t.inTransaction = false := by simp [Session.inTransaction, saved]
    rw [if_neg (by simp [hclosed])]
    rw [committed_enter h] at store
    split
    · exact ⟨saved, hclosings, store⟩
    · exact ⟨saved, hclosings, store⟩

theorem commit_moves (hm : Moves write s.enter none t) (h : s.inTransaction = false) :
    Moves write s none (s.commit t) := by
  have hnone : s.saved = none := by simpa [Session.inTransaction] using h
  cases hm with
  | lost full => cases full
  | kept saved closings store =>
    simp only [Session.commit, h, Bool.false_eq_true, if_false]
    exact .kept hnone.symm (by simpa using closings) (by simpa using store)

theorem run_transaction_error (h : (transaction m).run s = .error fault t) :
    (∃ fault' u, m.run s.enter = .error fault' u ∧ t = s.rollback u fault ∧
        fault = (s.blockFault u (some fault')).getD fault') ∨
      ∃ a u, m.run s.enter = .ok a u ∧ s.blockFault u none = some fault ∧
        t = s.rollback u fault := by
  simp only [EStateM.run, transaction] at h ⊢
  split at h
  · split at h
    · cases h
    · cases h
      exact .inr ⟨_, _, ‹_›, ‹_›, rfl⟩
  · cases h
    exact .inl ⟨_, _, ‹_›, rfl, rfl⟩

theorem blockFault_none_of_moves (hm : Moves write s.enter none t) :
    s.blockFault t none = none := by
  have hclosings : t.closings = s.closings := by simpa using hm.closings
  cases hm with
  | lost full => cases full
  | kept saved closings store =>
    have hopen : t.inTransaction = true := inTransaction_congr saved ▸ Session.inTransaction_enter
    simp [Session.blockFault, hclosings, hopen]

/-- The end of a transaction stops nothing that its block did not stop. -/
theorem stopsBy_transaction {P : Fault → Prop} (hm : Moving write m) (h : StopsBy P m s.enter) :
    StopsBy P (transaction m) s := by
  intro fault t hrun
  rcases run_transaction_error hrun with ⟨fault', u, hu, -, rfl⟩ | ⟨a, u, hu, hfault, -⟩
  · have hsame : (s.blockFault u (some fault')).getD fault' = fault' := by
      have hclosings : u.closings = s.closings := by simpa using (hm.error hu).closings
      unfold Session.blockFault
      split
      · rfl
      · simp only [hclosings, bne_self_eq_false, Bool.false_eq_true, if_false]
        split <;> rfl
    rw [hsame]
    exact h hu
  · rw [blockFault_none_of_moves (hm.ok hu)] at hfault
    cases hfault

/-- Outside transactions, a block takes everything back when it is left by a fault. -/
theorem transaction_error_outside (hm : Moving write m) (hs : s.inTransaction = false)
    (h : (transaction m).run s = .error fault t) :
    t.saved = none ∧ t.closings = s.closings ∧ t.store = s.store := by
  rcases run_transaction_error h with ⟨fault', u, hu, rfl, -⟩ | ⟨a, u, hu, hfault, -⟩
  · exact rollback_same (hm.error hu) hs
  · rw [blockFault_none_of_moves (hm.ok hu)] at hfault
    cases hfault

theorem moving_transaction (hm : Moving write m) : Moving write (transaction m) := by
  refine moving_of ?_ ?_
  · intro s a t h
    cases hs : s.inTransaction with
    | true => exact hm.ok (run_transaction_inside hs ▸ h)
    | false =>
      obtain ⟨u, hu, rfl⟩ := run_transaction_ok h
      exact commit_moves (hm.ok hu) hs
  · intro s fault t h
    cases hs : s.inTransaction with
    | true => exact hm.error (run_transaction_inside hs ▸ h)
    | false =>
      obtain ⟨hsaved, hclosings, hstore⟩ := transaction_error_outside hm hs h
      have hnone : s.saved = none := by simpa [Session.inTransaction] using hs
      exact .of_same (hsaved.trans hnone.symm) hclosings hstore

/-- Whatever a call did before the database breaks it off: what is stored stays, and no transaction
is open any more. -/
theorem run_struck {m : JournalM α} {write : Store → Store → Prop} (hm : Moving write m)
    (hrun : m.run s.enter = .ok a u) (fault : Fault) :
    ∃ t, (transaction (m >>= fun _ => (strike fault : JournalM Unit))).run s = .error fault t ∧
      t.saved = none ∧ t.store = s.committed ∧ t.closings = s.closings := by
  have hstruck : (m >>= fun _ => (strike fault : JournalM Unit)).run s.enter =
      .error fault (u.failed fault).giveUp := by
    rw [EStateM.run_bind, hrun]
    rfl
  have hsaved : (u.failed fault).giveUp.saved = none := Session.saved_giveUp
  have hclosings : (u.failed fault).giveUp.closings = s.closings :=
    closings_giveUp.trans ((hm.ok hrun).closings.trans Session.closings_enter)
  have hstore : (u.failed fault).giveUp.store = s.committed := by
    rw [Session.store_giveUp]
    exact (committed_congr (hm.saved hrun) Session.inTransaction_enter).trans (committed_of_enter s)
  cases hs : s.inTransaction with
  | true =>
    rw [enter_inside hs] at hstruck
    exact ⟨_, (run_transaction_inside hs).trans hstruck, hsaved, hstore, hclosings⟩
  | false =>
    generalize (u.failed fault).giveUp = v at hstruck hsaved hclosings hstore
    have hclosed : v.inTransaction = false := Session.not_inTransaction hsaved
    refine ⟨s.rollback v fault, ?_, saved_rollback hs fault, ?_, ?_⟩
    · simp only [EStateM.run, transaction] at hstruck ⊢
      simp [hstruck, Session.blockFault, hs, hclosings, hclosed]
    · rw [store_rollback hs hclosings hsaved, hstore]
    · rw [closings_rollback, hclosings]

end Marginalia.Journal
