import Marginalia.Journal.Operations
import Marginalia.Proofs.Ends

/-!
# Outcomes of journal work

How work that is made of steps comes apart: its result is the result of its last step, or the
fault of the step that failed. A block inside a transaction is no more than its steps; a block
that has to open one ends with the tables of its last step, or with those of its start.
-/

namespace Marginalia

namespace Journal

variable {m : JournalM α} {f : α → JournalM β} {s t : Session}

-- ---------------------------------------------------------------------------
-- Steps
-- ---------------------------------------------------------------------------

@[simp] theorem run_liftExcept (x : Except Fault α) : (liftExcept x : JournalM α).run s =
    match x with
    | .ok a => .ok a s
    | .error fault => .error fault s := by
  cases x <;> rfl

@[simp] theorem run_throw (fault : Fault) :
    (throw fault : JournalM α).run s = .error fault s := rfl

@[simp] theorem run_report (level : LogLevel) (text : String) :
    (report level text).run s = .ok () (s.report level text) := rfl

@[simp] theorem strike_eq (fault : Fault) :
    (strike fault : JournalM α) s = .error fault (s.failed fault).giveUp := rfl

def succeeds (m : JournalM α) (s : Session) : Bool :=
  match m.run s with
  | .ok _ _ => true
  | .error _ _ => false

theorem succeeds_iff : succeeds m s = true ↔ ∃ a t, m.run s = .ok a t := by
  unfold succeeds
  cases m.run s <;> simp

theorem not_succeeds_iff : succeeds m s = false ↔ ∃ fault t, m.run s = .error fault t := by
  unfold succeeds
  cases m.run s <;> simp

-- ---------------------------------------------------------------------------
-- The state that work ends in
-- ---------------------------------------------------------------------------

/-- The session after work, whether it ended well or by a fault. -/
def after (m : JournalM α) (s : Session) : Session :=
  match m.run s with
  | .ok _ t => t
  | .error _ t => t

theorem after_of_ok (h : m.run s = .ok a t) : after m s = t := by simp [after, h]

theorem after_of_error (h : m.run s = .error fault t) : after m s = t := by simp [after, h]

theorem after_bind : after (m >>= f) s =
    match m.run s with
    | .ok a t => after (f a) t
    | .error _ t => t := by
  simp only [after, EStateM.run_bind]
  cases m.run s <;> rfl

-- ---------------------------------------------------------------------------
-- Sessions and blocks
-- ---------------------------------------------------------------------------

namespace Session

@[simp] theorem store_settled : s.settled.store = s.store := rfl
@[simp] theorem store_failed : (s.failed fault).store = s.store := rfl
@[simp] theorem store_report : (s.report level text).store = s.store := rfl
@[simp] theorem saved_settled : s.settled.saved = s.saved := rfl
@[simp] theorem saved_failed : (s.failed fault).saved = s.saved := rfl
@[simp] theorem saved_report : (s.report level text).saved = s.saved := rfl
@[simp] theorem closings_settled : s.settled.closings = s.closings := rfl
@[simp] theorem closings_failed : (s.failed fault).closings = s.closings := rfl
@[simp] theorem tags_settled : s.settled.tags = s.tags := rfl
@[simp] theorem now_settled : s.settled.now = s.now := rfl

@[simp] theorem store_enter : s.enter.store = s.store := by
  unfold enter; split <;> rfl

@[simp] theorem tags_enter : s.enter.tags = s.tags := by
  unfold enter; split <;> rfl

@[simp] theorem now_enter : s.enter.now = s.now := by
  unfold enter; split <;> rfl

@[simp] theorem closings_enter : s.enter.closings = s.closings := by
  unfold enter; split <;> rfl

@[simp] theorem store_commit : (s.commit t).store = t.store := by
  unfold commit; split <;> rfl

@[simp] theorem tags_commit : (s.commit t).tags = t.tags := by
  unfold commit; split <;> rfl

@[simp] theorem now_commit : (s.commit t).now = t.now := by
  unfold commit; split <;> rfl

@[simp] theorem stamp_enter : s.enter.stamp = s.stamp := by simp [stamp]

/-- The tables as they are stored: those at the start of the open transaction, if one is open. -/
def committed (s : Session) : Store :=
  match s.saved with
  | some (store, _) => store
  | none => s.store

theorem committed_of_not_inTransaction (h : s.inTransaction = false) : s.committed = s.store := by
  cases hs : s.saved <;> simp_all [inTransaction, committed]

theorem store_giveUp : s.giveUp.store = s.committed := by
  unfold giveUp committed; split <;> simp_all

theorem saved_giveUp : s.giveUp.saved = none := by
  unfold giveUp; split <;> simp_all

theorem saved_enter (h : s.inTransaction = false) : s.enter.saved = some (s.store, s.keys) := by
  simp [enter, h]

theorem inTransaction_enter : s.enter.inTransaction = true := by
  unfold enter
  split
  · assumption
  · rfl

end Session

theorem run_transaction_inside (h : s.inTransaction = true) :
    (transaction m).run s = m.run s := by
  simp only [EStateM.run, transaction, Session.enter, Session.blockFault, Session.commit,
    Session.rollback, h, if_true]
  cases m s <;> rfl

theorem enter_inside (h : s.inTransaction = true) : s.enter = s := by simp [Session.enter, h]

theorem after_transaction_inside (h : s.inTransaction = true) :
    after (transaction m) s = after m s := by
  simp only [after, run_transaction_inside h]

theorem run_transaction_ok (h : (transaction m).run s = .ok a t) :
    ∃ u, m.run s.enter = .ok a u ∧ t = s.commit u := by
  simp only [EStateM.run, transaction] at h ⊢
  split at h
  · split at h
    · cases h
      exact ⟨_, ‹_›, rfl⟩
    · cases h
  · cases h

/-- A block that begins a transaction and is left by a fault gives everything back, unless the
journal was closed or the transaction was lost in it. -/
theorem run_transaction_outside (h : s.inTransaction = false)
    (hkept : (after m s.enter).saved = s.enter.saved)
    (hclosings : (after m s.enter).closings = s.closings) :
    (transaction m).run s =
      match m.run s.enter with
      | .ok a t => .ok a { t.settled with saved := none }
      | .error fault t => .error fault t.giveUp.settled := by
  have hopen : (after m s.enter).inTransaction = true := by
    simp [Session.inTransaction, hkept, Session.saved_enter h]
  unfold after at hclosings hopen
  simp only [EStateM.run] at hclosings hopen ⊢
  unfold transaction
  cases hm : m s.enter <;> rw [hm] at hclosings hopen <;>
    simp_all [Session.blockFault, Session.commit, Session.rollback]

theorem run_change_ok {statement : Store → Except Fault (α × Store)} :
    (change statement).run s = .ok a t ↔
      ∃ store, statement s.store = .ok (a, store) ∧ t = { s.settled with store } := by
  simp only [EStateM.run, change]
  cases statement s.store with
  | ok result => simp [Prod.ext_iff, and_assoc, eq_comm]
  | error fault => cases fault <;> simp

theorem run_change_error {statement : Store → Except Fault (α × Store)}
    (h : (change statement).run s = .error fault t) :
    statement s.store = .error fault ∧
      (fault = .full ∧ t = (s.failed .full).giveUp ∨ fault ≠ .full ∧ t = s.failed fault) := by
  simp only [EStateM.run, change] at h
  split at h
  · cases h
  · cases h
    exact ⟨‹_›, .inl ⟨rfl, rfl⟩⟩
  · rename_i hfull hstatement
    cases h
    exact ⟨hstatement, .inr ⟨hfull, rfl⟩⟩

theorem run_parameter_error (h : (parameter statement value).run s = .error fault t) :
    ∃ connection, t = { s with connection := some connection } := by
  simp only [EStateM.run, parameter] at h
  split at h
  · cases h
  · cases h
    exact ⟨_, rfl⟩

theorem run_parameter_ok (h : (parameter statement value).run s = .ok () t) :
    ∃ connection, t = { s with connection := some connection } := by
  simp only [EStateM.run, parameter] at h
  split at h
  · cases h
    exact ⟨_, rfl⟩
  · cases h

theorem cell_of_run_parameter (h : (parameter statement value).run s = .ok () t) :
    ∃ cell, Cell.ofData 1 value = .ok cell := by
  cases hcell : Cell.ofData 1 value with
  | ok cell => exact ⟨cell, rfl⟩
  | error fault => simp [EStateM.run, parameter, Connection.take, hcell] at h

theorem fits_of_cell (h : Cell.ofData index (.int n) = .ok cell) : fits n = true := by
  cases hfits : fits n with
  | true => rfl
  | false => simp [Cell.ofData, hfits] at h

theorem recordOf_ok (h : (recordOf n).run s = .ok r t) :
    s.store.ofId? n = some r ∧ fits n = true ∧
      ∃ connection, t = { s with connection := some connection } := by
  unfold recordOf at h
  simp only [run_bind_ok] at h
  obtain ⟨_, u, hu, h⟩ := h
  obtain ⟨cell, hcell⟩ := cell_of_run_parameter hu
  have hfits := fits_of_cell hcell
  obtain ⟨connection, rfl⟩ := run_parameter_ok hu
  simp only [EStateM.run_get, EStateM.Result.ok.injEq] at h
  obtain ⟨_, _, ⟨rfl, rfl⟩, h⟩ := h
  split at h
  · simp only [EStateM.run_pure, EStateM.Result.ok.injEq] at h
    obtain ⟨rfl, rfl⟩ := h
    exact ⟨‹_›, hfits, connection, rfl⟩
  · simp at h

end Journal

end Marginalia
