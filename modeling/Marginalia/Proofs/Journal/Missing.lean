import Marginalia.Proofs.Journal.Ready

/-!
# Records that are missing

A reconciliation takes its keys down beside the tables, where an earlier one that failed may have
left some. Nothing of these counts: in every session the records that it completes are the active
ones whose source key is none of its own keys. What one reconciliation leaves active therefore
depends on the keys alone, and of two in a row only the keys that they share count.
-/

namespace Marginalia.Journal

namespace Record

/-- A record that a reconciliation with these keys is to complete. -/
def Missing (keys : List String) (r : Record) : Prop := r.status = .active ∧ r.sourceKey ∉ keys

instance (keys : List String) (r : Record) : Decidable (r.Missing keys) :=
  inferInstanceAs (Decidable (_ ∧ _))

/-- The record completed at a time if it is missing, and as it was otherwise. -/
def completedBut (keys : List String) (now : String) (r : Record) : Record :=
  if r.Missing keys then { r with status := .completed, completedAt := some now } else r

end Record

namespace Store

def completedBut (store : Store) (keys : List String) (now : String) : Store :=
  { store with records := store.records.map (.completedBut keys now) }

def missingFrom (store : Store) (keys : List String) : Nat := store.records.countP (·.Missing keys)

/-- The active records, in the order in which the tables hold them. -/
def actives (store : Store) : List Record := store.records.filter (·.status = .active)

end Store

variable {s t u : Session} {m : JournalM α} {store : Store} {r : Record}
variable {keys others common : List String}

-- ---------------------------------------------------------------------------
-- Records
-- ---------------------------------------------------------------------------

namespace Record

theorem completedBut_of_not_missing (h : ¬r.Missing keys) (now : String) :
    r.completedBut keys now = r := if_neg h

theorem active_completedBut (now : String) (r : Record) :
    (r.completedBut keys now).status = .active ↔ r.status = .active ∧ r.sourceKey ∈ keys := by
  by_cases hactive : r.status = .active <;> by_cases hkey : r.sourceKey ∈ keys <;>
    simp [completedBut, Missing, hactive, hkey]

theorem sourceKey_completedBut (keys : List String) (now : String) (r : Record) :
    (r.completedBut keys now).sourceKey = r.sourceKey := by
  unfold completedBut
  split <;> rfl

theorem missing_completedBut (now : String) (r : Record) :
    (r.completedBut keys now).Missing others ↔ r.Missing others ∧ r.sourceKey ∈ keys := by
  rw [Missing, active_completedBut, sourceKey_completedBut, Missing, and_right_comm]

end Record

-- ---------------------------------------------------------------------------
-- Tables
-- ---------------------------------------------------------------------------

namespace Store

theorem missingFrom_completedBut (store : Store) (keys others : List String) (now : String) :
    (store.completedBut keys now).missingFrom others =
      store.records.countP fun r => r.Missing others ∧ r.sourceKey ∈ keys := by
  rw [missingFrom, completedBut, List.countP_map]
  exact List.countP_congr fun r _ => by simpa using Record.missing_completedBut now r

/-- What was completed is not missing any more. -/
theorem missingFrom_completedBut_self (store : Store) (keys : List String) (now : String) :
    (store.completedBut keys now).missingFrom keys = 0 := by
  rw [missingFrom_completedBut, List.countP_eq_zero]
  intro r _ h
  obtain ⟨⟨-, hmissing⟩, hkey⟩ := of_decide_eq_true h
  exact hmissing hkey

theorem completedBut_of_missingFrom_eq_zero (h : store.missingFrom keys = 0) (now : String) :
    store.completedBut keys now = store := by
  have hnone : ∀ r ∈ store.records, ¬r.Missing keys := by
    simpa [missingFrom, List.countP_eq_zero] using h
  rw [completedBut, List.map_congr_left fun r hr =>
    Record.completedBut_of_not_missing (hnone r hr) now, List.map_id']

theorem actives_completedBut (store : Store) (keys : List String) (now : String) :
    (store.completedBut keys now).actives = store.actives.filter (·.sourceKey ∈ keys) := by
  have hkept : ∀ r ∈ store.records.filter fun r => r.status = .active ∧ r.sourceKey ∈ keys,
      r.completedBut keys now = r := by
    intro r hr
    obtain ⟨-, -, hkey⟩ : _ ∧ r.status = .active ∧ r.sourceKey ∈ keys := by simpa using hr
    exact Record.completedBut_of_not_missing (fun hmissing => hmissing.2 hkey) now
  simp only [actives, completedBut, List.filter_map, Function.comp_def, Record.active_completedBut]
  rw [List.map_congr_left hkept, List.map_id', List.filter_filter]
  simp only [Bool.decide_and, Bool.and_comm]

/-- Two reconciliations in a row leave active what one with the keys that they share leaves. -/
theorem actives_completedBut_completedBut
    (hcommon : ∀ key, key ∈ common ↔ key ∈ keys ∧ key ∈ others) (store : Store)
    (now now' now'' : String) :
    ((store.completedBut keys now).completedBut others now').actives =
      (store.completedBut common now'').actives := by
  simp only [actives_completedBut, List.filter_filter, hcommon, Bool.decide_and, Bool.and_comm]

/-- A record that is missing for the keys that two reconciliations share is missing for the first
one, or it is left by the first and missing for the second. -/
theorem missingFrom_common (hcommon : ∀ key, key ∈ common ↔ key ∈ keys ∧ key ∈ others)
    (store : Store) (now : String) :
    store.missingFrom common =
      store.missingFrom keys + (store.completedBut keys now).missingFrom others := by
  rw [missingFrom_completedBut, missingFrom, missingFrom]
  induction store.records with
  | nil => rfl
  | cons r rest ih =>
    rw [List.countP_cons, List.countP_cons, List.countP_cons, ih]
    by_cases hactive : r.status = .active <;> by_cases hkey : r.sourceKey ∈ keys <;>
      by_cases hother : r.sourceKey ∈ others <;>
      simp [Record.Missing, hactive, hkey, hother, hcommon] <;> omega

end Store

-- ---------------------------------------------------------------------------
-- Sessions
-- ---------------------------------------------------------------------------

/-- With texts as keys and a clock that can be read, a reconciliation goes through. -/
theorem run_reconcile (hnow : s.now.stamp? = some now) (keys : List String) :
    ∃ t, (reconcile (keys.map .text)).run s = .ok (s.store.missingFrom keys) t ∧
      t.store = s.store.completedBut keys now ∧ s.SameFrame t := by
  obtain ⟨count, t, hrun, hframe⟩ := run_reconcile_texts (stamp_ok.mpr hnow) keys
  obtain ⟨now', current, hstamp, hcurrent, hstore, rfl⟩ := reconcile_ok hrun
  cases hnow.symm.trans (stamp_ok.mp hstamp)
  have hmissing (r : Record) : Store.isMissing current r = true ↔ r.Missing keys :=
    isMissing_texts hcurrent r
  have hcount : s.store.missingCount current = s.store.missingFrom keys :=
    List.countP_congr fun r _ => by simpa using hmissing r
  refine ⟨t, hcount ▸ hrun, ?_, hframe⟩
  simp only [hstore, Store.complete, hmissing]
  rfl

/-- A block that fails without a trace in the tables leaves none outside. -/
theorem run_transaction_traceless (h : m.run s.enter = .error fault u)
    (hframe : s.enter.SameFrame u) (hstore : u.store = s.store) :
    ∃ t, (transaction m).run s = .error fault t ∧ t.store = s.store := by
  cases hs : s.inTransaction with
  | true =>
    rw [enter_inside hs] at h
    exact ⟨u, (run_transaction_inside hs).trans h, hstore⟩
  | false =>
    have hclosings := hframe.closings.trans Session.closings_enter
    refine ⟨u.giveUp.settled, ?_, ?_⟩
    · rw [run_transaction_outside hs (after_of_error h ▸ hframe.saved)
        (after_of_error h ▸ hclosings), h]
    · rw [Session.store_settled, Session.store_giveUp,
        committed_congr hframe.saved Session.inTransaction_enter, committed_enter hs]

theorem run_reconcile_unclocked (hnow : s.now.stamp? = none) (keys : List String) :
    ∃ t, (reconcile (keys.map .text)).run s = .error .dateRange t ∧ t.store = s.store := by
  obtain ⟨u, hstore, hframe, hcompleting⟩ := run_completing_texts keys s.enter
  have hclock : u.stamp = .error .dateRange := by
    rw [hframe.stamp, Session.stamp_enter, Session.stamp, hnow]
  have hunseen : completeUnseen.run u = .error .dateRange u := by
    simp only [completeUnseen, EStateM.run_bind, EStateM.run_get, run_liftExcept, hclock]
  obtain ⟨t, hrun, ht⟩ := run_transaction_traceless (hcompleting.trans hunseen) hframe
    (hstore.trans Session.store_enter)
  have hhashable : (liftExcept (checkHashable (keys.map .text)) : JournalM Unit).run s = .ok () s :=
    run_liftExcept_ok.mpr ⟨checkHashable_texts keys, rfl⟩
  exact ⟨t, run_bind_error.mpr (.inr ⟨(), s, hhashable, run_bind_error.mpr (.inl hrun)⟩), ht⟩

/-- In every session, whatever its tables hold and an earlier reconciliation left over, the records
that a reconciliation completes and counts are the active ones whose source key is none of its
keys. Once more it finds nothing, and with another one behind it the two do together what one with
the keys that they share does. -/
theorem reconcile_completes_missing (s : Session) (keys : List String) :
    (∀ now, s.now.stamp? = some now → ∃ t,
      (reconcile (keys.map .text)).run s = .ok (s.store.missingFrom keys) t ∧
      t.store = s.store.completedBut keys now ∧ s.SameFrame t ∧
      ∀ u, u.store = t.store → u.now.stamp?.isSome →
        (∃ v, (reconcile (keys.map .text)).run u = .ok 0 v ∧ v.store = u.store) ∧
        ∀ others : List String, ∃ count v,
          (reconcile (others.map .text)).run u = .ok count v ∧
          ∀ (common : List String) (w : Session),
            (∀ key, key ∈ common ↔ key ∈ keys ∧ key ∈ others) →
            w.store = s.store → w.now.stamp?.isSome →
            ∃ x, (reconcile (common.map .text)).run w =
                .ok (s.store.missingFrom keys + count) x ∧
              x.store.actives = v.store.actives) ∧
    (s.now.stamp? = none →
      ∃ t, (reconcile (keys.map .text)).run s = .error .dateRange t ∧ t.store = s.store) := by
  refine ⟨fun now hnow => ?_, fun hnow => run_reconcile_unclocked hnow keys⟩
  obtain ⟨t, hrun, hstore, hframe⟩ := run_reconcile hnow keys
  refine ⟨t, hrun, hstore, hframe, fun u hu hclock => ?_⟩
  obtain ⟨later, hlater⟩ := Option.isSome_iff_exists.mp hclock
  have htables : u.store = s.store.completedBut keys now := hu.trans hstore
  constructor
  · obtain ⟨v, hagain, hv, -⟩ := run_reconcile hlater keys
    have hnone : u.store.missingFrom keys = 0 := by
      rw [htables, Store.missingFrom_completedBut_self]
    exact ⟨v, hnone ▸ hagain, hv.trans (Store.completedBut_of_missingFrom_eq_zero hnone later)⟩
  · intro others
    obtain ⟨v, hother, hv, -⟩ := run_reconcile hlater others
    refine ⟨_, v, hother, fun common w hcommon hw hclock' => ?_⟩
    obtain ⟨once, honce⟩ := Option.isSome_iff_exists.mp hclock'
    obtain ⟨x, hshared, hx, -⟩ := run_reconcile honce common
    refine ⟨x, ?_, ?_⟩
    · rw [hshared, hw, htables, Store.missingFrom_common hcommon s.store now]
    · rw [hx, hv, hw, htables, Store.actives_completedBut_completedBut hcommon _ _ _ once]

-- ---------------------------------------------------------------------------
-- Keys that are left over
-- ---------------------------------------------------------------------------

def goneKey : String := fingerprintOf "TODO" "main.c" "gone"
def keptKey : String := fingerprintOf "NOTE" "main.c" "kept"

/-- A session in whose open transaction a reconciliation failed behind its first key. -/
def interruptedJournal : Session :=
  after (reconcile [.text keptKey, .int (2 ^ 64)]) usedJournal.enter

theorem reconcile_completes_missing_interrupted :
    interruptedJournal.keys = [some keptKey] ∧
      ∃ t, (reconcile [.text goneKey]).run interruptedJournal = .ok 1 t ∧
        (∃ v, (reconcile [.text goneKey]).run t = .ok 0 v ∧ v.store = t.store) ∧
        ∃ count v x, (reconcile [.text keptKey]).run t = .ok count v ∧
          (reconcile []).run interruptedJournal = .ok (1 + count) x ∧
          x.store.actives = v.store.actives := by
  have hclock : interruptedJournal.now.stamp? = some "2024-05-06T12:00:00.000+00:00" := by
    decide +kernel
  have hcount : interruptedJournal.store.missingFrom [goneKey] = 1 := by decide +kernel
  have hdisjoint : goneKey ≠ keptKey := by decide +kernel
  refine ⟨by decide +kernel, ?_⟩
  obtain ⟨t, hrun, -, hframe, hbehind⟩ :=
    (reconcile_completes_missing interruptedJournal [goneKey]).1 _ hclock
  obtain ⟨hagain, hothers⟩ := hbehind t rfl (by simp [hframe.now, hclock])
  obtain ⟨count, v, hother, hshared⟩ := hothers [keptKey]
  obtain ⟨x, honce, hactives⟩ := hshared [] interruptedJournal
    (by simp [hdisjoint]) rfl (by simp [hclock])
  rw [hcount] at hrun honce
  exact ⟨t, hrun, hagain, count, v, x, hother, honce, hactives⟩

end Marginalia.Journal
