import Marginalia.Proofs.Files.Refusals
import Marginalia.Proofs.Journal.Opening
import Marginalia.Proofs.Journal.Ready

/-!
# What stops work on a journal

Any journal, whoever wrote it. Besides the faults of the program itself, work on it is stopped by
records that cannot be handed out, by numbers that have no room in the tables or are used up, by
values that are no parameters of a statement, and by a clock out of range. A scan takes observations
in one by one; the induction carries that what is wrong with the tables then was wrong with them
before, since the journal writes nothing that it cannot read.
-/

namespace Marginalia.Journal

open Store (refresh)

/-- All numbers in the tables have 64 bits. -/
structure Store.Fits (store : Store) : Prop where
  records : ∀ r ∈ store.records, fits r.id = true
  counter : store.lastNumber ≤ greatestInt

/-- What is wrong with tables, as the fault shows it. -/
inductive Store.Bars (store : Store) : Fault → Prop
  /-- The times of a record cannot be read. -/
  | unreadable {r : Record} {fault : Fault} (hr : r ∈ store.records) (h : r.entry = .error fault) :
      Bars store fault
  | unfit (h : ¬store.Fits) : Bars store .storedRange

variable {s t : Session} {store store' : Store} {o : Observation} {items : List Observation}
variable {r r' : Record} {P : Fault → Prop}

-- ---------------------------------------------------------------------------
-- Tables
-- ---------------------------------------------------------------------------

/-- A change of records that leaves their times as they are, or takes the later one away. -/
structure Store.KeepsTimes (f : Record → Record) : Prop where
  createdAt : ∀ r, (f r).createdAt = r.createdAt
  completedAt : ∀ r, (f r).completedAt = none ∨ (f r).completedAt = r.completedAt

/-- Only the times of a record can make it unreadable. -/
theorem Store.KeepsTimes.entry_error {f : Record → Record} (hf : KeepsTimes f)
    (h : (f r).entry = .error fault) : r.entry = .error fault := by
  rw [entry_eq, hf.createdAt] at h
  rw [entry_eq]
  cases hstamp : readStamp (.text r.createdAt) with
  | error fault' =>
    rw [hstamp] at h
    exact h
  | ok createdAt =>
    rw [hstamp] at h
    rcases hf.completedAt r with hnone | hsame
    · rw [hnone] at h
      cases h
    · rw [hsame] at h
      cases hread : readCompletion (.ofOption r.completedAt) with
      | error fault' =>
        rw [hread] at h
        exact h
      | ok completedAt =>
        rw [hread] at h
        cases h

theorem keepsTimes_refresh (title : String) (o : Observation) :
    Store.KeepsTimes (refresh title o) := by
  constructor
  · intro r
    by_cases h : r.status = .completed <;> simp [refresh, h]
  · intro r
    by_cases h : r.status = .completed <;> simp [refresh, h]

theorem entry_begun (hstamp : IsStamp stamp) (n : Int) (type title : String) (o : Observation) :
    (Record.begun n type stamp title o).entry ≠ .error fault := by
  generalize hr : Record.begun n type stamp title o = r
  have hcreated : ∃ moment, readStamp (.text r.createdAt) = .ok moment :=
    hr ▸ (readStamp_ok hstamp).imp fun _ h => h.1
  have hcompleted : ∃ moment, readCompletion (.ofOption r.completedAt) = .ok moment :=
    hr ▸ ⟨none, rfl⟩
  obtain ⟨e, he⟩ := entry_ok.mpr ⟨hcreated, hcompleted⟩
  rw [he]
  exact nofun

theorem lastNumber_update (hf : Store.KeepsKeys f) (n : Int) :
    (store.update n f).lastNumber = store.lastNumber :=
  Store.lastNumber_map (Store.KeepsKeys.ite (p := fun r => (r.id == n) = true) hf)

theorem Store.Fits.update (h : store.Fits) (hf : KeepsKeys f) (n : Int) :
    (store.update n f).Fits := by
  refine ⟨List.forall_mem_map.mpr fun r hr => ?_, by rw [lastNumber_update hf]; exact h.counter⟩
  split
  · rw [hf.id]
    exact h.records r hr
  · exact h.records r hr

/-- A number that is handed out has 64 bits when all before it have. -/
theorem Store.Fits.append (h : store.Fits) (hroom : store.lastNumber ≠ greatestInt)
    (hid : r.id = store.lastNumber + 1) :
    Fits { store with records := store.records ++ [r], counter := store.lastNumber + 1 } := by
  have hlast := h.counter
  have hnext : fits r.id = true := by
    rw [hid]
    exact fits_next.mpr (by omega)
  refine ⟨List.forall_mem_append.mpr ⟨h.records, List.forall_mem_singleton.mpr hnext⟩, ?_⟩
  rw [lastNumber_append store hid]
  omega

theorem Store.Bars.of_update {f : Record → Record} {n : Int} (h : (store.update n f).Bars fault)
    (hkeys : KeepsKeys f) (htimes : KeepsTimes f) : store.Bars fault := by
  cases h with
  | unreadable hr herror =>
    obtain ⟨r, hmem, rfl⟩ := List.mem_map.mp hr
    split at herror
    · exact .unreadable hmem (htimes.entry_error herror)
    · exact .unreadable hmem herror
  | unfit hfits => exact .unfit fun hall => hfits (hall.update hkeys n)

/-- Taking an observation in leaves nothing wrong with the tables that was not wrong before. -/
theorem Store.Bars.of_upsert (hnow : ∀ stamp, now = .ok stamp → IsStamp stamp)
    (h : store.upsert now type o = .ok (done, store')) (hbars : store'.Bars fault) :
    store.Bars fault := by
  obtain ⟨title, -, ⟨r, -, -, rfl⟩ | ⟨stamp, -, hstamp, hroom, -, rfl⟩⟩ := Store.upsert_ok h
  · exact hbars.of_update keepsKeys_refresh (keepsTimes_refresh title o)
  · cases hbars with
    | unreadable hr herror =>
      rcases List.mem_append.mp hr with hr | hr
      · exact .unreadable hr herror
      · obtain rfl := List.mem_singleton.mp hr
        exact absurd herror (entry_begun (hnow stamp hstamp) _ _ _ _)
    | unfit hfits => exact .unfit fun hall => hfits (hall.append hroom rfl)

theorem Store.Bars.of_cancel (h : store.cancel value = .ok (n, store'))
    (hbars : store'.Bars fault) : store.Bars fault := by
  obtain ⟨r, -, -, -, rfl⟩ := cancel_ok h
  exact hbars.of_update ⟨fun _ => rfl, fun _ => rfl⟩ ⟨fun _ => rfl, fun _ => .inr rfl⟩

theorem lastNumber_upsert (h : store.upsert now type o = .ok (done, store')) :
    store'.lastNumber ≤ store.lastNumber + 1 := by
  obtain ⟨title, -, ⟨r, -, -, rfl⟩ | ⟨stamp, -, -, -, -, rfl⟩⟩ := Store.upsert_ok h
  · rw [lastNumber_update Store.keepsKeys_refresh]
    omega
  · exact (Store.lastNumber_append store rfl).le

/-- An observation with a message is refused without a time or without a number for it. -/
theorem upsert_error (htitle : o.title? = some title)
    (h : store.upsert now type o = .error fault) :
    now = .error fault ∨ store.lastNumber = greatestInt ∧ fault = .full := by
  cases hkey : store.ofKey? o.fingerprint with
  | some r =>
    obtain ⟨kind, hupsert⟩ := Store.upsert_shown htitle now type hkey
    rw [hupsert] at h
    cases h
  | none =>
    cases now with
    | error fault' =>
      simp only [Store.upsert, hkey] at h
      cases h
      exact .inl rfl
    | ok stamp =>
      by_cases hroom : store.lastNumber = greatestInt
      · have hmessage : (Cell.ofData 2 o.message >>= Store.titleOf) = .ok title :=
          title_ok.mpr htitle
        obtain ⟨cell, hcell, -⟩ := bind_ok.mp hmessage
        simp only [Store.upsert, hkey, hcell, Store.nextId_eq, if_pos hroom] at h
        cases h
        exact .inr ⟨hroom, rfl⟩
      · rw [Store.upsert_begun htitle type stamp hkey hroom] at h
        cases h

-- ---------------------------------------------------------------------------
-- Values
-- ---------------------------------------------------------------------------

/-- A number that a command line gives, or a double dash in its place. -/
def IsNumber (value : Data) : Prop := value = .list [] ∨ ∃ n, value = .int n

/-- A number that no table holds, or none, as the fault shows it. -/
inductive Unstorable : Data → Fault → Prop
  | range (h : fits n = false) : Unstorable (.int n) .storedRange
  | missing (index : Nat) : Unstorable (.list []) (.parameter index "list")

theorem IsNumber.cell_error (h : IsNumber value) (herror : Cell.ofData index value = .error fault) :
    Unstorable value fault := by
  rcases h with rfl | ⟨n, rfl⟩
  · cases herror
    exact .missing index
  · cases hfits : fits n with
    | true => simp [Cell.ofData, hfits] at herror
    | false =>
      obtain rfl : Fault.storedRange = fault := by simpa [Cell.ofData, hfits] using herror
      exact .range hfits

/-- A number that a table holds is the bound of a page. -/
theorem IsNumber.bound (h : IsNumber value) (hcell : Cell.ofData index value = .ok cell) :
    ∃ n, Store.pageBound cell = .ok n := by
  rcases h with rfl | ⟨n, rfl⟩
  · cases hcell
  · have hfits := fits_of_cell hcell
    obtain rfl : Cell.int n = cell := by simpa [Cell.ofData, hfits] using hcell
    exact ⟨n, rfl⟩

-- ---------------------------------------------------------------------------
-- Statements
-- ---------------------------------------------------------------------------

/-- No fault is left on the connection that could show in the place of another one. -/
def Session.Clean (s : Session) : Prop := s.connected.residue = none

theorem clean_settled (s : Session) : s.settled.Clean := rfl

theorem residue_prepare {connection : Connection} (h : connection.residue = none)
    (statement : Statement) : (connection.prepare statement).residue = none := by
  unfold Connection.prepare
  split
  · exact h
  · rfl

theorem stopsBy_parameter (hclean : s.Clean) (statement : Statement)
    (h : ∀ fault, Cell.ofData 1 value = .error fault → P fault) :
    StopsBy P (parameter statement value) s := by
  intro fault t hrun
  have hresidue := residue_prepare hclean statement
  cases hcell : Cell.ofData 1 value with
  | ok cell => simp [EStateM.run, parameter, Connection.take, hcell] at hrun
  | error fault' =>
    obtain ⟨rfl, -⟩ : fault' = fault ∧ _ = t := by
      simpa [EStateM.run, parameter, Connection.take, hcell, hresidue] using hrun
    exact h fault' hcell

theorem stopsBy_change {statement : Store → Except Fault (α × Store)}
    (h : ∀ fault, statement s.store = .error fault → P fault) :
    StopsBy P (change statement) s := fun _ _ hrun => h _ (run_change_error hrun).1

theorem stopsBy_query {statement : Store → Except Fault α}
    (h : ∀ fault, statement s.store = .error fault → P fault) : StopsBy P (query statement) s := by
  refine stopsBy_change fun fault hfault => h fault ?_
  cases hstatement : statement s.store with
  | ok a => simp [hstatement, Except.map] at hfault
  | error fault' =>
    rw [hstatement] at hfault
    cases hfault
    rfl

/-- A record that is there is found if its number has 64 bits. -/
theorem stopsBy_recordOf (hclean : s.Clean) (h : fits n = false → P .storedRange) :
    StopsBy (OwnOr P) (recordOf n) s := by
  refine stopsBy_bind (stopsBy_parameter hclean .record fun fault hcell => ?_) fun _ t _ => ?_
  · cases hfits : fits n with
    | true => simp [Cell.ofData, hfits] at hcell
    | false =>
      obtain rfl : Fault.storedRange = fault := by simpa [Cell.ofData, hfits] using hcell
      exact .inr (h hfits)
  · refine stopsBy_get_bind ?_
    split
    · exact stopsBy_pure _
    · exact stopsBy_throw (.inl rfl)

-- ---------------------------------------------------------------------------
-- Scans
-- ---------------------------------------------------------------------------

/-- What is in the way of a scan that may take in so many observations. -/
inductive Hinders (store : Store) (now : Time.Moment) (n : Nat) : Fault → Prop
  | tables (h : store.Bars fault) : Hinders store now n fault
  | clock (h : now.stamp? = none) : Hinders store now n .dateRange
  | numbers (h : greatestInt < store.lastNumber + n) : Hinders store now n .full

theorem stamp_error (h : s.stamp = .error fault) :
    s.now.stamp? = none ∧ fault = .dateRange := by
  unfold Session.stamp at h
  split at h
  · cases h
  · cases h
    exact ⟨‹_›, rfl⟩

/-- What is in the way behind an observation that was taken in was in the way before it. -/
theorem Hinders.before (hnow : t.now = s.now)
    (h : s.store.upsert s.stamp type o = .ok (done, t.store))
    (hfault : Hinders t.store t.now n fault) : Hinders s.store s.now (n + 1) fault := by
  cases hfault with
  | tables hbars => exact .tables (Store.Bars.of_upsert (fun _ => isStamp_of_stamp) h hbars)
  | clock hclock => exact .clock (hnow ▸ hclock)
  | numbers hnumbers =>
    have hlast := lastNumber_upsert h
    exact .numbers (by push_cast; omega)

theorem Store.Fits.upsert (h : store.Fits)
    (hupsert : store.upsert now type o = .ok (done, store')) : fits done.1 = true := by
  obtain ⟨title, -, ⟨r, hr, hdone, -⟩ | ⟨stamp, -, -, hroom, hdone, -⟩⟩ := upsert_ok hupsert
  · rw [hdone]
    exact h.records r (List.mem_of_find?_eq_some hr)
  · have hlast := h.counter
    rw [hdone]
    exact fits_next.mpr (by omega)

theorem stopsBy_upsertTagged (htitle : o.title? = some title) (type : String) (n : Nat) :
    StopsBy (OwnOr (Hinders s.store s.now (n + 1))) (upsertTagged type o) s := by
  rw [upsertTagged_eq]
  refine stopsBy_transaction (moving_upsertSteps type o) (stopsBy_get_bind ?_)
  rw [Session.stamp_enter]
  refine stopsBy_bind (stopsBy_change fun fault hfault => ?_) fun done t hchange => ?_
  · rw [Session.store_enter] at hfault
    rcases upsert_error htitle hfault with hstamp | ⟨hlast, rfl⟩
    · obtain ⟨hclock, rfl⟩ := stamp_error hstamp
      exact .inr (.clock hclock)
    · exact .inr (.numbers (by rw [hlast]; push_cast; omega))
  · obtain ⟨store, hupsert, rfl⟩ := run_change_ok.mp hchange
    rw [Session.store_enter] at hupsert
    have hrecord {u : Session} (hclean : u.Clean) :
        StopsBy (OwnOr (Hinders s.store s.now (n + 1))) (recordOf done.1) u := by
      refine stopsBy_recordOf hclean fun hfits => .tables (.unfit fun hall => ?_)
      rw [hall.upsert hupsert] at hfits
      cases hfits
    dsimp only
    split
    · exact stopsBy_bind (stopsBy_of_ok rfl) fun _ u hu => by
        rw [run_report] at hu
        cases hu
        exact hrecord rfl
    · exact hrecord rfl

theorem stopsBy_upsert (htype : o.type? = some type) (htitle : o.title?.isSome) (n : Nat) :
    StopsBy (OwnOr (Hinders s.store s.now (n + 1))) (upsert o) s := by
  obtain ⟨title, htitle⟩ := Option.isSome_iff_exists.mp htitle
  refine stopsBy_bind (stopsBy_of_ok (run_liftExcept_ok.mpr ⟨type_ok.mpr htype, rfl⟩))
    fun type' t ht => ?_
  obtain ⟨-, rfl⟩ := run_liftExcept_ok.mp ht
  refine stopsBy_get_bind ?_
  split
  · refine stopsBy_bind (stopsBy_upsertTagged htitle type' n) fun r u hu => ?_
    obtain ⟨done, hupsert, hr, -⟩ := upsertTagged_ok hu
    refine stopsBy_liftExcept fun fault hfault => .inr (.tables ?_)
    have hmem : r ∈ u.store.records := List.mem_of_find?_eq_some hr
    refine Store.Bars.of_upsert (fun _ => isStamp_of_stamp) hupsert (.unreadable hmem ?_)
    cases hentry : r.entry with
    | ok e => simp [hentry, Except.map] at hfault
    | error fault' =>
      rw [hentry] at hfault
      cases hfault
      rfl
  · exact stopsBy_bind (stopsBy_of_ok rfl) fun _ _ _ => stopsBy_pure _

theorem Hinders.more (h : Hinders store now n fault) : Hinders store now (n + 1) fault := by
  cases h with
  | tables hbars => exact .tables hbars
  | clock hclock => exact .clock hclock
  | numbers hnumbers => exact .numbers (by push_cast; omega)

theorem stopsBy_upsertAll (hitems : ∀ o ∈ items, o.type?.isSome ∧ o.title?.isSome)
    (counts : SyncCounts) :
    StopsBy (OwnOr (Hinders s.store s.now items.length)) (upsertAll items counts) s := by
  induction items generalizing s counts with
  | nil => exact stopsBy_pure _
  | cons o rest ih =>
    obtain ⟨⟨htype, htitle⟩, hrest⟩ := List.forall_mem_cons.mp hitems
    obtain ⟨type, htype⟩ := Option.isSome_iff_exists.mp htype
    refine stopsBy_bind (stopsBy_of_ok (run_liftExcept_ok.mpr ⟨type_ok.mpr htype, rfl⟩))
      fun type' t ht => ?_
    obtain ⟨-, rfl⟩ := run_liftExcept_ok.mp ht
    refine stopsBy_get_bind ?_
    split
    · refine stopsBy_bind (stopsBy_upsert htype htitle rest.length) fun e u hu => ?_
      obtain ⟨_, -, -, hnow, hstore⟩ := upsert_run_ok hu
      -- What hinders the rest hindered the whole, which has one observation more.
      refine (ih hrest _).mono fun fault hfault => hfault.imp id fun hfault => ?_
      split at hstore
      · obtain ⟨done, r, handed⟩ := hstore
        exact hfault.before hnow handed.stored
      · rw [hstore, hnow] at hfault
        exact hfault.more
    · exact (ih hrest _).mono fun fault hfault => hfault.imp id fun hfault => hfault.more

theorem now_upsertAll (h : (upsertAll items counts).run s = .ok counts' t) : t.now = s.now := by
  induction items generalizing s counts with
  | nil =>
    cases h
    rfl
  | cons o rest ih =>
    simp only [upsertAll, run_bind_ok, run_liftExcept_ok, EStateM.run_get] at h
    obtain ⟨type, _, ⟨-, rfl⟩, _, _, hget, h⟩ := h
    cases hget
    split at h
    · obtain ⟨_, u, hu, h⟩ := run_bind_ok.mp h
      obtain ⟨_, -, -, hnow, -⟩ := upsert_run_ok hu
      exact (ih h).trans hnow
    · exact ih h

theorem stopsBy_completeUnseen :
    StopsBy (fun fault => s.stamp = .error fault) completeUnseen s := by
  refine stopsBy_get_bind (stopsBy_bind (stopsBy_liftExcept fun fault hfault => hfault) ?_)
  exact fun _ _ _ => stopsBy_bind (stopsBy_of_ok rfl) fun _ _ _ => stopsBy_pure _

/-- Completing records needs nothing but the clock. -/
theorem stopsBy_completing (items : List Observation) :
    StopsBy (fun fault => s.stamp = .error fault) (completing (keysOf items)) s := by
  obtain ⟨u, -, hu, hrun⟩ := run_completing_texts (items.map (·.fingerprint)) s
  rw [keysOf_eq]
  intro fault t h
  exact hu.stamp.symm.trans (stopsBy_completeUnseen (hrun.symm.trans h))

theorem stopsBy_finishScan (items : List Observation) (counts : SyncCounts) :
    StopsBy (fun fault => s.stamp = .error fault) (finishScan items counts) s := by
  have hreconcile (u : Session) : StopsBy (fun fault => u.stamp = .error fault)
      (reconcile (keysOf items)) u := by
    have hhashable : checkHashable (keysOf items) = .ok () := by
      rw [keysOf_eq]
      exact checkHashable_texts _
    refine stopsBy_bind (stopsBy_of_ok (run_liftExcept_ok.mpr ⟨hhashable, rfl⟩)) fun _ v hv => ?_
    obtain ⟨-, rfl⟩ := run_liftExcept_ok.mp hv
    refine stopsBy_bind (stopsBy_transaction (moving_completing _) ?_) fun _ _ _ =>
      stopsBy_bind (stopsBy_of_ok rfl) fun _ _ _ => stopsBy_pure _
    exact (stopsBy_completing items).mono fun fault hfault => Session.stamp_enter.symm.trans hfault
  unfold finishScan
  split
  · refine stopsBy_bind (stopsBy_of_ok rfl) fun _ u hu => ?_
    rw [run_report] at hu
    cases hu
    exact stopsBy_bind (hreconcile (s.report .debug _)) fun _ _ _ => stopsBy_pure _
  · exact stopsBy_bind (hreconcile s) fun _ _ _ => stopsBy_pure _

/-- What stops a scan whose observations say what they are. -/
theorem stopsBy_sync (hitems : ∀ o ∈ items, o.type?.isSome ∧ o.title?.isSome) :
    StopsBy (OwnOr (Hinders s.store s.now items.length)) (sync items) s := by
  rw [sync_eq]
  refine stopsBy_transaction (moving_scan items) (stopsBy_bind ?_ fun counts t ht => ?_)
  · refine (stopsBy_upsertAll hitems _).mono fun fault hfault => ?_
    rwa [Session.store_enter, Session.now_enter] at hfault
  · have hnow : t.now = s.now := (now_upsertAll ht).trans Session.now_enter
    refine (stopsBy_finishScan items counts).mono fun fault hfault => .inr ?_
    obtain ⟨hclock, rfl⟩ := stamp_error hfault
    exact .clock (hnow ▸ hclock)

-- ---------------------------------------------------------------------------
-- Cancelling and listing
-- ---------------------------------------------------------------------------

theorem lookUp_error (h : store.lookUp value = .error fault) :
    Cell.ofData 1 value = .error fault := by
  cases hcell : Cell.ofData 1 value with
  | ok cell => simp [Store.lookUp, hcell, bind, Except.bind] at h
  | error fault' =>
    rw [Store.lookUp, hcell] at h
    cases h
    rfl

/-- A record whose number is given can be missing, or cancelled before. -/
theorem cancel_error (h : store.cancel value = .error fault) :
    fault.faultClass.isOwn = true ∨ Cell.ofData 1 value = .error fault := by
  cases hfound : store.lookUp value with
  | error fault' =>
    rw [Store.cancel, hfound] at h
    cases h
    exact .inr (lookUp_error hfound)
  | ok found =>
    rw [Store.cancel, hfound] at h
    cases found with
    | none =>
      cases h
      exact .inl rfl
    | some r =>
      by_cases hstatus : r.status = .cancelled
      · obtain rfl : Fault.alreadyCancelled value = fault := by
          simpa [hstatus, bind, Except.bind] using h
        exact .inl rfl
      · simp [hstatus, bind, Except.bind] at h

/-- What stops a cancellation, and what an entry that is handed out is of. -/
theorem stopsBy_cancel (hclean : s.Clean) (n : Int) :
    StopsBy (OwnOr fun fault => s.store.Bars fault ∨ Unstorable (.int n) fault)
      (cancel (.int n)) s := by
  have hnumber : IsNumber (.int n) := .inr ⟨n, rfl⟩
  have hclean' : s.enter.Clean := by
    unfold Session.enter
    split
    · exact hclean
    · exact clean_settled s
  have hsteps : StopsBy (OwnOr fun fault => s.store.Bars fault ∨
      Unstorable (.int n) fault) (cancelSteps (.int n)) s.enter := by
    refine stopsBy_bind (stopsBy_parameter hclean' .status fun fault hcell =>
        .inr (.inr (hnumber.cell_error hcell)))
      fun _ t ht => ?_
    obtain ⟨cell, hcell⟩ := cell_of_run_parameter ht
    have hfits := fits_of_cell hcell
    obtain ⟨connection, rfl⟩ := run_parameter_ok ht
    refine stopsBy_bind (stopsBy_change fun fault hfault => ?_) fun k u hu => ?_
    · exact (cancel_error hfault).imp id fun hcell => .inr (hnumber.cell_error hcell)
    · obtain ⟨store, hcancel, rfl⟩ := run_change_ok.mp hu
      obtain ⟨r, hr, -, rfl, -⟩ := Store.cancel_ok hcancel
      -- The record was found by the number, so the number has 64 bits.
      refine stopsBy_recordOf (clean_settled _) fun hunfit => ?_
      rw [lookUp_int hfits] at hr
      obtain rfl : r.id = n := by simpa using List.find?_some (Except.ok.inj hr)
      rw [hfits] at hunfit
      cases hunfit
  refine stopsBy_bind (stopsBy_transaction (moving_cancelSteps _) hsteps) fun r t ht => ?_
  refine stopsBy_liftExcept fun fault hfault => .inr (.inl ?_)
  obtain ⟨u, hu, rfl⟩ := run_transaction_ok ht
  obtain ⟨_, v, hparameter, hu⟩ := run_bind_ok.mp hu
  obtain ⟨connection, rfl⟩ := run_parameter_ok hparameter
  obtain ⟨k, w, hchange, hrecord⟩ := run_bind_ok.mp hu
  obtain ⟨store, hcancel, rfl⟩ := run_change_ok.mp hchange
  obtain ⟨hr, -⟩ := recordOf_ok hrecord
  rw [Session.store_enter] at hcancel
  exact .of_cancel hcancel (.unreadable (List.mem_of_find?_eq_some hr) hfault)

/-- An entry that was made from a record. -/
def Entry.IsRead (entry : Entry) : Prop := ∃ r : Record, r.entry = .ok entry

/-- Such an entry can be shown: its number is a whole one, and its type is a text. -/
theorem Entry.IsRead.line {entry : Entry} (h : entry.IsRead) : ∃ text, entry.line = .ok text := by
  obtain ⟨r, hr⟩ := h
  rw [entry_eq] at hr
  obtain ⟨createdAt, -, hr⟩ := bind_ok.mp hr
  obtain ⟨completedAt, -, hr⟩ := bind_ok.mp hr
  cases hr
  exact ⟨_, rfl⟩

theorem isRead_cancel (h : (cancel value).run s = .ok entry t) : entry.IsRead := by
  obtain ⟨r, _, -, hr⟩ := run_bind_ok.mp h
  exact ⟨r, (run_liftExcept_ok.mp hr).1⟩

theorem isRead_list {limit offset type : Data}
    (h : (list limit offset status type).run s = .ok entries t) :
    ∀ entry ∈ entries, entry.IsRead := by
  have hquery {type' : Option String} {u : Session}
      (h : (query (fun store => store.list limit offset status type') >>= fun records =>
        liftExcept (records.mapM Record.entry)).run u = .ok entries t) :
      ∀ entry ∈ entries, entry.IsRead := by
    obtain ⟨records, _, -, h⟩ := run_bind_ok.mp h
    intro entry hentry
    obtain ⟨r, -, hr⟩ := mapM_ok (run_liftExcept_ok.mp h).1 entry hentry
    exact ⟨r, hr⟩
  obtain ⟨type', _, -, h⟩ := run_bind_ok.mp h
  split at h
  · obtain ⟨_, _, -, h⟩ := run_bind_ok.mp h
    exact hquery h
  · exact hquery h

theorem list_error {limit offset : Data} (hlimit : IsNumber limit) (hoffset : IsNumber offset)
    (h : store.list limit offset status type = .error fault) :
    Unstorable limit fault ∨ Unstorable offset fault := by
  unfold Store.list at h
  dsimp only at h
  generalize type.toList.length + status.toList.length = filters at h
  cases hfirst : Cell.ofData (filters + 1) limit with
  | error fault' =>
    rw [hfirst] at h
    cases h
    exact .inl (hlimit.cell_error hfirst)
  | ok first =>
    obtain ⟨bound, hbound⟩ := hlimit.bound hfirst
    cases hsecond : Cell.ofData (filters + 2) offset with
    | error fault' =>
      rw [hfirst, hsecond] at h
      cases h
      exact .inr (hoffset.cell_error hsecond)
    | ok second =>
      obtain ⟨start, hstart⟩ := hoffset.bound hsecond
      simp only [hfirst, hsecond, hbound, hstart, bind, Except.bind] at h
      split at h <;> cases h

theorem mem_of_list {limit offset : Data} (h : store.list limit offset status type = .ok records)
    (hr : r ∈ records) : r ∈ store.records := by
  simp only [Store.list, bind_ok] at h
  obtain ⟨first, -, second, -, bound, -, h⟩ := h
  split at h
  · cases h
    cases hr
  · obtain ⟨start, -, h⟩ := bind_ok.mp h
    cases h
    have hlisting : r ∈ store.listing status type := by
      unfold Store.page at hr
      split at hr
      · exact List.mem_of_mem_drop hr
      · exact List.mem_of_mem_drop (List.mem_of_mem_take hr)
    exact (List.mem_filter.mp (List.mem_mergeSort.mp hlisting)).1

/-- A text that a command line may give: none, a double dash in its place, or the text. -/
def IsWord (value : Data) : Prop := value = .null ∨ value = .list [] ∨ ∃ s, value = .text s

/-- What stops a listing besides what is wrong with the tables. -/
inductive Unlisted (limit offset type : Data) : Fault → Prop
  | limit (h : Unstorable limit fault) : Unlisted limit offset type fault
  | offset (h : Unstorable offset fault) : Unlisted limit offset type fault
  | type (h : type = .list []) : Unlisted limit offset type (.noMember "list" "upper")

theorem stopsBy_list (hclean : s.Clean) {limit offset type : Data} (hlimit : IsNumber limit)
    (hoffset : IsNumber offset) (htype : IsWord type) (status : Option Status) :
    StopsBy (fun fault => s.store.Bars fault ∨ Unlisted limit offset type fault)
      (list limit offset status type) s := by
  refine stopsBy_bind (stopsBy_liftExcept fun fault hfault => ?_) fun type' t ht => ?_
  · rcases htype with rfl | rfl | ⟨text, rfl⟩ <;> cases hfault
    exact .inr (.type rfl)
  · obtain ⟨-, rfl⟩ := run_liftExcept_ok.mp ht
    have hquery (u : Session) (hu : u.store = s.store) :
        StopsBy (fun fault => s.store.Bars fault ∨ Unlisted limit offset type fault)
          (query (fun store => store.list limit offset status type') >>= fun records =>
            liftExcept (records.mapM Record.entry)) u := by
      refine stopsBy_bind (stopsBy_query fun fault hfault => ?_) fun records v hv => ?_
      · exact .inr ((list_error hlimit hoffset hfault).elim .limit .offset)
      · refine stopsBy_liftExcept fun fault hfault => .inl ?_
        obtain ⟨r, hr, herror⟩ := mapM_error hfault
        obtain ⟨_, hstatement, -⟩ := run_change_ok.mp hv
        obtain ⟨listed, hlist, hsame⟩ := map_ok.mp hstatement
        obtain rfl : listed = records := congrArg Prod.fst hsame
        exact .unreadable (hu ▸ mem_of_list hlist hr) herror
    split
    · refine stopsBy_bind (stopsBy_parameter hclean .page fun fault hcell => ?_) fun _ u hu => ?_
      · exact .inr (.limit (hlimit.cell_error hcell))
      · obtain ⟨connection, rfl⟩ := run_parameter_ok hu
        exact hquery _ rfl
    · exact hquery _ rfl

theorem stopsBy_stats (s : Session) :
    StopsBy (fun fault => (s.now.daysBefore? week).map Time.Moment.millisText = none ∧
      fault = .dateRange) stats s := by
  refine stopsBy_bind (stopsBy_query nofun) fun store t ht => stopsBy_get_bind ?_
  obtain ⟨store', -, rfl⟩ := run_change_ok.mp ht
  split
  · exact stopsBy_pure _
  · exact stopsBy_throw ⟨‹_›, rfl⟩

-- ---------------------------------------------------------------------------
-- Opening
-- ---------------------------------------------------------------------------

section Opening

variable {path : Path} {place : Place} {files files' : Files} {handle : Handle}

/-- What stops the opening of a journal. -/
inductive Unopened (path : Path) (files : Files) : Fault → Prop
  | refused (h : Files.IsRefusal path.Near fault) : Unopened path files fault
  | unopenable : Unopened path files .noDatabaseFile
  /-- The file holds something else. -/
  | foreign (hnode : files.node? (path.placeFrom files.current) = some (.file number content))
      (h : tablesIn content = .error fault) : Unopened path files fault

theorem Prepares.extends (h : Prepares path files files') : files.Extends files' :=
  h.adds.extends h.start

theorem stopsBy_openFile (path : Path) (tags : List String) (files : Files) :
    StopsBy (OwnOr (Unopened path files)) (openFile path tags) files := by
  have hparent : Respects (Prepares path) (Files.ensureDirectory path.parent) :=
    Files.respects_ensureDirectory (fun _ _ _ => prepares_makeDirectory) _
  unfold openFile
  refine stopsBy_bind ((Files.refuses_ensureParent path files).mono fun _ h => .inr (.refused h))
    fun _ files₁ hmade => ?_
  have hprepares := (hparent files).ok hmade
  refine stopsBy_bind (stopsBy_liftExcept fun fault hfault => .inr (.refused ?_))
    fun _ _ hchecked => ?_
  · exact Files.isRefusal_of_checkPath (Path.near_self path) hfault
  obtain rfl : files₁ = _ := ((respects_liftExcept (S := Eq) _) _).ok hchecked
  refine stopsBy_get_bind ?_
  split
  · rename_i place hlocate
    have hplace : place = path.placeFrom files.current :=
      hprepares.start ▸ Files.locate_ok hlocate
    refine stopsBy_unless (fun _ => .inr .unopenable) fun _ => stopsBy_get_bind ?_
    refine stopsBy_when (Q := Prepares path files) (stopsBy_of_ok rfl) (fun hnone t ht => ?_)
      (fun _ => hprepares) fun files₂ hprepares => stopsBy_get_bind ?_
    · cases ht
      exact trans_of _ hprepares (prepares_make hlocate (by simpa using hnone))
    · split
      · rename_i number content hnode
        refine stopsBy_bind (stopsBy_liftExcept fun fault hfault => .inr ?_) fun tables t _ => ?_
        · -- A file that was made just now is empty, and can be read.
          rcases hprepares.extends.content hnode with hbefore | ⟨-, rfl⟩
          · exact .foreign (hplace ▸ hbefore) hfault
          · cases hfault
        · refine stopsBy_unless (fun _ => .inr .unopenable) fun _ => ?_
          refine stopsBy_bind (stopsBy_liftExcept fun fault hfault => .inl ?_) fun _ _ _ =>
            stopsBy_bind (stopsBy_of_ok rfl) fun _ _ _ => stopsBy_pure _
          rw [Store.opened_error hfault]
          rfl
      · exact stopsBy_throw (.inr .unopenable)
  · exact stopsBy_throw (.inr .unopenable)

theorem connection_openFile (h : (openFile path tags).run files = .ok handle files') :
    handle.connection = {} := by
  suffices Ends (fun handle _ => handle.connection = {}) (fun _ => True) (openFile path tags)
    files from this.ok h
  have hstep {α : Type} {m : FilesM α} {f : α → FilesM Handle} {files : Files}
      (hf : ∀ a files, Ends (fun handle _ => handle.connection = {}) (fun _ => True) (f a) files) :
      Ends (fun handle _ => handle.connection = {}) (fun _ => True) (m >>= f) files :=
    ends_bind ⟨fun _ => hf _ _, fun _ => trivial⟩
  unfold openFile
  refine hstep fun _ _ => hstep fun _ _ => ends_get_bind ?_
  split
  · refine ends_unless (fun _ => trivial) fun _ => ends_get_bind ?_
    refine ends_when (P := fun _ => True) (fun _ => ⟨fun _ => trivial, fun _ => trivial⟩)
      (fun _ => trivial) fun _ _ => ends_get_bind ?_
    split
    · refine hstep fun _ _ => ends_unless (fun _ => trivial) fun _ => ?_
      exact hstep fun _ _ => hstep fun _ _ => ends_pure rfl
    · exact ends_throw trivial
  · exact ends_throw trivial

/-- The tables in the file at a place, those of a new journal if it holds none. -/
def tablesAt (files : Files) (place : Place) : Store :=
  ((files.node? place).bind Node.content?).elim .fresh tablesOf

theorem tablesAt_of_extends (h : files.Extends files') (place : Place) :
    tablesAt files' place = tablesAt files place := by
  unfold tablesAt
  cases hbefore : files.node? place with
  | some node =>
    have hafter : files'.node? place = some node := h.adds.kept hbefore
    rw [hafter]
  | none =>
    cases hafter : files'.node? place with
    | none => rfl
    | some node =>
      cases node with
      | directory => rfl
      | file number content =>
        obtain rfl : content = .bytes [] := h.adds.bare hbefore hafter
        rfl

theorem Unopened.of_extends (h : files.Extends files') (hfault : Unopened path files' fault) :
    Unopened path files fault := by
  cases hfault with
  | refused h => exact .refused h
  | unopenable => exact .unopenable
  | foreign hnode hcontent =>
    rw [h.current] at hnode
    rcases h.content hnode with hbefore | ⟨-, rfl⟩
    · exact .foreign hbefore hcontent
    · cases hcontent

/-- A journal is opened on the tables in its file, but for the version. -/
theorem Opening.tables {handle : Handle} (h : Opening path files handle files') :
    handle.store =
      { tablesAt files (path.placeFrom files.current) with version := some layoutVersion } := by
  obtain ⟨files₁, content, tables, hprepares, hplace, hnode, htables, hopened, -⟩ := h
  have hsame : tablesOf content = tablesAt files (path.placeFrom files.current) := by
    rw [hplace] at hnode
    rcases hprepares.extends.content hnode with hbefore | ⟨hnone, rfl⟩
    · simp [tablesAt, hbefore, Node.content?]
    · simp [tablesAt, hnone, tablesOf]
  rw [Store.opened_ok hopened, tables_of_tablesIn htables, hsame]

theorem Opening.current {handle : Handle} (h : Opening path files handle files') :
    handle.current files' = .ok handle.store := by
  obtain ⟨files₁, content, tables, -, -, hnode, -, -, rfl⟩ := h
  have hwritten : (files₁.write handle.place (.journal handle.store tables.isSome)).node?
      handle.place = some (.file handle.number (.journal handle.store tables.isSome)) := by
    simp [Files.node?_write hnode]
  exact current_of_journal (content?_eq_some.mpr hwritten)

theorem Store.Bars.version {store : Store} {version : Option Int}
    (h : Bars { store with version } fault) : store.Bars fault := by
  cases h with
  | unreadable hr herror => exact .unreadable hr herror
  | unfit hfits => exact .unfit fun hall => hfits ⟨hall.records, hall.counter⟩

theorem Hinders.version {store : Store} {version : Option Int}
    (h : Hinders { store with version } now n fault) : Hinders store now n fault := by
  cases h with
  | tables hbars => exact .tables hbars.version
  | clock hclock => exact .clock hclock
  | numbers hnumbers => exact .numbers hnumbers

end Opening

end Marginalia.Journal
