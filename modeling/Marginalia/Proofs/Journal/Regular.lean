import Marginalia.Proofs.Journal.Effects
import Marginalia.Proofs.Time.Instant

/-!
# What every history keeps

All that is ever true of the tables of a new journal, whatever clients do with it. `Preserved` is
what an invariant has to stand: the writes of one step, a new version, and the clock going on. From
there it holds at every point of every history, of the stored tables with the observations that are
stored, and of those in use with all observations (`Preserved.history`).
-/

namespace Marginalia.Journal

open Store (Wrote)

/-- An invariant of tables, which may look at the clock and at the observations taken in. -/
structure Preserved (later : Time.Moment → Time.Moment → Prop)
    (P : Time.Moment → List Observation → Store → Prop) : Prop where
  own : P now items store → store.Own
  wrote : ∀ s : Session, P s.now items store → Wrote s.stamp items' store store' →
    P s.now (items ++ items') store'
  version : P now items store → P now items { store with version := v }
  later : later now now' → P now items store → P now' items store

/-- An invariant at a point of a history. -/
structure HoldsAt (P : Time.Moment → List Observation → Store → Prop) (point : Point) : Prop where
  stored : P point.session.now point.ledger.stored point.session.committed
  used : P point.session.now point.ledger.used point.session.store

section Histories

variable {later : Time.Moment → Time.Moment → Prop}
variable {P : Time.Moment → List Observation → Store → Prop} {point : Point}

theorem Preserved.next (hP : Preserved later P) (h : HoldsAt P point) (event : Event)
    (hlater : later point.session.now (point.next event).session.now) :
    HoldsAt P (point.next event) := by
  have hnow {items : List Observation} {store : Store} (hstore : P point.session.now items store) :
      P (point.next event).session.now items store := hP.later hlater hstore
  cases event.does (hP.own h.used) with
  | kept opened committed store =>
    have hledger : (point.next event).ledger =
        ⟨point.ledger.stored, point.ledger.used ++ event.taken point.session⟩ := by
      simp [Point.next, Ledger.next, opened]
    have hcommitted : (point.next event).session.committed = point.session.committed := committed
    constructor
    · rw [hledger, hcommitted]
      exact hnow h.stored
    · rw [hledger]
      exact hnow (hP.wrote _ h.used store)
  | stored closed well store =>
    have hledger : (point.next event).ledger =
        ⟨point.ledger.used ++ event.taken point.session,
          point.ledger.used ++ event.taken point.session⟩ := by
      simp [Point.next, Ledger.next, closed, well]
    have hcommitted : (point.next event).session.committed = (point.next event).session.store :=
      Session.committed_of_not_inTransaction closed
    have hused := hnow (hP.wrote _ h.used store)
    constructor
    · rw [hledger, hcommitted]
      exact hused
    · rw [hledger]
      exact hused
  | dropped closed ill store =>
    have hledger : (point.next event).ledger = ⟨point.ledger.stored, point.ledger.stored⟩ := by
      simp [Point.next, Ledger.next, closed, ill]
    obtain ⟨v, hstore⟩ := store
    have hversion : (point.next event).session.store =
        { point.session.committed with version := v } := hstore
    have hcommitted : (point.next event).session.committed = (point.next event).session.store :=
      Session.committed_of_not_inTransaction closed
    constructor
    · rw [hledger, hcommitted, hversion]
      exact hnow (hP.version h.stored)
    · rw [hledger, hversion]
      exact hnow (hP.version h.stored)

theorem Preserved.points (hP : Preserved later P) (h : HoldsAt P point)
    (hlater : (point :: points events point).Pairwise fun a b =>
      later a.session.now b.session.now) :
    ∀ point' ∈ points events point, HoldsAt P point' := by
  induction events generalizing point with
  | nil => exact List.forall_mem_nil _
  | cons event rest ih =>
    obtain ⟨hfirst, hrest⟩ := List.pairwise_cons.mp hlater
    have hnext := hP.next h event (hfirst _ List.mem_cons_self)
    exact List.forall_mem_cons.mpr ⟨hnext, ih hnext hrest⟩

/-- An invariant of the tables of a new journal holds at every point of a history. -/
theorem Preserved.history (hP : Preserved later P) {types : List String} {now : Time.Moment}
    (hfresh : P now [] .fresh) (p : Program)
    (hlater : (p.sessions types now).Pairwise fun s t => later s.now t.now) :
    ∀ point ∈ p.history types now, HoldsAt P point := by
  rw [← map_session_history, List.pairwise_map] at hlater
  exact List.forall_mem_cons.mpr ⟨⟨hfresh, hfresh⟩, hP.points ⟨hfresh, hfresh⟩ hlater⟩

end Histories

-- ---------------------------------------------------------------------------
-- Records
-- ---------------------------------------------------------------------------

/-- A record that only the journal wrote, from one of the observations taken in. -/
structure Record.Regular (items : List Observation) (r : Record) : Prop where
  active : r.status = .active → r.completedAt = none
  completed : r.status = .completed → r.completedAt.isSome
  priority : r.priority = .whole 3 ∨ r.priority = .whole 4
  tags : r.tags = none
  origin : ∃ o ∈ items, r.Shows o ∧ o.fingerprint = r.sourceKey

theorem whole_level (p : Priority) :
    Level.whole p.level = .whole 3 ∨ Level.whole p.level = .whole 4 := by
  cases p <;> simp [Priority.level]

theorem Record.Regular.mono (h : Record.Regular items r) (items' : List Observation) :
    r.Regular (items ++ items') := by
  obtain ⟨o, ho, hshows⟩ := h.origin
  exact ⟨h.active, h.completed, h.priority, h.tags, o, List.mem_append_left _ ho, hshows⟩

theorem regular_begun (htitle : o.title? = some title) :
    (Record.begun n type stamp title o).Regular (items ++ [o]) :=
  ⟨fun _ => rfl, nofun, whole_level o.priority, rfl, o, by simp, ⟨htitle, rfl, rfl⟩, rfl⟩

theorem regular_refresh (h : Record.Regular items r) (htitle : o.title? = some title)
    (hkey : o.fingerprint = r.sourceKey) : (Store.refresh title o r).Regular (items ++ [o]) := by
  have hlevel := whole_level o.priority
  by_cases hstatus : r.status = .completed
  · rw [Store.refresh_completed hstatus]
    exact ⟨fun _ => rfl, by simp, hlevel, h.tags, o, by simp, ⟨htitle, rfl, rfl⟩, hkey⟩
  · rw [Store.refresh_open hstatus]
    exact ⟨h.active, h.completed, hlevel, h.tags, o, by simp, ⟨htitle, rfl, rfl⟩, hkey⟩

theorem Record.Regular.complete (h : Record.Regular items r) (stamp : String) :
    Record.Regular items { r with status := .completed, completedAt := some stamp } := by
  obtain ⟨o, ho, hshows, hkey⟩ := h.origin
  exact ⟨nofun, fun _ => rfl, h.priority, h.tags, o, ho,
    ⟨hshows.title, hshows.description, hshows.priority⟩, hkey⟩

theorem Record.Regular.cancel (h : Record.Regular items r) :
    Record.Regular items { r with status := .cancelled } := by
  obtain ⟨o, ho, hshows, hkey⟩ := h.origin
  exact ⟨nofun, nofun, h.priority, h.tags, o, ho,
    ⟨hshows.title, hshows.description, hshows.priority⟩, hkey⟩

-- ---------------------------------------------------------------------------
-- Tables
-- ---------------------------------------------------------------------------

/-- Tables that only the journal wrote: their numbers are counted from 1 in the order of the
records, and every record is regular. -/
structure Store.Regular (items : List Observation) (store : Store) : Prop extends store.Own where
  ids : store.records.map Record.id =
    (List.range store.records.length).map fun (i : Nat) => (i : Int) + 1
  counter : store.counter = store.records.length
  regular : ∀ r ∈ store.records, r.Regular items

variable {items items' : List Observation} {store store' : Store} {s : Session}

theorem Store.regular_fresh : Store.Regular [] .fresh :=
  ⟨own_fresh, rfl, rfl, List.forall_mem_nil _⟩

theorem foldl_max_le {l : List Record} (hstart : start ≤ bound) (h : ∀ r ∈ l, r.id ≤ bound) :
    l.foldl (fun greatest record => max greatest record.id) start ≤ bound := by
  induction l generalizing start with
  | nil => exact hstart
  | cons r rest ih =>
    obtain ⟨hr, hrest⟩ := List.forall_mem_cons.mp h
    exact ih (max_le hstart hr) hrest

theorem Store.Regular.lastNumber (h : store.Regular items) :
    store.lastNumber = store.records.length := by
  have hbound : ∀ r ∈ store.records, r.id ≤ store.records.length := by
    intro r hr
    have hid : r.id ∈ store.records.map Record.id := List.mem_map_of_mem hr
    rw [h.ids] at hid
    obtain ⟨i, hi, hsame⟩ := List.mem_map.mp hid
    have hlt := List.mem_range.mp hi
    omega
  have hgreatest : store.greatestId ≤ store.records.length :=
    foldl_max_le (by omega) hbound
  unfold Store.lastNumber
  rw [h.counter]
  omega

/-- Records that are changed in place keep their numbers. -/
theorem Store.Regular.inPlace (h : store.Regular items)
    (hown : Own { store with records := store.records.map f }) (hkeys : KeepsKeys f)
    (hregular : ∀ r ∈ store.records, (f r).Regular items') :
    Regular items' { store with records := store.records.map f } := by
  refine ⟨hown, ?_, ?_, List.forall_mem_map.mpr hregular⟩
  · simpa [Function.comp_def, hkeys.id] using h.ids
  · simpa using h.counter

theorem Store.Regular.behind (h : store.Regular items) (hid : r.id = store.lastNumber + 1)
    (hown : Own { store with
      records := store.records ++ [r], counter := store.lastNumber + 1 })
    (hregular : r.Regular (items ++ items')) :
    Regular (items ++ items') { store with
      records := store.records ++ [r], counter := store.lastNumber + 1 } := by
  rw [h.lastNumber] at hid
  refine ⟨hown, ?_, ?_, ?_⟩
  · simp [List.range_succ, h.ids, hid]
  · simp [h.lastNumber]
  · rw [List.forall_mem_append, List.forall_mem_singleton]
    exact ⟨fun x hx => (h.regular x hx).mono items', hregular⟩

theorem Store.Regular.upsert (h : store.Regular items)
    (hwrite : store.upsert s.stamp type o = .ok (done, store')) :
    store'.Regular (items ++ [o]) := by
  have hown : store'.Own := h.writes (.upsert hwrite)
  obtain ⟨title, htitle, ⟨r, hr, -, rfl⟩ | ⟨createdAt, -, -, -, -, rfl⟩⟩ := upsert_ok hwrite
  · obtain ⟨hmem, hkey⟩ := h.wellFormed.ofKey?_eq_some.mp hr
    rw [h.wellFormed.update_eq hmem] at hown ⊢
    refine h.inPlace hown (KeepsKeys.ite keepsKeys_refresh) fun x hx => ?_
    split
    · rename_i hsame
      exact regular_refresh (h.regular x hx) htitle (hkey.symm.trans hsame.symm)
    · exact (h.regular x hx).mono [o]
  · exact h.behind rfl hown (regular_begun htitle)

theorem Store.Regular.complete (h : store.Regular items) (hstamp : s.stamp = .ok stamp) :
    (store.complete keys stamp).Regular items := by
  have hwrites : (Operation.reconcile []).Writes store (store.complete keys stamp) :=
    .reconcile hstamp
  refine h.inPlace (h.writes hwrites) ?_ fun r hr => ?_
  · exact KeepsKeys.ite ⟨fun _ => rfl, fun _ => rfl⟩
  · split
    · exact (h.regular r hr).complete stamp
    · exact h.regular r hr

theorem Store.Regular.cancel (h : store.Regular items)
    (hwrite : store.cancel value = .ok (n, store')) : store'.Regular items := by
  have hown : store'.Own := h.writes (.cancel hwrite)
  obtain ⟨r, -, -, -, rfl⟩ := cancel_ok hwrite
  refine h.inPlace hown keepsKeys_cancel.ite fun x hx => ?_
  split
  · exact (h.regular x hx).cancel
  · exact h.regular x hx

theorem Store.Regular.wrote (h : store.Regular items) (hwrote : Wrote s.stamp items' store store') :
    store'.Regular (items ++ items') := by
  induction hwrote with
  | nothing => simpa using h
  | upsert _ hwrite ih => simpa using (ih h).upsert hwrite
  | complete _ hstamp ih => exact (ih h).complete hstamp
  | cancel _ hwrite ih => exact (ih h).cancel hwrite

theorem Store.Regular.version (h : store.Regular items) (v : Option Int) :
    Regular items { store with version := v } :=
  ⟨h.toOwn.version v, h.ids, h.counter, h.regular⟩

theorem preserved_regular :
    Preserved (fun _ _ => True) fun _ items store => store.Regular items where
  own h := h.toOwn
  wrote _ h hwrote := h.wrote hwrote
  version h := h.version _
  later _ h := h

-- ---------------------------------------------------------------------------
-- Times
-- ---------------------------------------------------------------------------

/-- Under a clock that does not go back, the times of a record stand for moments that are past, and
it was completed no earlier than it was created. -/
def Record.Timely (now : Time.Moment) (r : Record) : Prop :=
  ∃ created : Time.Moment, created.stamp? = some r.createdAt ∧ created.instant ≤ now.instant ∧
    ∀ stamp ∈ r.completedAt, ∃ completed : Time.Moment,
      completed.stamp? = some stamp ∧ created.instant ≤ completed.instant

/-- A record was completed no earlier than it was created, as its two times are read. -/
def Record.InOrder (r : Record) : Prop :=
  ∀ stamp ∈ r.completedAt, ∃ created completed, Time.Iso.read r.createdAt = .ok created ∧
    Time.Iso.read stamp = .ok completed ∧ created.instant ≤ completed.instant

theorem Record.Timely.inOrder (h : Record.Timely now r) : r.InOrder := by
  obtain ⟨created, hcreated, -, hcompleted⟩ := h
  intro stamp hstamp
  obtain ⟨completed, hstamp, hle⟩ := hcompleted stamp hstamp
  exact Time.Iso.read_stamp_le hcreated hstamp hle

theorem Record.Timely.later (h : Record.Timely now r) (hle : now.instant ≤ now'.instant) :
    r.Timely now' := by
  obtain ⟨created, hcreated, hpast, hcompleted⟩ := h
  exact ⟨created, hcreated, hpast.trans hle, hcompleted⟩

theorem timely_begun (hstamp : s.stamp = .ok stamp) :
    (Record.begun n type stamp title o).Timely s.now :=
  ⟨s.now, stamp_ok.mp hstamp, le_rfl, nofun⟩

theorem Record.Timely.refresh (h : Record.Timely now r) (title : String) (o : Observation) :
    (Store.refresh title o r).Timely now := by
  obtain ⟨created, hcreated, hpast, hcompleted⟩ := h
  by_cases hstatus : r.status = .completed
  · rw [Store.refresh_completed hstatus]
    exact ⟨created, hcreated, hpast, nofun⟩
  · rw [Store.refresh_open hstatus]
    exact ⟨created, hcreated, hpast, hcompleted⟩

theorem Record.Timely.complete {r : Record} (h : r.Timely s.now) (hstamp : s.stamp = .ok stamp) :
    Record.Timely s.now { r with status := .completed, completedAt := some stamp } := by
  obtain ⟨created, hcreated, hpast, -⟩ := h
  refine ⟨created, hcreated, hpast, ?_⟩
  rintro _ ⟨⟩
  exact ⟨s.now, stamp_ok.mp hstamp, hpast⟩

def Store.Timely (now : Time.Moment) (store : Store) : Prop := ∀ r ∈ store.records, r.Timely now

theorem Store.Timely.map (h : store.Timely now)
    (hf : ∀ r : Record, r.Timely now → (f r).Timely now) :
    Timely now { store with records := store.records.map f } :=
  List.forall_mem_map.mpr fun r hr => hf r (h r hr)

theorem Store.Timely.wrote (h : store.Timely s.now) (hwrote : Wrote s.stamp items store store') :
    store'.Timely s.now := by
  induction hwrote with
  | nothing => exact h
  | upsert _ hwrite ih =>
    obtain ⟨title, -, ⟨r, -, -, rfl⟩ | ⟨createdAt, -, hstamp, -, -, rfl⟩⟩ := upsert_ok hwrite
    · refine (ih h).map fun x hx => ?_
      split
      · exact hx.refresh _ _
      · exact hx
    · exact List.forall_mem_append.mpr ⟨ih h, List.forall_mem_singleton.mpr (timely_begun hstamp)⟩
  | complete _ hstamp ih =>
    refine (ih h).map fun x hx => ?_
    split
    · exact hx.complete hstamp
    · exact hx
  | cancel _ hwrite ih =>
    obtain ⟨r, -, -, -, rfl⟩ := cancel_ok hwrite
    refine (ih h).map fun x hx => ?_
    split
    · exact hx
    · exact hx

theorem preserved_timely :
    Preserved (fun a b => a.instant ≤ b.instant)
      fun now items store => store.Regular items ∧ store.Timely now where
  own h := h.1.toOwn
  wrote _ h hwrote := ⟨h.1.wrote hwrote, h.2.wrote hwrote⟩
  version h := ⟨h.1.version _, h.2⟩
  later hle h := ⟨h.1, fun r hr => (h.2 r hr).later hle⟩

/-- At every point of every history of a new journal, what is stored was written by the journal
only and shows observations that are stored, and so it is with what is in use. If moreover the clock
never goes back, no record was completed before it was created. -/
theorem history_regular (p : Program) (types : List String) (now : Time.Moment) :
    (p.history types now).map Point.session = p.sessions types now ∧
    (∀ point ∈ p.history types now, point.session.committed.Regular point.ledger.stored ∧
      point.session.store.Regular point.ledger.used) ∧
    ((p.sessions types now).Pairwise (fun s t => s.now.instant ≤ t.now.instant) →
      ∀ s ∈ p.sessions types now,
        (∀ r ∈ s.committed.records, r.InOrder) ∧ ∀ r ∈ s.store.records, r.InOrder) := by
  refine ⟨map_session_history p types now, ?_, ?_⟩
  · intro point hpoint
    have hlater : (p.sessions types now).Pairwise fun _ _ => True :=
      List.pairwise_of_forall fun _ _ => trivial
    obtain ⟨hstored, hused⟩ :=
      preserved_regular.history Store.regular_fresh p hlater point hpoint
    exact ⟨hstored, hused⟩
  · intro hlater s hs
    rw [← map_session_history] at hs
    obtain ⟨point, hpoint, rfl⟩ := List.mem_map.mp hs
    obtain ⟨hstored, hused⟩ := preserved_timely.history
      ⟨Store.regular_fresh, List.forall_mem_nil _⟩ p hlater point hpoint
    exact ⟨fun r hr => (hstored.2 r hr).inOrder, fun r hr => (hused.2 r hr).inOrder⟩

end Marginalia.Journal
