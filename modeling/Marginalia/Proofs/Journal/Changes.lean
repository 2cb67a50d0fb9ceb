import Marginalia.Proofs.Journal.Program
import Marginalia.Proofs.Time.Stamp

/-!
# What a write does to the records

A write changes records in place or puts one new record behind them. `Operation.Writes.cases` says
all that there is to say about one write. From it follows what every table has that only the
journal wrote: numbers and source keys single out records, numbers are counted from 1, and times
are times that the journal wrote, so that every record is handed out as it is stored.
-/

namespace Marginalia.Journal

open Relation (ReflTransGen)

/-- The number that a value gives for the record it is about. -/
def recordNumber? (value : Data) : Option Int := (Cell.ofData 1 value).toOption.bind Cell.whole?

/-- What an operation can make of the status of a record with a number and a source key. -/
inductive Operation.Edge : Operation → Int → String → Status → Status → Prop
  | complete : Edge (.reconcile keys) n key .active .completed
  | reactivate (h : o.fingerprint = key) : Edge (.upsert o) n key .completed .active
  | cancel (hn : recordNumber? value = some n) (h : status ≠ .cancelled) :
      Edge (.cancel value) n key status .cancelled
  | scanComplete (h : Edge (.reconcile (keysOf items)) n key status status') :
      Edge (.sync items) n key status status'
  | scanTakeIn (ho : o ∈ items) (h : Edge (.upsert o) n key status status') :
      Edge (.sync items) n key status status'

/-- A time as the journal writes it. -/
def IsStamp (stamp : String) : Prop := ∃ now : Time.Moment, now.stamp? = some stamp

/-- What one write can make of a record, if it moves statuses along given edges. -/
structure Record.Changed (edge : Int → String → Status → Status → Prop) (r r' : Record) : Prop where
  id : r'.id = r.id
  type : r'.type = r.type
  sourceKey : r'.sourceKey = r.sourceKey
  createdAt : r'.createdAt = r.createdAt
  status : r'.status = r.status ∨ edge r.id r.sourceKey r.status r'.status
  completedAt : ∀ stamp ∈ r'.completedAt, stamp ∈ r.completedAt ∨ IsStamp stamp
  final : r.status = .cancelled → r'.status = .cancelled ∧ r'.completedAt = r.completedAt

theorem Record.Changed.refl (edge : Int → String → Status → Status → Prop) (r : Record) :
    r.Changed edge r :=
  ⟨rfl, rfl, rfl, rfl, .inl rfl, fun _ h => .inl h, fun h => ⟨h, rfl⟩⟩

theorem Record.Changed.mono {edge edge' : Int → String → Status → Status → Prop}
    (hedge : ∀ n key status status', edge n key status status' → edge' n key status status')
    (h : Record.Changed edge r r') : Record.Changed edge' r r' :=
  ⟨h.id, h.type, h.sourceKey, h.createdAt, h.status.imp_right (hedge _ _ _ _), h.completedAt,
    h.final⟩

/-- A record that a write puts behind the others. -/
structure Record.Begun (store : Store) (r : Record) : Prop where
  id : r.id = store.lastNumber + 1
  room : store.lastNumber ≠ greatestInt
  sourceKey : store.ofKey? r.sourceKey = none
  status : r.status = .active
  createdAt : IsStamp r.createdAt
  completedAt : r.completedAt = none

variable {a b c store store' : Store} {s : Session} {op : Operation}

-- ---------------------------------------------------------------------------
-- One write
-- ---------------------------------------------------------------------------

theorem isStamp_of_stamp (h : s.stamp = .ok stamp) : IsStamp stamp := by
  unfold Session.stamp at h
  split at h
  · cases h
    exact ⟨s.now, ‹_›⟩
  · cases h

theorem lookUp_some (h : store.lookUp value = .ok (some r)) :
    recordNumber? value = some r.id ∧ r ∈ store.records := by
  simp only [Store.lookUp, bind_ok] at h
  obtain ⟨cell, hcell, h⟩ := h
  cases h' : cell.whole? with
  | none => simp [h'] at h
  | some n =>
    simp only [h', Option.bind_some, Except.ok.injEq, Store.ofId?] at h
    have hid : r.id = n := by simpa using List.find?_some h
    exact ⟨by simp [recordNumber?, hcell, Except.toOption, h', hid], List.mem_of_find?_eq_some h⟩

theorem changed_refresh (hkey : o.fingerprint = Record.sourceKey r) :
    r.Changed (Operation.upsert o).Edge (Store.refresh title o r) := by
  by_cases hstatus : r.status = .completed
  · rw [Store.refresh_completed hstatus]
    exact ⟨rfl, rfl, rfl, rfl, .inr (hstatus ▸ .reactivate hkey), by simp, by simp [hstatus]⟩
  · rw [Store.refresh_open hstatus]
    exact ⟨rfl, rfl, rfl, rfl, .inl rfl, fun _ h => .inl h, fun h => ⟨h, rfl⟩⟩

theorem changed_complete {r : Record} (hstamp : IsStamp now) (hactive : r.status = .active) :
    r.Changed (Operation.reconcile keys).Edge
      { r with status := .completed, completedAt := some now } := by
  refine ⟨rfl, rfl, rfl, rfl, .inr (hactive ▸ .complete), ?_, by simp [hactive]⟩
  rintro _ ⟨⟩
  exact .inr hstamp

theorem changed_cancel {r : Record} (hn : recordNumber? value = some r.id) :
    r.Changed (Operation.cancel value).Edge { r with status := .cancelled } := by
  refine ⟨rfl, rfl, rfl, rfl, ?_, fun _ h => .inl h, fun _ => ⟨rfl, rfl⟩⟩
  by_cases hstatus : r.status = .cancelled
  · exact .inl hstatus.symm
  · exact .inr (.cancel hn hstatus)

/-- What a write can do: it changes records in place, or it puts one new record behind them. -/
inductive Store.Changed (edge : Int → String → Status → Status → Prop) (store : Store) :
    Store → Prop
  | inPlace (f : Record → Record) (h : ∀ r : Record, r.Changed edge (f r)) :
      Changed edge store { store with records := store.records.map f }
  | behind (r : Record) (h : r.Begun store) :
      Changed edge store
        { store with records := store.records ++ [r], counter := store.lastNumber + 1 }

theorem Store.Changed.mono {edge edge' : Int → String → Status → Status → Prop}
    (hedge : ∀ n key status status', edge n key status status' → edge' n key status status')
    (h : store.Changed edge store') : store.Changed edge' store' := by
  cases h with
  | inPlace f h => exact .inPlace f fun r => (h r).mono hedge
  | behind r h => exact .behind r h

theorem Operation.Writes.changed (hw : store.WellFormed) (h : op.Writes store store') :
    store.Changed op.Edge store' := by
  induction h with
  | upsert h =>
    obtain ⟨title, -, ⟨r, hr, -, rfl⟩ | ⟨createdAt, hkey, hnow, hroom, -, rfl⟩⟩ := Store.upsert_ok h
    · obtain ⟨hmem, hkey⟩ := hw.ofKey?_eq_some.mp hr
      rw [hw.update_eq hmem]
      refine .inPlace _ fun x => ?_
      split
      · rename_i hsame
        exact changed_refresh (hkey.symm.trans hsame.symm)
      · exact .refl _ x
    · exact .behind _ ⟨rfl, hroom, hkey, rfl, isStamp_of_stamp hnow, rfl⟩
  | reconcile h =>
    refine .inPlace _ fun r => ?_
    split
    · rename_i hmissing
      have hactive : r.status = .active := by
        simp only [Store.isMissing, Bool.and_eq_true, beq_iff_eq] at hmissing
        exact hmissing.1.1
      exact changed_complete (isStamp_of_stamp h) hactive
    · exact .refl _ r
  | takeIn ho _ ih => exact (ih hw).mono fun _ _ _ _ => .scanTakeIn ho
  | complete _ ih => exact (ih hw).mono fun _ _ _ _ => .scanComplete
  | cancel h =>
    obtain ⟨r, hr, -, -, rfl⟩ := Store.cancel_ok h
    refine .inPlace _ fun x => ?_
    split
    · rename_i hid
      exact changed_cancel ((eq_of_beq hid).symm ▸ (lookUp_some hr).1)
    · exact .refl _ x

-- ---------------------------------------------------------------------------
-- Tables that only the journal wrote
-- ---------------------------------------------------------------------------

/-- What holds of every table that only the journal wrote. -/
structure Store.Own (store : Store) : Prop where
  wellFormed : store.WellFormed
  positive : ∀ r ∈ store.records, 1 ≤ r.id
  bounded : store.lastNumber ≤ greatestInt
  createdAt : ∀ r ∈ store.records, IsStamp r.createdAt
  completedAt : ∀ r ∈ store.records, ∀ stamp ∈ r.completedAt, IsStamp stamp

theorem Store.own_fresh : Store.fresh.Own :=
  ⟨wellFormed_fresh, List.forall_mem_nil _, by decide, List.forall_mem_nil _,
    List.forall_mem_nil _⟩

theorem keepsKeys_of_changed {edge : Int → String → Status → Status → Prop} {f : Record → Record}
    (h : ∀ r : Record, r.Changed edge (f r)) : Store.KeepsKeys f :=
  ⟨fun r => (h r).id, fun r => (h r).sourceKey⟩

theorem Store.WellFormed.behind (hw : store.WellFormed) (h : Record.Begun store r) :
    WellFormed { store with records := store.records ++ [r], counter := store.lastNumber + 1 } := by
  have hid : ∀ x ∈ store.records, x.id ≠ r.id := by
    intro x hx
    have := id_le_lastNumber hx
    rw [h.id]
    omega
  have hkey := ofKey?_eq_none.mp h.sourceKey
  constructor
  · simpa [List.nodup_append, hw.ids] using hid
  · simpa [List.nodup_append, hw.keys] using hkey

theorem Store.Own.changed {edge : Int → String → Status → Status → Prop} (hown : store.Own)
    (h : store.Changed edge store') : store'.Own := by
  cases h with
  | inPlace f h =>
    have hkeys := keepsKeys_of_changed h
    refine ⟨hown.wellFormed.map hkeys, ?_, ?_, ?_, ?_⟩
    · simpa [hkeys.id] using hown.positive
    · rw [lastNumber_map hkeys]
      exact hown.bounded
    · simpa [(h _).createdAt] using hown.createdAt
    · intro r' hr' stamp hstamp
      obtain ⟨r, hr, rfl⟩ := List.mem_map.mp hr'
      rcases (h r).completedAt stamp hstamp with hold | hnew
      · exact hown.completedAt r hr stamp hold
      · exact hnew
  | behind r h =>
    have hroom := h.room
    have hbound := hown.bounded
    have hlast : 0 ≤ store.lastNumber := lastNumber_nonneg
    refine ⟨hown.wellFormed.behind h, ?_, ?_, ?_, ?_⟩
    · simp only [List.forall_mem_append, List.forall_mem_singleton]
      exact ⟨hown.positive, by rw [h.id]; omega⟩
    · rw [lastNumber_append store h.id]
      omega
    · simp only [List.forall_mem_append, List.forall_mem_singleton]
      exact ⟨hown.createdAt, h.createdAt⟩
    · simp only [List.forall_mem_append, List.forall_mem_singleton]
      exact ⟨hown.completedAt, by simp [h.completedAt]⟩

theorem Store.Own.writes (hown : store.Own) (h : op.Writes store store') : store'.Own :=
  hown.changed (h.changed hown.wellFormed)

theorem Store.Own.version (hown : store.Own) (v : Option Int) :
    Own { store with version := v } :=
  ⟨⟨hown.wellFormed.ids, hown.wellFormed.keys⟩, hown.positive, hown.bounded, hown.createdAt,
    hown.completedAt⟩

theorem Store.Own.writesAll (hown : store.Own) (h : ReflTransGen op.Writes store store') :
    store'.Own := by
  induction h with
  | refl => exact hown
  | tail _ h ih => exact ih.writes h

theorem own_of_write (hown : store.Own) (h : ReflTransGen Write store store') : store'.Own := by
  induction h with
  | refl => exact hown
  | tail _ h ih =>
    cases h with
    | operation op h => exact ih.writes h
    | version v => exact ih.version v

theorem Session.Reachable.own (h : s.Reachable) : s.committed.Own ∧ s.store.Own := by
  obtain ⟨hsound, hwrites⟩ := h.writes
  have hcommitted := own_of_write Store.own_fresh hwrites
  exact ⟨hcommitted, own_of_write hcommitted hsound⟩

-- ---------------------------------------------------------------------------
-- Handing out
-- ---------------------------------------------------------------------------

theorem Store.Own.fits (hown : store.Own) (hr : r ∈ store.records) : fits r.id = true := by
  have hpos := hown.positive r hr
  have hle := id_le_lastNumber hr
  have hbound := hown.bounded
  have hleast : leastInt < 0 := by decide
  simp only [Journal.fits, Bool.and_eq_true, decide_eq_true_eq]
  omega

theorem readStamp_of_read (h : Time.Iso.read stamp = .ok moment) :
    readStamp (.text stamp) = .ok moment := by
  simp [readStamp, h, Except.mapError]

theorem readStamp_ok (h : IsStamp stamp) :
    ∃ moment, readStamp (.text stamp) = .ok moment ∧ moment.millisText = stamp := by
  obtain ⟨now, hnow⟩ := h
  obtain ⟨moment, hread, htext⟩ := Time.Iso.read_stamp hnow
  exact ⟨moment, readStamp_of_read hread, htext⟩

/-- A text that writes a moment is not empty. -/
theorem holds_of_readStamp (h : readStamp (.text stamp) = .ok moment) :
    (Data.text stamp).holds = true := by
  by_contra hempty
  obtain rfl : stamp = "" := by simpa [Data.holds] using hempty
  cases h

theorem statusOf_name (status : Status) : Status.ofData (.text status.name) = .ok status := by
  simp [Status.ofData, Data.text?, Status.ofName?_name]

/-- The completion time that a value writes, if it writes one. -/
def readCompletion (value : Data) : Except Fault (Option Time.Moment) :=
  if value.holds then some <$> readStamp value else .ok none

theorem entry_eq (r : Record) : r.entry =
    readStamp (.text r.createdAt) >>= fun createdAt =>
      readCompletion (.ofOption r.completedAt) >>= fun completedAt =>
        .ok ⟨.int r.id, .text r.type, .text r.title, .ofOption r.description, r.status, createdAt,
          completedAt, r.priority.toData, .ofOption r.tags, .text r.sourceKey⟩ := by
  simp only [Record.entry, Entry.ofRow, column, Record.row, valueOf?, List.lookup_cons,
    String.reduceBEq, statusOf_name, bind, Except.bind, readCompletion]
  cases readStamp (.text r.createdAt) with
  | error fault => rfl
  | ok createdAt => cases (Data.ofOption r.completedAt).holds <;> rfl

theorem readCompletion_some (h : readStamp (.text stamp) = .ok moment) :
    readCompletion (.ofOption (some stamp)) = .ok (some moment) := by
  rw [readCompletion, Data.ofOption, if_pos (holds_of_readStamp h), h]
  rfl

theorem readCompletion_ok {completion : Option String}
    (h : ∀ stamp ∈ completion, IsStamp stamp) :
    ∃ completedAt, readCompletion (.ofOption completion) = .ok completedAt ∧
      completedAt.map Time.Moment.millisText = completion := by
  cases completion with
  | none => exact ⟨none, rfl, rfl⟩
  | some stamp =>
    obtain ⟨moment, hread, htext⟩ := readStamp_ok (h stamp rfl)
    exact ⟨some moment, readCompletion_some hread, congrArg some htext⟩

/-- A record that the journal wrote is handed out as it is stored. -/
theorem Store.Own.shown (hown : store.Own) (hr : r ∈ store.records) :
    ∃ e, r.entry = .ok e ∧ e.toData = .object r.row := by
  obtain ⟨createdAt, hcreated, htext⟩ := readStamp_ok (hown.createdAt r hr)
  obtain ⟨completedAt, hcompleted, htext'⟩ := readCompletion_ok (hown.completedAt r hr)
  rw [entry_eq, hcreated, hcompleted]
  refine ⟨_, rfl, ?_⟩
  rw [Record.row, ← htext, ← htext']
  cases completedAt <;> rfl

theorem Store.Own.entry (hown : store.Own) (hr : r ∈ store.records) : ∃ e, r.entry = .ok e :=
  (hown.shown hr).imp fun _ h => h.1

/-- Moments to the millisecond are read back from their texts, and what a journal has written is
shown as it stands there, its times included. -/
theorem times_read_back :
    (∀ moment : Time.Moment, moment.date.valid = true → moment.clock.valid = true →
      (∀ offset ∈ moment.offset, Time.Iso.WholeMinutes offset) →
        Time.Iso.read moment.millisText = .ok { moment with clock := moment.clock.cut }) ∧
    ∀ s : Session, s.Reachable → ∀ r, r ∈ s.committed.records ∨ r ∈ s.store.records →
      ∃ e, r.entry = .ok e ∧ e.toData = .object r.row := by
  refine ⟨fun moment => Time.Iso.read_millisText, fun s hs r hr => ?_⟩
  rcases hr with hr | hr
  · exact hs.own.1.shown hr
  · exact hs.own.2.shown hr

theorem Session.Reachable.called (hs : s.Reachable) (op : Operation) :
    (after op.run s).Reachable := .visited hs (.leaf (.call op)) (List.mem_singleton_self _)

/-- A moment early in the calendar, nine and a half hours behind UTC. -/
def earlyMoment : Time.Moment := ⟨⟨987, 6, 5⟩, ⟨14, 3, 2, 1999⟩, some (-34200000000)⟩

/-- A journal that took one remark in at that time, and then missed it. -/
def earlyJournal : Session :=
  after (Operation.reconcile []).run (after
    (Operation.upsert (Remark.observe ⟨"main.c", 7, "TODO", "tidy", .normal, none, none, none,
      none⟩)).run (.fresh ["TODO"] earlyMoment))

theorem times_read_back_early :
    earlyMoment.millisText = "0987-06-05T14:03:02.001-09:30" ∧
      Time.Iso.read earlyMoment.millisText =
        .ok { earlyMoment with clock := ⟨14, 3, 2, 1000⟩ } ∧
      ∃ r ∈ earlyJournal.store.records, r.createdAt = "0987-06-05T23:33:02.001+00:00" ∧
        r.completedAt = some "0987-06-05T23:33:02.001+00:00" ∧
          ∃ e, r.entry = .ok e ∧ e.toData = .object r.row := by
  have hreachable : earlyJournal.Reachable :=
    ((Session.Reachable.fresh ["TODO"] earlyMoment).called _).called _
  obtain ⟨r, hr, hcreated, hcompleted⟩ : ∃ r ∈ earlyJournal.store.records,
      r.createdAt = "0987-06-05T23:33:02.001+00:00" ∧
        r.completedAt = some "0987-06-05T23:33:02.001+00:00" := by decide +kernel
  have hoffset : ∀ offset ∈ earlyMoment.offset, Time.Iso.WholeMinutes offset := by
    rintro _ ⟨⟩
    exact ⟨by decide, by decide⟩
  exact ⟨by decide +kernel, times_read_back.1 earlyMoment (by decide) (by decide) hoffset, r, hr,
    hcreated, hcompleted, times_read_back.2 _ hreachable r (.inr hr)⟩

end Marginalia.Journal
