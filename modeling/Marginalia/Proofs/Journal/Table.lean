import Marginalia.Journal.Seed
import Marginalia.Proofs.Journal.Outcome
import Mathlib.Data.List.Nodup

/-!
# The table and its keys

Numbers and source keys single out records. `WellFormed` is what the layout of the table promises;
every statement that writes keeps it, rows from outside included. Under it a statement that looks
for one record finds the only one, and what a write does to the table can be said record by
record.
-/

namespace Marginalia

def Observation.title? (o : Observation) : Option String :=
  (Journal.Cell.ofData 1 o.message).toOption.bind Journal.Cell.asText

@[simp] theorem Remark.title?_observe (a : Remark) : a.observe.title? = some a.message := rfl

namespace Journal

/-- The record that an observation starts. -/
def Record.begun (id : Int) (type createdAt title : String) (o : Observation) : Record where
  id := id
  type := type
  title := title
  description := some o.location
  status := .active
  createdAt := createdAt
  completedAt := none
  priority := .whole o.priority.level
  tags := none
  sourceKey := o.fingerprint

/-- The text for the title column is the same whichever parameter of a statement the message is. -/
theorem title_ok : (Cell.ofData index o.message >>= Store.titleOf) = .ok title ↔
    Observation.title? o = some title := by
  have hindex : (Cell.ofData index o.message).toOption = (Cell.ofData 1 o.message).toOption := by
    unfold Cell.ofData
    split
    case h_3 => split <;> rfl
    all_goals rfl
  rw [Observation.title?, ← hindex, bind_ok]
  cases Cell.ofData index o.message with
  | error fault => simp [Except.toOption]
  | ok cell => cases htext : cell.asText <;> simp [Except.toOption, Store.titleOf, htext]

-- ---------------------------------------------------------------------------
-- Lists with distinct keys
-- ---------------------------------------------------------------------------

section Keyed
variable {key : α → β} {l : List α}

theorem find?_key_eq_some [BEq β] [LawfulBEq β] (h : (l.map key).Nodup) :
    l.find? (fun a => key a == b) = some a ↔ a ∈ l ∧ key a = b := by
  constructor
  · intro hf
    exact ⟨List.mem_of_find?_eq_some hf, by simpa using List.find?_some hf⟩
  · rintro ⟨ha, rfl⟩
    have hsome : (l.find? fun c => key c == key a).isSome := by
      simpa using ⟨a, ha, rfl⟩
    obtain ⟨c, hc⟩ := Option.isSome_iff_exists.mp hsome
    have hkey : key c = key a := by simpa using List.find?_some hc
    rw [hc, List.inj_on_of_nodup_map h (List.mem_of_find?_eq_some hc) ha hkey]

theorem find?_key_eq_none [BEq β] [LawfulBEq β] :
    l.find? (fun a => key a == b) = none ↔ ∀ a ∈ l, key a ≠ b := by
  simp

end Keyed

namespace Store

/-- Two records never have one number or one source key. -/
structure WellFormed (store : Store) : Prop where
  ids : (store.records.map Record.id).Nodup
  keys : (store.records.map Record.sourceKey).Nodup

theorem wellFormed_fresh : fresh.WellFormed := ⟨List.nodup_nil, List.nodup_nil⟩

section
variable {store : Store}

theorem WellFormed.ofId?_eq_some (hw : store.WellFormed) :
    store.ofId? n = some r ↔ r ∈ store.records ∧ r.id = n :=
  find?_key_eq_some hw.ids

theorem WellFormed.ofKey?_eq_some (hw : store.WellFormed) :
    store.ofKey? key = some r ↔ r ∈ store.records ∧ r.sourceKey = key :=
  find?_key_eq_some hw.keys

theorem ofId?_eq_none : store.ofId? n = none ↔ ∀ r ∈ store.records, r.id ≠ n :=
  find?_key_eq_none

theorem ofKey?_eq_none : store.ofKey? key = none ↔ ∀ r ∈ store.records, r.sourceKey ≠ key :=
  find?_key_eq_none

-- ---------------------------------------------------------------------------
-- Numbers
-- ---------------------------------------------------------------------------

/-- The greatest number in use or handed out before. -/
def lastNumber (store : Store) : Int := max store.greatestId store.counter

theorem le_foldl_max (l : List Record) (start : Int) :
    start ≤ l.foldl (fun greatest record => max greatest record.id) start ∧
      ∀ r ∈ l, r.id ≤ l.foldl (fun greatest record => max greatest record.id) start := by
  induction l generalizing start with
  | nil => simp
  | cons head rest ih =>
    obtain ⟨hstart, hrest⟩ := ih (max start head.id)
    simp only [List.foldl_cons, List.forall_mem_cons]
    exact ⟨by omega, by omega, hrest⟩

theorem id_le_lastNumber (hr : r ∈ store.records) : r.id ≤ store.lastNumber := by
  have hle : r.id ≤ store.greatestId := (le_foldl_max store.records 0).2 r hr
  unfold lastNumber
  omega

theorem lastNumber_nonneg : 0 ≤ store.lastNumber := by
  have hle : 0 ≤ store.greatestId := (le_foldl_max store.records 0).1
  unfold lastNumber
  omega

theorem max_counter_next : max store.counter (store.lastNumber + 1) = store.lastNumber + 1 := by
  unfold lastNumber
  omega

theorem nextId_eq : store.nextId =
    if store.lastNumber = greatestInt then .error .full else .ok (store.lastNumber + 1) := by
  unfold nextId lastNumber
  split <;> simp_all

-- ---------------------------------------------------------------------------
-- Writes
-- ---------------------------------------------------------------------------

/-- A change of records that leaves their numbers and source keys alone. -/
structure KeepsKeys (f : Record → Record) : Prop where
  id : ∀ r, (f r).id = r.id
  sourceKey : ∀ r, (f r).sourceKey = r.sourceKey

theorem WellFormed.map (hw : store.WellFormed) (hf : KeepsKeys f) :
    WellFormed { store with records := store.records.map f } := by
  constructor
  · simpa [Function.comp_def, hf.id] using hw.ids
  · simpa [Function.comp_def, hf.sourceKey] using hw.keys

theorem KeepsKeys.ite {p : Record → Prop} [DecidablePred p] (hf : KeepsKeys f) :
    KeepsKeys fun r => if p r then f r else r := by
  constructor <;> intro r <;> split
  · exact hf.id r
  · rfl
  · exact hf.sourceKey r
  · rfl

theorem lastNumber_map (hf : KeepsKeys f) :
    lastNumber { store with records := store.records.map f } = store.lastNumber := by
  simp [lastNumber, greatestId, List.foldl_map, hf.id]

theorem lastNumber_append (store : Store) (hid : r.id = store.lastNumber + 1) :
    lastNumber { store with records := store.records ++ [r], counter := store.lastNumber + 1 } =
      store.lastNumber + 1 := by
  simp only [lastNumber, greatestId, List.foldl_append, List.foldl_cons, List.foldl_nil] at hid ⊢
  omega

theorem WellFormed.update (hw : store.WellFormed) (hf : KeepsKeys f) :
    (store.update n f).WellFormed :=
  hw.map hf.ite

/-- The record that a statement singles out by its number is the one with its source key. -/
theorem WellFormed.update_eq (hw : store.WellFormed) (hr : r ∈ store.records) :
    store.update r.id f = { store with records := store.records.map fun x =>
      if x.sourceKey = r.sourceKey then f x else x } := by
  have hsame : ∀ x ∈ store.records, x.id = r.id ↔ x.sourceKey = r.sourceKey := by
    intro x hx
    constructor
    · intro h
      rw [List.inj_on_of_nodup_map hw.ids hx hr h]
    · intro h
      rw [List.inj_on_of_nodup_map hw.keys hx hr h]
  simp only [Store.update, beq_iff_eq, Store.mk.injEq, and_true]
  exact List.map_congr_left fun x hx => by simp only [hsame x hx]

theorem refresh_completed {r : Record} (h : r.status = .completed) (title : String)
    (o : Observation) : refresh title o r = { r with
      title, description := some o.location, priority := .whole o.priority.level
      status := .active, completedAt := none } := by
  simp [refresh, h]

theorem refresh_open {r : Record} (h : r.status ≠ .completed) (title : String) (o : Observation) :
    refresh title o r = { r with
      title, description := some o.location, priority := .whole o.priority.level } := by
  simp [refresh, h]

theorem keepsKeys_refresh : KeepsKeys (refresh title o) := by
  constructor <;> intro r <;> simp only [refresh] <;> split <;> rfl

theorem WellFormed.complete (hw : store.WellFormed) : (store.complete current now).WellFormed :=
  hw.map (KeepsKeys.ite (f := fun r => { r with status := .completed, completedAt := some now })
    ⟨fun _ => rfl, fun _ => rfl⟩)

theorem insert_ok : store.insert record = .ok store' ↔
    (∀ r ∈ store.records, r.id ≠ record.id) ∧
    (∀ r ∈ store.records, r.sourceKey ≠ record.sourceKey) ∧
    store' = { store with
      records := store.records ++ [record], counter := max store.counter record.id } := by
  rw [← ofId?_eq_none, ← ofKey?_eq_none, insert]
  cases store.ofId? record.id <;> cases store.ofKey? record.sourceKey <;> simp [eq_comm]

theorem WellFormed.insert (hw : store.WellFormed) (h : store.insert record = .ok store') :
    store'.WellFormed := by
  obtain ⟨hid, hkey, rfl⟩ := insert_ok.mp h
  constructor
  · simpa [List.nodup_append, hw.ids] using hid
  · simpa [List.nodup_append, hw.keys] using hkey

theorem insert_begun (hkey : store.ofKey? o.fingerprint = none) :
    store.insert (.begun (store.lastNumber + 1) type createdAt title o) = .ok { store with
      records := store.records ++ [.begun (store.lastNumber + 1) type createdAt title o]
      counter := store.lastNumber + 1 } := by
  have hfresh : ∀ r ∈ store.records, r.id ≠ store.lastNumber + 1 := by
    intro r hr
    have := id_le_lastNumber hr
    omega
  refine insert_ok.mpr ⟨hfresh, ofKey?_eq_none.mp hkey, ?_⟩
  simp only [Record.begun, max_counter_next]

/-- All that taking an observation in can do to the tables. -/
theorem upsert_ok (h : store.upsert now type o = .ok (done, store')) :
    ∃ title, o.title? = some title ∧
      ((∃ r, store.ofKey? o.fingerprint = some r ∧ done.1 = r.id ∧
          store' = store.update r.id (refresh title o)) ∨
       (∃ createdAt, store.ofKey? o.fingerprint = none ∧ now = .ok createdAt ∧
          store.lastNumber ≠ greatestInt ∧ done.1 = store.lastNumber + 1 ∧
          store' = { store with
            records := store.records ++
              [.begun (store.lastNumber + 1) type createdAt title o]
            counter := store.lastNumber + 1 })) := by
  unfold upsert at h
  split at h
  · rename_i hkey
    simp only [bind_ok, nextId_eq] at h
    obtain ⟨createdAt, hnow, cell, hcell, id, hid, title, htitle, inserted, hinsert, hdone⟩ := h
    obtain ⟨-, -, rfl⟩ := insert_ok.mp hinsert
    split at hid <;> cases hid
    rename_i hroom
    cases hdone
    refine ⟨title, title_ok.mp (bind_ok.mpr ⟨cell, hcell, htitle⟩), .inr ⟨createdAt, hkey, hnow,
      hroom, rfl, ?_⟩⟩
    simp only [max_counter_next]
    rfl
  · rename_i r hkey
    simp only [bind_ok] at h
    obtain ⟨cell, hcell, title, htitle, hdone⟩ := h
    cases hdone
    exact ⟨title, title_ok.mp (bind_ok.mpr ⟨cell, hcell, htitle⟩), .inl ⟨r, hkey, rfl, rfl⟩⟩

theorem upsert_begun (htitle : o.title? = some title) (type stamp : String)
    (hkey : store.ofKey? o.fingerprint = none) (hroom : store.lastNumber ≠ greatestInt) :
    store.upsert (.ok stamp) type o = .ok ((store.lastNumber + 1, .inserted), { store with
      records := store.records ++ [.begun (store.lastNumber + 1) type stamp title o]
      counter := store.lastNumber + 1 }) := by
  have hmessage : (Cell.ofData 2 o.message >>= titleOf) = .ok title := title_ok.mpr htitle
  obtain ⟨cell, hcell, htext⟩ := bind_ok.mp hmessage
  simp only [upsert, hkey, nextId_eq, if_neg hroom, bind_ok]
  exact ⟨stamp, rfl, cell, hcell, _, rfl, title, htext, _, insert_begun hkey, rfl⟩

theorem upsert_shown (htitle : o.title? = some title) (now : Except Fault String) (type : String)
    (hkey : store.ofKey? o.fingerprint = some r) :
    ∃ kind, store.upsert now type o = .ok ((r.id, kind), store.update r.id (refresh title o)) := by
  have hmessage : (Cell.ofData 1 o.message >>= titleOf) = .ok title := title_ok.mpr htitle
  obtain ⟨cell, hcell, htext⟩ := bind_ok.mp hmessage
  refine ⟨if r.status == .completed then .reactivated else .refreshed, ?_⟩
  simp only [upsert, hkey, bind_ok]
  exact ⟨cell, hcell, title, htext, rfl⟩

theorem keepsKeys_cancel :
    KeepsKeys fun r : Record => { r with status := Status.cancelled } :=
  ⟨fun _ => rfl, fun _ => rfl⟩

theorem cancel_ok (h : store.cancel value = .ok (n, store')) :
    ∃ r, store.lookUp value = .ok (some r) ∧ r.status ≠ .cancelled ∧ n = r.id ∧
      store' = store.update r.id fun r => { r with status := .cancelled } := by
  simp only [cancel, bind_ok] at h
  obtain ⟨found, hfound, h⟩ := h
  split at h
  · cases h
  · rename_i r
    split at h
    · cases h
    · rename_i hstatus
      cases h
      exact ⟨r, hfound, by simpa using hstatus, rfl, rfl⟩

theorem WellFormed.upsert (hw : store.WellFormed)
    (h : store.upsert now type o = .ok (done, store')) : store'.WellFormed := by
  obtain ⟨title, -, ⟨r, -, -, rfl⟩ | ⟨createdAt, hkey, -, -, -, rfl⟩⟩ := upsert_ok h
  · exact hw.update keepsKeys_refresh
  · exact hw.insert (insert_begun hkey)

/-- The record of an observation that was taken in is the one with its source key refreshed, or a
new one. -/
theorem WellFormed.ofId?_upsert (hw : store.WellFormed)
    (h : store.upsert now type o = .ok (done, store')) : ∃ title, o.title? = some title ∧
      ((∃ r ∈ store.records, r.sourceKey = o.fingerprint ∧ done.1 = r.id ∧
          store'.ofId? done.1 = some (refresh title o r)) ∨
       (∃ createdAt, now = .ok createdAt ∧ store.ofKey? o.fingerprint = none ∧
          store.lastNumber ≠ greatestInt ∧ done.1 = store.lastNumber + 1 ∧
          store'.ofId? done.1 =
            some (.begun (store.lastNumber + 1) type createdAt title o))) := by
  have hw' := hw.upsert h
  simp only [hw'.ofId?_eq_some]
  obtain ⟨title, htitle, ⟨r, hr, hdone, rfl⟩ | ⟨createdAt, hkey, hnow, hroom, hdone, rfl⟩⟩ :=
    upsert_ok h
  · obtain ⟨hmem, hkey⟩ := hw.ofKey?_eq_some.mp hr
    have hmem' : refresh title o r ∈ (store.update r.id (refresh title o)).records :=
      List.mem_map.mpr ⟨r, hmem, by simp⟩
    exact ⟨title, htitle, .inl ⟨r, hmem, hkey, hdone, hmem', hdone ▸ keepsKeys_refresh.id r⟩⟩
  · have hmem : Record.begun (store.lastNumber + 1) type createdAt title o ∈
        store.records ++ [Record.begun (store.lastNumber + 1) type createdAt title o] :=
      List.mem_append_right _ (List.mem_singleton_self _)
    exact ⟨title, htitle, .inr ⟨createdAt, hnow, hkey, hroom, hdone, hmem, hdone.symm⟩⟩

/-- What other programs put in is held to the same rules. -/
theorem WellFormed.seed (hw : store.WellFormed) (h : store.seed row = .ok store') :
    store'.WellFormed := by
  simp only [Store.seed, bind_ok] at h
  obtain ⟨cells, -, n, -, type, -, title, -, status, -, createdAt, -, h⟩ := h
  split at h
  · simp [throw, throwThe, MonadExceptOf.throw, bind_ok] at h
  · obtain ⟨sourceKey, -, h⟩ := bind_ok.mp h
    split at h
    · cases h
    · cases h
    · exact hw.insert h

end

end Store

end Journal

end Marginalia
