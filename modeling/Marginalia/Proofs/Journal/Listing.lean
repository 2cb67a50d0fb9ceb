import Marginalia.Proofs.Journal.Regular
import Marginalia.Proofs.Journal.Stops
import Marginalia.Proofs.Time.Order
import Mathlib.Data.List.Sort
import Mathlib.Data.Prod.Lex

/-!
# Listings

What a listing of tables that only the journal wrote hands out. Its order compares the texts of
times, and rows from outside may hold priorities that no order puts into place; the records of the
journal have whole priorities and the texts of its own stamps. For them the order is one of ranks,
and no two have one rank, so each record has one place, also in the order of time.
-/

namespace Marginalia.Journal

open Store (listedBefore listing page)

/-- The place of a record in listings, as the tables hold it. -/
def Record.rank (r : Record) : Int ×ₗ String ×ₗ Int :=
  toLex (match r.priority with | .whole n => n | .between _ => 0, toLex (r.createdAt, r.id))

/-- An entry stands above another one: it has the greater priority, then the later time, then the
greater number. -/
def Entry.Above (a b : Entry) : Prop :=
  ∃ p q m n : Int, a.priority = .int p ∧ b.priority = .int q ∧ a.id = .int m ∧ b.id = .int n ∧
    toLex (q, toLex (b.createdAt.instant, n)) < toLex (p, toLex (a.createdAt.instant, m))

/-- What a listing of a status and of a type hands out: the entries of the records of these and of
no other, each once, in the order that the tables and the times say. -/
structure Store.Lists (store : Store) (status : Option Status) (type : Option String)
    (records : List Record) (entries : List Entry) : Prop where
  handedOut : records.map Record.entry = entries.map .ok
  once : records.Nodup
  members : ∀ r, r ∈ records ↔ r ∈ store.records ∧ (∀ x ∈ status, r.status = x) ∧
    ∀ name ∈ type, r.type = Text.upper name
  ranks : records.Pairwise fun a b => b.rank < a.rank
  descending : entries.Pairwise Entry.Above

variable {s t u : Session} {store : Store} {items : List Observation} {a b r : Record}
variable {records : List Record} {e e' : Entry} {entries : List Entry}

-- ---------------------------------------------------------------------------
-- Ranks
-- ---------------------------------------------------------------------------

theorem rank_of_whole (h : r.priority = .whole n) :
    r.rank = toLex (n, toLex (r.createdAt, r.id)) := by
  rw [Record.rank, h]

theorem Record.Regular.whole (h : r.Regular items) : ∃ n, r.priority = .whole n :=
  h.priority.elim (fun h => ⟨3, h⟩) fun h => ⟨4, h⟩

theorem listedBefore_eq (ha : a.priority = .whole p) (hb : b.priority = .whole q) :
    listedBefore a b = decide (b.rank ≤ a.rank) := by
  have htimes : (b.createdAt < a.createdAt || (a.createdAt == b.createdAt && b.id ≤ a.id)) =
      decide (toLex (b.createdAt, b.id) ≤ toLex (a.createdAt, a.id)) := by
    rw [Bool.eq_iff_iff]
    simp only [Bool.or_eq_true, Bool.and_eq_true, decide_eq_true_eq, beq_iff_eq,
      Prod.Lex.toLex_le_toLex, @eq_comm _ a.createdAt]
  simp only [listedBefore, ha, hb, Level.number, Data.compareNumbers?, htimes, rank_of_whole ha,
    rank_of_whole hb, Prod.Lex.toLex_le_toLex]
  rcases lt_trichotomy p q with hlt | rfl | hgt
  · simp [compare_lt_iff_lt.mpr hlt, hlt.ne', hlt.not_gt]
  · simp
  · simp [compare_gt_iff_gt.mpr hgt, hgt]

theorem mem_listing (store : Store) (status : Option Status) (type : Option String) (r : Record) :
    r ∈ store.listing status type ↔
      r ∈ store.records ∧ (∀ x ∈ status, r.status = x) ∧ ∀ name ∈ type, r.type = name := by
  have hall {α : Type} [DecidableEq α] (wanted : Option α) (x : α) :
      wanted.all (· == x) = true ↔ ∀ y ∈ wanted, x = y := by
    cases wanted with
    | none => simp
    | some y => simpa using eq_comm
  simp only [listing, List.mem_mergeSort, List.mem_filter, Bool.and_eq_true, hall]

theorem perm_listing (store : Store) (status : Option Status) (type : Option String) :
    (store.listing status type).Perm (store.records.filter fun r =>
      status.all (· == r.status) && type.all (· == r.type)) := List.mergeSort_perm _ _

theorem nodup_ids_listing (hw : store.WellFormed) (status : Option Status)
    (type : Option String) : ((store.listing status type).map Record.id).Nodup := by
  have hperm := (perm_listing store status type).map Record.id
  rw [hperm.nodup_iff]
  exact hw.ids.sublist (List.filter_sublist.map Record.id)

/-- The listing of regular records descends strictly. -/
theorem Store.Regular.pairwise_listing (h : store.Regular items) (status : Option Status)
    (type : Option String) : (store.listing status type).Pairwise fun a b => b.rank < a.rank := by
  have hids := List.pairwise_map.mp (nodup_ids_listing h.wellFormed status type)
  have hsort : store.listing status type = ((store.records.filter fun r =>
      status.all (· == r.status) && type.all (· == r.type)).mergeSort
        fun a b => decide (b.rank ≤ a.rank)) := by
    have hsame := List.map_mergeSort (f := id) (r := listedBefore)
      (s := fun a b => decide (b.rank ≤ a.rank)) (l := store.records.filter fun r =>
        status.all (· == r.status) && type.all (· == r.type)) fun a ha b hb => ?_
    · unfold listing
      simpa only [List.map_id] using hsame
    · obtain ⟨p, hp⟩ := (h.regular a (List.mem_of_mem_filter ha)).whole
      obtain ⟨q, hq⟩ := (h.regular b (List.mem_of_mem_filter hb)).whole
      exact listedBefore_eq hp hq
  have hsorted : (store.listing status type).Pairwise fun a b => b.rank ≤ a.rank := by
    rw [hsort]
    exact List.pairwise_mergeSort' (fun a b : Record => a.rank ≥ b.rank) _
  refine (hsorted.and hids).imp fun ⟨hle, hne⟩ => lt_of_le_of_ne hle fun heq => hne ?_
  exact (congrArg (fun rank => (ofLex (ofLex rank).2).2) heq).symm

-- ---------------------------------------------------------------------------
-- Handing out
-- ---------------------------------------------------------------------------

theorem entry_copied (he : r.entry = .ok e) : e.id = .int r.id ∧ e.type = .text r.type ∧
    e.status = r.status ∧ e.priority = r.priority.toData := by
  rw [entry_eq] at he
  obtain ⟨createdAt, -, he⟩ := bind_ok.mp he
  obtain ⟨completedAt, -, he⟩ := bind_ok.mp he
  cases he
  exact ⟨rfl, rfl, rfl, rfl⟩

/-- The time of an entry that the journal wrote is the one of its stamp. -/
theorem instant_entry (hcreated : Time.Moment.stamp? created = some r.createdAt)
    (he : r.entry = .ok e) : e.createdAt.instant = created.millis * 1000 := by
  obtain ⟨moment, hread, hinstant⟩ := Time.Iso.read_stamp_instant hcreated
  rw [entry_eq] at he
  obtain ⟨createdAt, hstamp, he⟩ := bind_ok.mp he
  obtain ⟨completedAt, -, he⟩ := bind_ok.mp he
  cases he
  simp only [readStamp, hread, Except.mapError, Except.ok.injEq] at hstamp
  exact hstamp ▸ hinstant

theorem above_of_rank (ha : IsStamp a.createdAt) (hb : IsStamp b.createdAt)
    (hp : a.priority = .whole p) (hq : b.priority = .whole q) (hea : a.entry = .ok e)
    (heb : b.entry = .ok e') (hrank : b.rank < a.rank) : e.Above e' := by
  obtain ⟨moment, hmoment⟩ := ha
  obtain ⟨moment', hmoment'⟩ := hb
  obtain ⟨hid, -, -, hpriority⟩ := entry_copied hea
  obtain ⟨hid', -, -, hpriority'⟩ := entry_copied heb
  rw [hp] at hpriority
  rw [hq] at hpriority'
  refine ⟨p, q, a.id, b.id, hpriority, hpriority', hid, hid', ?_⟩
  rw [rank_of_whole hp, rank_of_whole hq] at hrank
  simp only [Prod.Lex.toLex_lt_toLex, Time.Moment.stamp_lt_iff hmoment' hmoment,
    Time.Moment.stamp_inj hmoment' hmoment] at hrank
  simp only [Prod.Lex.toLex_lt_toLex, instant_entry hmoment hea, instant_entry hmoment' heb]
  omega

theorem mapM_entry (h : ∀ r ∈ records, ∃ e, r.entry = .ok e) :
    ∃ entries, records.mapM Record.entry = .ok entries ∧
      records.map Record.entry = entries.map .ok := by
  induction records with
  | nil => exact ⟨[], rfl, rfl⟩
  | cons r rest ih =>
    obtain ⟨⟨e, he⟩, hrest⟩ := List.forall_mem_cons.mp h
    obtain ⟨entries, hmapM, hmap⟩ := ih hrest
    refine ⟨e :: entries, ?_, by rw [List.map_cons, List.map_cons, he, hmap]⟩
    rw [List.mapM_cons, he, hmapM]
    rfl

/-- What holds of records in order holds of their entries. -/
theorem pairwise_entries {R : Record → Record → Prop} {S : Entry → Entry → Prop}
    (hentries : records.map Record.entry = entries.map .ok) (h : records.Pairwise R)
    (hRS : ∀ a ∈ records, ∀ b ∈ records, ∀ e e', a.entry = .ok e → b.entry = .ok e' → R a b →
      S e e') : entries.Pairwise S := by
  have hmap : (records.map Record.entry).Pairwise fun x y =>
      ∀ e e', x = .ok e → y = .ok e' → S e e' :=
    List.pairwise_map.mpr (h.imp_of_mem fun ha hb hab e e' he he' =>
      hRS _ ha _ hb e e' he he' hab)
  rw [hentries, List.pairwise_map] at hmap
  exact hmap.imp fun h => h _ _ rfl rfl

theorem ok_injective : Function.Injective (Except.ok : α → Except ε α) := fun _ _ => Except.ok.inj

/-- Entries can be picked in place of their records. -/
theorem filter_entries {p : Record → Bool} {q : Entry → Bool}
    (h : records.map Record.entry = entries.map .ok)
    (hpq : ∀ r ∈ records, ∀ e, r.entry = .ok e → p r = q e) :
    (records.filter p).map Record.entry = (entries.filter q).map .ok := by
  have hsame : ∀ r ∈ records, p r = ((fun result => (Except.toOption result).any q) ∘
      Record.entry) r := by
    intro r hr
    have hmem : r.entry ∈ entries.map .ok := h ▸ List.mem_map_of_mem hr
    obtain ⟨e, -, he⟩ := List.mem_map.mp hmem
    rw [hpq r hr e he.symm, Function.comp_apply, ← he]
    rfl
  rw [List.filter_congr hsame, ← List.filter_map, h, List.filter_map]
  rfl

theorem countP_entries {p : Record → Bool} {q : Entry → Bool}
    (h : records.map Record.entry = entries.map .ok)
    (hpq : ∀ r ∈ records, ∀ e, r.entry = .ok e → p r = q e) :
    records.countP p = entries.countP q := by
  have hlength := congrArg List.length (filter_entries h hpq)
  rw [List.length_map, List.length_map] at hlength
  rw [List.countP_eq_length_filter, List.countP_eq_length_filter, hlength]

theorem perm_statuses (l : List Entry) :
    (Status.all.flatMap fun x => l.filter (·.status = x)).Perm l := by
  simp only [Status.all, List.flatMap_cons, List.flatMap_nil, List.append_nil]
  induction l with
  | nil => exact .nil
  | cons e rest ih =>
    cases hstatus : e.status with
    | active => simpa [hstatus] using ih
    | completed =>
      simp only [hstatus, List.filter_cons, reduceCtorEq, decide_true, decide_false, if_true,
        Bool.false_eq_true, if_false]
      exact List.perm_middle.trans (ih.cons e)
    | cancelled =>
      simp only [hstatus, List.filter_cons, reduceCtorEq, decide_true, decide_false, if_true,
        Bool.false_eq_true, if_false]
      rw [← List.append_assoc] at ih ⊢
      exact List.perm_middle.trans (ih.cons e)

theorem Store.Regular.lists (h : store.Regular items) (status : Option Status)
    (type : Option String)
    (hentries : (store.listing status (type.map Text.upper)).map Record.entry = entries.map .ok) :
    store.Lists status type (store.listing status (type.map Text.upper)) entries := by
  have hmember {r : Record} (hr : r ∈ store.listing status (type.map Text.upper)) :
      r ∈ store.records := ((mem_listing _ _ _ _).mp hr).1
  refine ⟨hentries, ?once, ?members, h.pairwise_listing _ _, ?descending⟩
  case once => exact .of_map _ (nodup_ids_listing h.wellFormed status (type.map Text.upper))
  case members =>
    intro r
    rw [mem_listing]
    simp
  case descending =>
    refine pairwise_entries hentries (h.pairwise_listing _ _) ?_
    intro a ha b hb e e' he he' hrank
    obtain ⟨p, hp⟩ := (h.regular a (hmember ha)).whole
    obtain ⟨q, hq⟩ := (h.regular b (hmember hb)).whole
    exact above_of_rank (h.createdAt a (hmember ha)) (h.createdAt b (hmember hb)) hp hq he he' hrank

-- ---------------------------------------------------------------------------
-- Runs
-- ---------------------------------------------------------------------------

theorem list_numbers {n k : Int} (hn : fits n = true) (hk : fits k = true) (store : Store)
    (status : Option Status) (type : Option String) :
    store.list (.int n) (.int k) status type = .ok (page (store.listing status type) n k) := by
  have hcell (index : Nat) {m : Int} (hm : fits m = true) :
      Cell.ofData index (.int m) = .ok (.int m) := by simp [Cell.ofData, hm]
  have hbound (m : Int) : Store.pageBound (.int m) = .ok m := rfl
  simp only [Store.list, hcell _ hn, hcell _ hk, hbound, bind, Except.bind]
  split
  · rename_i hzero
    obtain rfl : n = 0 := by simpa using hzero
    simp [page]
  · rfl

theorem run_query {statement : Store → Except Fault α} (h : statement s.store = .ok x) :
    (query statement).run s = .ok x s.settled :=
  run_change_ok.mpr ⟨s.store, by rw [h]; rfl, rfl⟩

/-- On tables that only the journal wrote, every page of a listing is handed out. -/
theorem run_list {n k : Int} (hn : fits n = true) (hk : fits k = true) (hown : s.store.Own)
    (status : Option Status) (type : Option String) :
    ∃ entries t, (list (.int n) (.int k) status (.ofOption type)).run s = .ok entries t ∧
      t.store = s.store ∧
      (page (s.store.listing status (type.map Text.upper)) n k).map Record.entry =
        entries.map .ok := by
  have hlist := list_numbers hn hk s.store status (type.map Text.upper)
  generalize page (s.store.listing status (type.map Text.upper)) n k = records at hlist ⊢
  obtain ⟨entries, hmapM, hentries⟩ := mapM_entry fun r hr => hown.entry (mem_of_list hlist hr)
  have hfilter : Store.typeFilter (.ofOption type) = .ok (type.map Text.upper) := by
    cases type <;> rfl
  have hquery (u : Session) (hu : u.store = s.store) :
      (query (fun store => store.list (.int n) (.int k) status (type.map Text.upper)) >>=
        fun records => liftExcept (records.mapM Record.entry)).run u = .ok entries u.settled :=
    run_bind_ok.mpr ⟨records, u.settled, run_query (hu ▸ hlist), run_liftExcept_ok.mpr ⟨hmapM, rfl⟩⟩
  have hrun : ∃ t, (list (.int n) (.int k) status (.ofOption type)).run s = .ok entries t ∧
      t.store = s.store := by
    simp only [list, EStateM.run_bind, run_liftExcept, hfilter]
    split
    · have hcell : Cell.ofData 1 (.int n) = .ok (.int n) := by simp [Cell.ofData, hn]
      obtain ⟨connection, hparameter⟩ := run_parameter_of_cell .page (s := s) hcell
      exact ⟨_, run_bind_ok.mpr ⟨(), _, hparameter, hquery _ rfl⟩, rfl⟩
    · exact ⟨_, hquery s rfl, rfl⟩
  obtain ⟨t, hrun, hstore⟩ := hrun
  exact ⟨entries, t, hrun, hstore, hentries⟩

/-- Without a limit all of a listing is handed out. -/
theorem run_list_whole (hown : s.store.Own) (status : Option Status) (type : Option String) :
    ∃ entries t, (list (.int (-1)) (.int 0) status (.ofOption type)).run s = .ok entries t ∧
      t.store = s.store ∧
      (s.store.listing status (type.map Text.upper)).map Record.entry = entries.map .ok := by
  obtain ⟨entries, t, hrun, hstore, hentries⟩ :=
    run_list (n := -1) (k := 0) (by decide) (by decide) hown status type
  refine ⟨entries, t, hrun, hstore, ?_⟩
  rw [← hentries]
  simp [page]

end Marginalia.Journal
