import Marginalia.Proofs.Journal.Listing

/-!
# Pages and parts of listings

A listing can be asked for in pages, and for one status at a time. As the order of a listing is
strict, both cut the whole listing up: behind each other the pages are the listing, and what has one
status stands in its own listing as it stands in the whole one. The records come in the order of
their numbers as far as their priorities are equal, if only the clock never goes back. That is
an invariant of histories: who has the greater number was created no earlier.
-/

namespace Marginalia.Journal

open Store (Wrote)

/-- The pages of a listing from a place on, all of one size, as a client asks for them one after the
other. -/
def pagesFrom (size : Nat) (status : Option Status) (type : Option String) :
    (start count : Nat) → JournalM (List (List Entry))
  | _, 0 => pure []
  | start, count + 1 => do
    let page ← list (.int size) (.int start) status (.ofOption type)
    let rest ← pagesFrom size status type (start + size) count
    return page :: rest

/-- A list cut into pages. -/
def pagesOf (size : Nat) : (count : Nat) → List α → List (List α)
  | 0, _ => []
  | count + 1, l => l.take size :: pagesOf size count (l.drop size)

/-- One entry has a greater number than another one if they have one priority. -/
def Entry.Newer (a b : Entry) : Prop :=
  ∃ m n : Int, a.id = .int m ∧ b.id = .int n ∧ (a.priority = b.priority → n < m)

/-- The listings of a type, or of all types, as a session hands them out, with the pages and the
statuses into which they fall. -/
structure Session.ListsAll (s : Session) (type : Option String)
    (entriesOf : Option Status → List Entry) : Prop where
  listed : ∀ status, ∃ records t,
    (list (.int (-1)) (.int 0) status (.ofOption type)).run s = .ok (entriesOf status) t ∧
      s.store.Lists status type records (entriesOf status)
  paged : ∀ status (size count : Nat), 1 ≤ size → fits size = true →
    (∀ i < count, fits (i * size : Nat) = true) →
      ∃ t, (pagesFrom size status type 0 count).run s =
          .ok (pagesOf size count (entriesOf status)) t ∧
        ((entriesOf status).length ≤ count * size →
          (pagesOf size count (entriesOf status)).flatten = entriesOf status)
  /-- The numbers of pages that are needed can be asked for. -/
  reached : ∀ status (size : Nat), 1 ≤ size →
    ∃ count, (∀ i < count, fits (i * size : Nat) = true) ∧
      (entriesOf status).length ≤ count * size
  part : ∀ x, entriesOf (some x) = (entriesOf none).filter (·.status = x)
  parts : (Status.all.flatMap fun x => entriesOf (some x)).Perm (entriesOf none)

variable {s t u : Session} {store store' : Store} {items : List Observation} {a b r : Record}
variable {records : List Record} {e e' : Entry} {entries : List Entry}

-- ---------------------------------------------------------------------------
-- Pages
-- ---------------------------------------------------------------------------

theorem flatten_pagesOf (size count : Nat) (l : List α) :
    (pagesOf size count l).flatten = l.take (count * size) := by
  induction count generalizing l with
  | zero => simp [pagesOf]
  | succ count ih =>
    rw [pagesOf, List.flatten_cons, ih, Nat.succ_mul, Nat.add_comm, List.take_add]

theorem run_pagesFrom {size : Nat} (hown : s.store.Own) (hsize : fits size = true)
    (hentries : (s.store.listing status (type.map Text.upper)).map Record.entry =
      entries.map .ok) (hstarts : ∀ i < count, fits (start + i * size : Nat) = true) :
    ∃ t, (pagesFrom size status type start count).run s =
      .ok (pagesOf size count (entries.drop start)) t := by
  induction count generalizing s start with
  | zero => exact ⟨s, rfl⟩
  | succ count ih =>
    have hstart : fits start = true := by simpa using hstarts 0 (Nat.succ_pos count)
    obtain ⟨page, t, hrun, hstore, hpage⟩ := run_list hsize hstart hown status type
    have hnext : ∀ i < count, fits (start + size + i * size : Nat) = true := fun i hi => by
      have hplace : start + size + i * size = start + (i + 1) * size := by
        rw [Nat.succ_mul]
        omega
      rw [hplace]
      exact hstarts (i + 1) (by omega)
    rw [← hstore] at hown hentries
    obtain ⟨u, hrest⟩ := ih hown hentries hnext
    have hcut : page = (entries.drop start).take size := by
      have hmap : page.map (.ok : Entry → Except Fault Entry) =
          ((entries.drop start).take size).map .ok := by
        rw [← hpage, List.map_take, List.map_drop, ← hentries, hstore, Store.page,
          if_neg (by omega), List.map_take, List.map_drop, Int.toNat_natCast, Int.toNat_natCast]
      exact (List.map_inj_right ok_injective).mp hmap
    refine ⟨u, run_bind_ok.mpr ⟨page, t, hrun, run_bind_ok.mpr ⟨_, u, hrest, ?_⟩⟩⟩
    rw [pagesOf, hcut, List.drop_drop]
    rfl

/-- The places up to the end of any list of the tables have 64 bits. -/
theorem fits_starts (h : store.Regular items) (size : Nat) (hle : n ≤ store.records.length) :
    ∀ i < n / size + 1, fits (i * size : Nat) = true := by
  intro i hi
  have hplace : i * size ≤ n :=
    (Nat.mul_le_mul_right size (Nat.lt_succ_iff.mp hi)).trans (Nat.div_mul_le_self n size)
  have hbound := h.bounded
  rw [h.lastNumber] at hbound
  have hleast : leastInt < 0 := by decide
  simp only [fits, Bool.and_eq_true, decide_eq_true_eq]
  omega

-- ---------------------------------------------------------------------------
-- Statuses
-- ---------------------------------------------------------------------------

/-- A listing of one status is what has that status in the listing of all. -/
theorem Store.Regular.listing_status (h : store.Regular items) (x : Status)
    (type : Option String) :
    store.listing (some x) type = (store.listing none type).filter (·.status = x) := by
  have hids (status : Option Status) : (store.listing status type).Nodup :=
    .of_map _ (nodup_ids_listing h.wellFormed status type)
  refine List.Perm.eq_of_pairwise ?_ (h.pairwise_listing _ _)
    ((h.pairwise_listing _ _).sublist List.filter_sublist) ?_
  · intro a b _ _ hab hba
    exact absurd (hab.trans hba) (lt_irrefl _)
  · refine (List.perm_ext_iff_of_nodup (hids _) ((hids _).filter _)).mpr fun r => ?_
    rw [List.mem_filter, mem_listing, mem_listing]
    constructor
    · rintro ⟨hr, hstatus, htype⟩
      exact ⟨⟨hr, nofun, htype⟩, decide_eq_true (hstatus x rfl)⟩
    · rintro ⟨⟨hr, -, htype⟩, hstatus⟩
      refine ⟨hr, ?_, htype⟩
      rintro _ ⟨⟩
      exact of_decide_eq_true hstatus

-- ---------------------------------------------------------------------------
-- All listings
-- ---------------------------------------------------------------------------

/-- On tables that only the journal wrote, what every listing hands out is settled. -/
theorem Store.Regular.listsAll (h : store.Regular items) (hstore : s.store = store)
    (type : Option String) : ∃ entriesOf, s.ListsAll type entriesOf := by
  subst hstore
  have hown : s.store.Own := h.toOwn
  choose entriesOf hrun using fun status => run_list_whole hown status type
  have hentries (status : Option Status) : (s.store.listing status (type.map Text.upper)).map
      Record.entry = (entriesOf status).map .ok := by
    obtain ⟨t, -, -, hmap⟩ := hrun status
    exact hmap
  have hpart (x : Status) : entriesOf (some x) = (entriesOf none).filter (·.status = x) := by
    have hmap := filter_entries (p := (·.status = x)) (q := (·.status = x)) (hentries none)
      fun r _ e he => by rw [(entry_copied he).2.2.1]
    rw [← h.listing_status, hentries] at hmap
    exact (List.map_inj_right ok_injective).mp hmap
  refine ⟨entriesOf, ?listed, ?paged, ?reached, hpart, ?parts⟩
  case listed =>
    intro status
    obtain ⟨t, hlist, -, -⟩ := hrun status
    exact ⟨_, t, hlist, h.lists status type (hentries status)⟩
  case paged =>
    intro status size count _ hsize hstarts
    have hplaces : ∀ i < count, fits (0 + i * size : Nat) = true := by simpa using hstarts
    obtain ⟨t, hpages⟩ := run_pagesFrom hown hsize (hentries status) hplaces
    refine ⟨t, by simpa using hpages, fun hlength => ?_⟩
    rw [flatten_pagesOf, List.take_of_length_le hlength]
  case reached =>
    intro status size hsize
    have hlength : (entriesOf status).length ≤ s.store.records.length := by
      have hmap := congrArg List.length (hentries status)
      have hfilter := (perm_listing s.store status (type.map Text.upper)).length_eq
      rw [List.length_map, List.length_map] at hmap
      rw [← hmap, hfilter]
      exact List.length_filter_le _ _
    refine ⟨_, fits_starts h size hlength, ?_⟩
    rw [Nat.succ_mul]
    have := Nat.div_add_mod' (entriesOf status).length size
    have := Nat.mod_lt (entriesOf status).length hsize
    omega
  case parts =>
    simp only [hpart]
    exact perm_statuses _

-- ---------------------------------------------------------------------------
-- Numbers and times
-- ---------------------------------------------------------------------------

/-- A record with a greater number was created no earlier. -/
def Store.Chronological (store : Store) : Prop :=
  ∀ a ∈ store.records, ∀ b ∈ store.records, a.id ≤ b.id → a.createdAt ≤ b.createdAt

theorem Store.Chronological.map {f : Record → Record} (h : store.Chronological)
    (hid : ∀ r, (f r).id = r.id) (hcreated : ∀ r, (f r).createdAt = r.createdAt) :
    Chronological { store with records := store.records.map f } := by
  refine List.forall_mem_map.mpr fun a ha => List.forall_mem_map.mpr fun b hb => ?_
  rw [hid, hid, hcreated, hcreated]
  exact h a ha b hb

theorem Store.Chronological.append (h : store.Chronological) (htimely : store.Timely s.now)
    (hstamp : s.stamp = .ok r.createdAt) (hid : r.id = store.lastNumber + 1) (counter : Int) :
    Chronological { store with records := store.records ++ [r], counter } := by
  have hpast : ∀ a ∈ store.records, a.createdAt ≤ r.createdAt := by
    intro a ha
    obtain ⟨created, hcreated, hle, -⟩ := htimely a ha
    rw [Time.Moment.stamp_le_iff hcreated (stamp_ok.mp hstamp)]
    exact Int.ediv_le_ediv (by decide) hle
  intro a ha b hb hab
  rcases List.mem_append.mp ha with ha | ha <;> rcases List.mem_append.mp hb with hb | hb
  · exact h a ha b hb hab
  · rw [List.mem_singleton.mp hb]
    exact hpast a ha
  · have hlast := id_le_lastNumber hb
    rw [List.mem_singleton.mp ha, hid] at hab
    omega
  · rw [List.mem_singleton.mp ha, List.mem_singleton.mp hb]

theorem Store.Chronological.wrote (h : store.Chronological) (htimely : store.Timely s.now)
    (hwrote : Wrote s.stamp items store store') : store'.Chronological := by
  induction hwrote with
  | nothing => exact h
  | upsert hbefore hwrite ih =>
    obtain ⟨title, -, ⟨r, -, -, rfl⟩ | ⟨createdAt, -, hstamp, -, -, rfl⟩⟩ := upsert_ok hwrite
    · exact (ih h htimely).map (KeepsKeys.ite keepsKeys_refresh).id fun x => by
        split
        · exact (keepsTimes_refresh title _).createdAt x
        · rfl
    · exact (ih h htimely).append (htimely.wrote hbefore) hstamp rfl _
  | complete _ hstamp ih =>
    exact (ih h htimely).map (fun x => by split <;> rfl) fun x => by split <;> rfl
  | cancel _ hwrite ih =>
    obtain ⟨r, -, -, -, rfl⟩ := cancel_ok hwrite
    exact (ih h htimely).map (fun x => by split <;> rfl) fun x => by split <;> rfl

theorem preserved_chronological :
    Preserved (fun a b => a.instant ≤ b.instant) fun now items store =>
      store.Regular items ∧ store.Timely now ∧ store.Chronological where
  own h := h.1.toOwn
  wrote _ h hwrote := ⟨h.1.wrote hwrote, h.2.1.wrote hwrote, h.2.2.wrote h.2.1 hwrote⟩
  version h := ⟨h.1.version _, h.2⟩
  later hle h := ⟨h.1, fun r hr => (h.2.1 r hr).later hle, h.2.2⟩

/-- Of two records of one priority, the one that stands above has the greater number: it was not
created earlier. -/
theorem Store.Chronological.newer (h : store.Chronological) (ha : a ∈ store.records)
    (hb : b ∈ store.records) (hp : a.priority = .whole p) (hq : b.priority = .whole q)
    (he : a.entry = .ok e) (he' : b.entry = .ok e') (hrank : b.rank < a.rank) : e.Newer e' := by
  obtain ⟨hid, -, -, hpriority⟩ := entry_copied he
  obtain ⟨hid', -, -, hpriority'⟩ := entry_copied he'
  refine ⟨a.id, b.id, hid, hid', fun heq => ?_⟩
  obtain rfl : p = q := by simpa [hpriority, hpriority', hp, hq, Level.toData] using heq
  rw [rank_of_whole hp, rank_of_whole hq] at hrank
  simp only [Prod.Lex.toLex_lt_toLex, lt_irrefl, false_or, true_and] at hrank
  rcases hrank with hearlier | ⟨-, hless⟩
  · by_contra hle
    exact absurd (h a ha b hb (not_lt.mp hle)) (not_le.mpr hearlier)
  · exact hless

theorem newer_of_list (hregular : store.Regular items) (hchronological : store.Chronological)
    (hstore : u.store = store)
    (hrun : (list (.int (-1)) (.int 0) status (.ofOption type)).run u = .ok entries t) :
    entries.Pairwise Entry.Newer := by
  subst hstore
  obtain ⟨entries', t', hrun', -, hentries⟩ := run_list_whole hregular.toOwn status type
  obtain ⟨rfl, -⟩ := EStateM.Result.ok.inj (hrun'.symm.trans hrun)
  refine pairwise_entries hentries (hregular.pairwise_listing _ _) ?_
  intro a ha b hb e e' he he' hrank
  have hmem := ((mem_listing _ _ _ _).mp ha).1
  have hmem' := ((mem_listing _ _ _ _).mp hb).1
  obtain ⟨p, hp⟩ := (hregular.regular a hmem).whole
  obtain ⟨q, hq⟩ := (hregular.regular b hmem').whole
  exact hchronological.newer hmem hmem' hp hq he he' hrank

/-- In every run of a new journal, all that listings hand out is settled by what the tables hold,
and pages and statuses cut it up. If moreover the clock never goes back, records of one priority
come in the order of their numbers, the greatest first. -/
theorem listings_along_run (p : Program) (types : List String) (now : Time.Moment) :
    (∀ s ∈ p.sessions types now, ∀ u : Session, u.store = s.store →
      ∀ type, ∃ entriesOf, u.ListsAll type entriesOf) ∧
    ((p.sessions types now).Pairwise (fun s t => s.now.instant ≤ t.now.instant) →
      ∀ s ∈ p.sessions types now, ∀ u : Session, u.store = s.store →
        ∀ status type entries t,
          (list (.int (-1)) (.int 0) status (.ofOption type)).run u = .ok entries t →
            entries.Pairwise Entry.Newer) := by
  rw [← map_session_history]
  constructor
  · refine List.forall_mem_map.mpr fun point hpoint u hu type => ?_
    have hlater : (p.sessions types now).Pairwise fun _ _ => True :=
      List.pairwise_of_forall fun _ _ => trivial
    have hregular := (preserved_regular.history Store.regular_fresh p hlater point hpoint).used
    exact hregular.listsAll hu type
  · intro hlater
    refine List.forall_mem_map.mpr fun point hpoint u hu status type entries t hrun => ?_
    rw [map_session_history] at hlater
    have hfresh := preserved_chronological.history
      ⟨Store.regular_fresh, List.forall_mem_nil _, List.forall_mem_nil _⟩ p hlater point hpoint
    obtain ⟨hregular, -, hchronological⟩ := hfresh.used
    exact newer_of_list hregular hchronological hu hrun

-- ---------------------------------------------------------------------------
-- Two scans
-- ---------------------------------------------------------------------------

/-- Two scans, the second one a millisecond after the first one and with other remarks. -/
def twoScans : Program :=
  .seq (.leaf (.call (.sync [remarkAt 1 "TODO" "one" .normal, remarkAt 2 "BUG" "two" .high])))
    (.seq (.leaf (.wait ⟨⟨2024, 5, 6⟩, ⟨12, 0, 0, 1000⟩, some 0⟩))
      (.leaf (.call (.sync [remarkAt 1 "TODO" "one" .normal, remarkAt 3 "TODO" "three" .normal]))))

theorem listings_along_run_twoScans : ∃ s ∈ twoScans.sessions usedJournal.tags usedJournal.now,
    s.store.records.map Record.status = [.active, .completed, .active] ∧
      ∃ entriesOf, s.ListsAll none entriesOf ∧ (entriesOf none).Pairwise Entry.Newer := by
  have hclock : (twoScans.sessions usedJournal.tags usedJournal.now).Pairwise
      fun s t => s.now.instant ≤ t.now.instant := by decide +kernel
  obtain ⟨hlists, hnewer⟩ := listings_along_run twoScans usedJournal.tags usedJournal.now
  generalize hs : (twoScans.sessions usedJournal.tags usedJournal.now).getLast
    (List.cons_ne_nil _ _) = s
  have hmem : s ∈ twoScans.sessions usedJournal.tags usedJournal.now := hs ▸ List.getLast_mem _
  refine ⟨s, hmem, hs ▸ by decide +kernel, ?_⟩
  obtain ⟨entriesOf, hall⟩ := hlists s hmem s rfl none
  obtain ⟨records, t, hrun, -⟩ := hall.listed none
  exact ⟨entriesOf, hall, hnewer hclock s hmem s rfl none none _ t hrun⟩

end Marginalia.Journal
