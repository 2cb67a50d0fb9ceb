import Marginalia.Proofs.Journal.Success
import Marginalia.Proofs.Journal.Sync

/-!
# Scans that go through

Whether a scan ends well depends on the clock, on what its observations say, and on the tables as
they are before it. The tables have to have numbers for the new records, and the known records that
the scan takes up have to be ones that can be handed out. The induction is on the observations:
that an observation is accepted, and the rest is admitted behind it, is that all are admitted.
-/

namespace Marginalia.Journal

open Store (refresh)

/-- A record that can be handed out once a scan took it up. The completion time of a completed one
is gone by then. -/
structure Record.Presentable (r : Record) : Prop where
  number : fits r.id = true
  created : ∃ moment, readStamp (.text r.createdAt) = .ok moment
  completed : r.status ≠ .completed →
    ∃ moment, readCompletion (.ofOption r.completedAt) = .ok moment

/-- Tables that can take one observation in. -/
structure Store.Accepts (store : Store) (o : Observation) : Prop where
  title : o.title?.isSome
  known : ∀ r ∈ store.records, r.sourceKey = o.fingerprint → r.Presentable
  room : o.fingerprint ∉ store.known → store.lastNumber < greatestInt

/-- Tables that can take observations in one by one. -/
structure Store.Admits (store : Store) (scan : List Observation) : Prop where
  titles : ∀ o ∈ scan, o.title?.isSome
  known : ∀ o ∈ scan, ∀ r ∈ store.records, r.sourceKey = o.fingerprint → r.Presentable
  room : newcomers store.known scan ≠ [] →
    store.lastNumber + (newcomers store.known scan).length ≤ greatestInt

/-- A session in which a scan goes through. -/
structure Session.Ready (s : Session) (items : List Observation) : Prop where
  clock : ∃ now, s.stamp = .ok now
  types : ∀ o ∈ items, o.type?.isSome
  admits : s.store.Admits (journaled s.tags items)

variable {s t u : Session} {store store' : Store} {o : Observation} {rest items : List Observation}
variable {r : Record}

-- ---------------------------------------------------------------------------
-- Records that can be handed out
-- ---------------------------------------------------------------------------

theorem entry_ok : (∃ e, r.entry = .ok e) ↔
    (∃ moment, readStamp (.text r.createdAt) = .ok moment) ∧
      ∃ moment, readCompletion (.ofOption r.completedAt) = .ok moment := by
  simp only [entry_eq, bind_ok]
  constructor
  · rintro ⟨_, createdAt, hcreated, completedAt, hcompleted, -⟩
    exact ⟨⟨createdAt, hcreated⟩, completedAt, hcompleted⟩
  · rintro ⟨⟨createdAt, hcreated⟩, completedAt, hcompleted⟩
    exact ⟨_, createdAt, hcreated, completedAt, hcompleted, rfl⟩

theorem presentable_iff (h : r.status ≠ .completed) :
    r.Presentable ↔ fits r.id = true ∧ ∃ e, r.entry = .ok e := by
  rw [entry_ok]
  exact ⟨fun hr => ⟨hr.number, hr.created, hr.completed h⟩,
    fun ⟨number, created, completed⟩ => ⟨number, created, fun _ => completed⟩⟩

theorem status_refresh (title : String) (o : Observation) (r : Record) :
    (refresh title o r).status ≠ .completed := by
  by_cases h : r.status = .completed <;> simp [refresh, h]

theorem presentable_refresh {title : String} :
    (refresh title o r).Presentable ↔ r.Presentable := by
  by_cases h : r.status = .completed
  · rw [Store.refresh_completed h]
    exact ⟨fun hr => ⟨hr.number, hr.created, fun hopen => absurd h hopen⟩,
      fun hr => ⟨hr.number, hr.created, fun _ => ⟨none, rfl⟩⟩⟩
  · rw [Store.refresh_open h]
    exact ⟨fun hr => ⟨hr.number, hr.created, hr.completed⟩,
      fun hr => ⟨hr.number, hr.created, hr.completed⟩⟩

theorem presentable_begun {n : Int} {type title stamp : String} (hstamp : IsStamp stamp) :
    (Record.begun n type stamp title o).Presentable ↔ fits n = true :=
  ⟨fun hr => hr.number, fun hn =>
    ⟨hn, (readStamp_ok hstamp).imp fun _ h => h.1, fun _ => ⟨none, rfl⟩⟩⟩

theorem fits_next : fits (store.lastNumber + 1) = true ↔ store.lastNumber < greatestInt := by
  have hpos : 0 ≤ store.lastNumber := Store.lastNumber_nonneg
  have hleast : leastInt < 0 := by decide
  simp only [fits, Bool.and_eq_true, decide_eq_true_eq]
  omega

-- ---------------------------------------------------------------------------
-- One observation
-- ---------------------------------------------------------------------------

/-- What stands in the tables for an observation that was taken in. -/
theorem accepts_iff (hw : store.WellFormed) (hstamp : IsStamp stamp)
    (h : store.upsert (.ok stamp) type o = .ok (done, store'))
    (hr : store'.ofId? done.1 = some r) :
    store.Accepts o ↔ fits done.1 = true ∧ ∃ e, r.entry = .ok e := by
  obtain ⟨title, htitle, hrecord⟩ := hw.ofId?_upsert h
  have htitle' : o.title?.isSome := by simp [htitle]
  rcases hrecord with ⟨r', hmem, hkey, hdone, hr'⟩ | ⟨_, hnow, hnone, hroom, hdone, hr'⟩
  · cases hr.symm.trans hr'
    have hknown : o.fingerprint ∈ store.known := List.mem_map.mpr ⟨r', hmem, hkey⟩
    have honly : ∀ x ∈ store.records, x.sourceKey = o.fingerprint → x = r' := fun x hx hxkey =>
      List.inj_on_of_nodup_map hw.keys hx hmem (hxkey.trans hkey.symm)
    rw [hdone, ← Store.keepsKeys_refresh.id r', ← presentable_iff (status_refresh title o r'),
      presentable_refresh]
    constructor
    · intro haccepts
      exact haccepts.known r' hmem hkey
    · intro hpresentable
      exact ⟨htitle', fun x hx hxkey => honly x hx hxkey ▸ hpresentable,
        fun hnew => absurd hknown hnew⟩
  · cases hr.symm.trans hr'
    cases hnow
    have hopen : (Record.begun (store.lastNumber + 1) type stamp title o).status ≠ .completed :=
      nofun
    have hnew : o.fingerprint ∉ store.known := by simp [Store.mem_known, hnone]
    have hothers := Store.ofKey?_eq_none.mp hnone
    have hpresentable := (presentable_iff hopen).symm.trans
      ((presentable_begun hstamp).trans fits_next)
    rw [hdone]
    refine Iff.trans ⟨fun haccepts => haccepts.room hnew, fun hlast => ?_⟩ hpresentable.symm
    exact ⟨htitle', fun x hx hxkey => absurd hxkey (hothers x hx), fun _ => hlast⟩

theorem Store.Accepts.upsert (h : store.Accepts o) (type stamp : String) :
    ∃ done store', store.upsert (.ok stamp) type o = .ok (done, store') := by
  obtain ⟨title, htitle⟩ := Option.isSome_iff_exists.mp h.title
  cases hkey : store.ofKey? o.fingerprint with
  | some r =>
    obtain ⟨kind, hupsert⟩ := upsert_shown htitle (.ok stamp) type hkey
    exact ⟨_, _, hupsert⟩
  | none =>
    have hnew : o.fingerprint ∉ store.known := by simp [mem_known, hkey]
    have hroom := h.room hnew
    exact ⟨_, _, upsert_begun htitle type stamp hkey (by omega)⟩

theorem exists_ofId?_upsert (hw : store.WellFormed)
    (h : store.upsert now type o = .ok (done, store')) :
    ∃ r, store'.ofId? done.1 = some r := by
  obtain ⟨title, -, ⟨r, -, -, -, hr⟩ | ⟨_, -, -, -, -, hr⟩⟩ := hw.ofId?_upsert h
  · exact ⟨_, hr⟩
  · exact ⟨_, hr⟩

/-- What the tables accept is taken in. -/
theorem run_upsert_accepted (hw : s.store.WellFormed) (hstamp : s.stamp = .ok stamp)
    (htype : o.type? = some type) (hkept : type ∈ s.tags) (h : s.store.Accepts o) :
    ∃ e t done, (upsert o).run s = .ok e t ∧
      s.store.upsert (.ok stamp) type o = .ok (done, t.store) ∧ s.SameFrame t := by
  obtain ⟨done, store, hupsert⟩ := h.upsert type stamp
  obtain ⟨r, hr⟩ := exists_ofId?_upsert hw hupsert
  obtain ⟨hfits, e, he⟩ := (accepts_iff hw (isStamp_of_stamp hstamp) hupsert hr).mp h
  obtain ⟨t, hrun, rfl, hframe⟩ := run_upsert_handed (type_ok.mpr htype)
    (List.contains_iff_mem.mpr hkept) (hstamp.symm ▸ hupsert) hr hfits he
  exact ⟨some e, t, done, hrun, hupsert, hframe⟩

-- ---------------------------------------------------------------------------
-- One observation in front
-- ---------------------------------------------------------------------------

theorem admits_nil (store : Store) : store.Admits [] :=
  ⟨List.forall_mem_nil _, List.forall_mem_nil _, fun hne => absurd rfl hne⟩

theorem admits_map {f : Record → Record} (hf : Store.KeepsKeys f)
    (hsame : ∀ r, (f r).Presentable ↔ r.Presentable) (scan : List Observation) :
    Store.Admits { store with records := store.records.map f } scan ↔ store.Admits scan := by
  have hknown (key : String) : (∀ r ∈ store.records.map f, r.sourceKey = key → r.Presentable) ↔
      ∀ r ∈ store.records, r.sourceKey = key → r.Presentable := by
    simp [hf.sourceKey, hsame]
  constructor
  · rintro ⟨titles, known, room⟩
    rw [Store.known_map hf, Store.lastNumber_map hf] at room
    exact ⟨titles, fun o ho => (hknown _).mp (known o ho), room⟩
  · rintro ⟨titles, known, room⟩
    rw [← Store.known_map hf, ← Store.lastNumber_map hf] at room
    exact ⟨titles, fun o ho => (hknown _).mpr (known o ho), room⟩

theorem Store.Admits.accepts (h : store.Admits (o :: rest)) : store.Accepts o := by
  refine ⟨h.titles o List.mem_cons_self, h.known o List.mem_cons_self, fun hnew => ?_⟩
  have hcons := newcomers_cons_new hnew rest
  have hroom := h.room (hcons ▸ List.cons_ne_nil _ _)
  rw [hcons, List.length_cons] at hroom
  omega

theorem admits_cons_known (hknown : o.fingerprint ∈ store.known) :
    store.Admits (o :: rest) ↔ store.Accepts o ∧ store.Admits rest := by
  constructor
  · intro h
    have haccepts := h.accepts
    obtain ⟨titles, known, room⟩ := h
    rw [newcomers_cons_known hknown] at room
    exact ⟨haccepts, (List.forall_mem_cons.mp titles).2, (List.forall_mem_cons.mp known).2, room⟩
  · rintro ⟨haccepts, titles, known, room⟩
    refine ⟨List.forall_mem_cons.mpr ⟨haccepts.title, titles⟩,
      List.forall_mem_cons.mpr ⟨haccepts.known, known⟩, ?_⟩
    rwa [newcomers_cons_known hknown]

theorem admits_cons_new (hnew : o.fingerprint ∉ store.known) (hid : r.id = store.lastNumber + 1)
    (hkey : r.sourceKey = o.fingerprint)
    (hpresentable : store.lastNumber < greatestInt → r.Presentable) :
    store.Admits (o :: rest) ↔ store.Accepts o ∧ Store.Admits { store with
      records := store.records ++ [r], counter := store.lastNumber + 1 } rest := by
  have hcons := newcomers_cons_new hnew rest
  have hafter := hkey ▸ Store.newcomers_append store (store.lastNumber + 1) r rest
  have hlast := Store.lastNumber_append store hid
  constructor
  · intro h
    have haccepts := h.accepts
    obtain ⟨titles, known, room⟩ := h
    rw [hcons, List.length_cons] at room
    have hroom := room (List.cons_ne_nil _ _)
    refine ⟨haccepts, (List.forall_mem_cons.mp titles).2, fun o' ho' => ?_, ?_⟩
    · exact List.forall_mem_append.mpr ⟨(List.forall_mem_cons.mp known).2 o' ho',
        List.forall_mem_singleton.mpr fun _ => hpresentable (haccepts.room hnew)⟩
    · rw [hafter, hlast]
      omega
  · rintro ⟨haccepts, titles, known, room⟩
    have hplace := haccepts.room hnew
    rw [hafter, hlast] at room
    refine ⟨List.forall_mem_cons.mpr ⟨haccepts.title, titles⟩,
      List.forall_mem_cons.mpr ⟨haccepts.known, fun o' ho' => ?_⟩, fun _ => ?_⟩
    · exact (List.forall_mem_append.mp (known o' ho')).1
    · rw [hcons, List.length_cons]
      cases hrest : newcomers (o.fingerprint :: store.known) rest with
      | nil => exact hplace
      | cons first others =>
        rw [hrest] at room
        have hroom := room (List.cons_ne_nil _ _)
        push_cast
        omega

/-- Behind an observation that was accepted, the tables admit the others when the tables before it
admit all. -/
theorem admits_cons (hw : store.WellFormed) (hstamp : IsStamp stamp)
    (h : store.upsert (.ok stamp) type o = .ok (done, store')) :
    store.Admits (o :: rest) ↔ store.Accepts o ∧ store'.Admits rest := by
  obtain ⟨title, -, ⟨r, hr, -, rfl⟩ | ⟨_, hkey, hnow, -, -, rfl⟩⟩ := Store.upsert_ok h
  · obtain ⟨hmem, hkey⟩ := hw.ofKey?_eq_some.mp hr
    have hknown : o.fingerprint ∈ store.known := List.mem_map.mpr ⟨r, hmem, hkey⟩
    have hkeeps : Store.KeepsKeys fun x =>
        if x.sourceKey = r.sourceKey then refresh title o x else x := Store.keepsKeys_refresh.ite
    rw [hw.update_eq hmem, admits_map hkeeps, admits_cons_known hknown]
    intro x
    split
    · exact presentable_refresh
    · exact Iff.rfl
  · cases hnow
    have hnew : o.fingerprint ∉ store.known := by simp [Store.mem_known, hkey]
    exact admits_cons_new hnew rfl rfl fun hplace =>
      (presentable_begun hstamp).mpr (fits_next.mpr hplace)

-- ---------------------------------------------------------------------------
-- Taking observations in
-- ---------------------------------------------------------------------------

theorem run_upsertAll_admitted (hw : s.store.WellFormed) (hstamp : s.stamp = .ok stamp)
    (htypes : ∀ o ∈ items, o.type?.isSome) (h : s.store.Admits (journaled s.tags items))
    (counts : SyncCounts) :
    ∃ counts' t, (upsertAll items counts).run s = .ok counts' t ∧ s.SameFrame t := by
  induction items generalizing s counts with
  | nil => exact ⟨counts, s, rfl, .refl s⟩
  | cons o rest ih =>
    obtain ⟨htype, hothers⟩ := List.forall_mem_cons.mp htypes
    obtain ⟨type, htype⟩ := Option.isSome_iff_exists.mp htype
    have hjournaled : o.isJournaled s.tags = s.tags.contains type := isJournaled_of_type htype
    simp only [upsertAll, EStateM.run_bind, run_liftExcept, type_ok.mpr htype, EStateM.run_get]
    split
    · rename_i hkept
      rw [journaled_cons_kept (hjournaled.trans hkept)] at h
      obtain ⟨_, u, done, hrun, hupsert, hframe⟩ :=
        run_upsert_accepted hw hstamp htype (List.contains_iff_mem.mp hkept) h.accepts
      have hadmits := ((admits_cons hw (isStamp_of_stamp hstamp) hupsert).mp h).2
      have hclock : u.stamp = .ok stamp := by simpa [Session.stamp, hframe.now] using hstamp
      rw [← hframe.tags] at hadmits
      obtain ⟨counts', t, hrest, hframe'⟩ := ih (hw.upsert hupsert) hclock hothers hadmits
        { counts with journaled := counts.journaled + 1 }
      exact ⟨counts', t, run_bind_ok.mpr ⟨_, u, hrun, hrest⟩, hframe.trans hframe'⟩
    · rename_i hpassed
      rw [journaled_cons_passed (by rw [hjournaled, Bool.not_eq_true _ |>.mp hpassed])] at h
      exact ih hw hstamp hothers h _

theorem admits_of_upsertAll (hw : s.store.WellFormed) (hstamp : s.stamp = .ok stamp)
    (h : (upsertAll items counts).run s = .ok counts' t) :
    (∀ o ∈ items, o.type?.isSome) ∧ s.store.Admits (journaled s.tags items) := by
  induction items generalizing s counts with
  | nil => exact ⟨List.forall_mem_nil _, admits_nil _⟩
  | cons o rest ih =>
    simp only [upsertAll, run_bind_ok, run_liftExcept_ok, EStateM.run_get, type_ok] at h
    obtain ⟨type, _, ⟨htype, rfl⟩, _, _, hget, h⟩ := h
    cases hget
    have hjournaled : o.isJournaled s.tags = s.tags.contains type := isJournaled_of_type htype
    have hsome : o.type?.isSome := by simp [htype]
    split at h
    · rename_i hkept
      obtain ⟨_, u, hu, h⟩ := run_bind_ok.mp h
      obtain ⟨_, htype', htags, hnow, hstore⟩ := upsert_run_ok hu
      cases htype.symm.trans htype'
      rw [if_pos (List.contains_iff_mem.mp hkept)] at hstore
      obtain ⟨done, r, handed⟩ := hstore
      have hupsert := hstamp ▸ handed.stored
      have hclock : u.stamp = .ok stamp := by simpa [Session.stamp, hnow] using hstamp
      obtain ⟨htypes, hadmits⟩ := ih (hw.upsert hupsert) hclock h
      have hlater := isStamp_of_stamp hstamp
      have haccepts :=
        (accepts_iff hw hlater hupsert handed.found).mpr ⟨handed.number, handed.entry⟩
      rw [journaled_cons_kept (hjournaled.trans hkept)]
      exact ⟨List.forall_mem_cons.mpr ⟨hsome, htypes⟩,
        (admits_cons hw hlater hupsert).mpr ⟨haccepts, htags ▸ hadmits⟩⟩
    · rename_i hpassed
      obtain ⟨htypes, hadmits⟩ := ih hw hstamp h
      rw [journaled_cons_passed (by rw [hjournaled, Bool.not_eq_true _ |>.mp hpassed])]
      exact ⟨List.forall_mem_cons.mpr ⟨hsome, htypes⟩, hadmits⟩

-- ---------------------------------------------------------------------------
-- Completing
-- ---------------------------------------------------------------------------

theorem run_addKey_text (h : some key ∉ s.keys) : ∃ connection, (addKey (.text key)).run s =
    .ok () { s with keys := some key :: s.keys, connection } := by
  have hfresh : s.keys.contains (some key) = false := by simpa using h
  have hquery : (query fun _ => if (some key).isSome && s.keys.contains (some key) then
      .error (.notUnique "current_keys" "source_key") else .ok ()).run s = .ok () s.settled := by
    refine run_change_ok.mpr ⟨s.store, ?_, rfl⟩
    rw [hfresh]
    rfl
  refine ⟨s.settled.connection, ?_⟩
  unfold addKey
  exact run_bind_ok.mpr ⟨_, s, rfl, run_bind_ok.mpr ⟨s, s, rfl, run_bind_ok.mpr
    ⟨(), s.settled, hquery, rfl⟩⟩⟩

theorem run_addKeys {keys : List String} (hnodup : keys.Nodup)
    (hfresh : ∀ key ∈ keys, some key ∉ s.keys) :
    ∃ current connection, ((keys.map Data.text).forM addKey).run s =
      .ok () { s with keys := current, connection } := by
  induction keys generalizing s with
  | nil => exact ⟨s.keys, s.connection, rfl⟩
  | cons key rest ih =>
    obtain ⟨hkey, hrest⟩ := List.nodup_cons.mp hnodup
    obtain ⟨connection, hadd⟩ := run_addKey_text (hfresh key List.mem_cons_self)
    generalize hu : { s with keys := some key :: s.keys, connection } = u at hadd
    have hothers : ∀ other ∈ rest, some other ∉ u.keys := by
      intro other hother
      have hne : other ≠ key := fun heq => hkey (heq ▸ hother)
      rw [← hu]
      simpa [hne] using hfresh other (List.mem_cons_of_mem _ hother)
    obtain ⟨current, connection', hadds⟩ := ih hrest hothers
    refine ⟨current, connection', run_bind_ok.mpr ⟨(), u, hadd, ?_⟩⟩
    rw [← hu] at hadds ⊢
    exact hadds

theorem keysOf_eq (items : List Observation) :
    keysOf items = (items.map (·.fingerprint)).map .text := by simp [keysOf]

theorem checkHashable_texts (keys : List String) : checkHashable (keys.map .text) = .ok () := by
  induction keys with
  | nil => rfl
  | cons _ _ ih => exact ih

/-- Texts are always taken down, whatever an earlier reconciliation left over. -/
theorem run_completing_texts (keys : List String) (s : Session) : ∃ u, u.store = s.store ∧
    s.SameFrame u ∧ (completing (keys.map .text)).run s = completeUnseen.run u := by
  obtain ⟨current, connection, hadds⟩ := run_addKeys (s := { s.settled with keys := [] })
    (nodup_distinct keys) fun _ _ => List.not_mem_nil
  rw [← distinctData_texts] at hadds
  refine ⟨{ s with keys := current, connection }, rfl, ⟨rfl, rfl, rfl, rfl⟩, ?_⟩
  simp only [completing, EStateM.run_bind, EStateM.run_modify, hadds]
  rfl

theorem Session.SameFrame.stamp (h : s.SameFrame t) : t.stamp = s.stamp := by
  rw [Session.stamp, h.now, Session.stamp]

theorem run_completeUnseen (hstamp : s.stamp = .ok stamp) :
    completeUnseen.run s = .ok (s.store.missingCount s.keys)
      { s with store := s.store.complete s.keys stamp, keys := [] } := by
  simp only [completeUnseen, EStateM.run_bind, EStateM.run_get, run_liftExcept, hstamp]
  rfl

/-- A reconciliation with texts needs nothing but the clock. -/
theorem run_reconcile_texts (hstamp : s.stamp = .ok stamp) (keys : List String) :
    ∃ count t, (reconcile (keys.map .text)).run s = .ok count t ∧ s.SameFrame t := by
  obtain ⟨u, -, hu, hcompleting⟩ := run_completing_texts keys s.enter
  have hclock : u.stamp = .ok stamp := hu.stamp.trans (Session.stamp_enter.trans hstamp)
  rw [run_completeUnseen hclock] at hcompleting
  obtain ⟨hrun, hframe⟩ := run_transaction_framed hcompleting (hu.trans ⟨rfl, rfl, rfl, rfl⟩)
  have hhashable : (liftExcept (checkHashable (keys.map .text)) : JournalM Unit).run s = .ok () s :=
    run_liftExcept_ok.mpr ⟨checkHashable_texts keys, rfl⟩
  exact ⟨_, _, run_bind_ok.mpr ⟨(), s, hhashable, run_bind_ok.mpr ⟨_, _, hrun, rfl⟩⟩,
    hframe.saved, hframe.closings, hframe.tags, hframe.now⟩

theorem run_finishScan_ready (hstamp : s.stamp = .ok stamp) (items : List Observation)
    (counts : SyncCounts) :
    ∃ counts' t, (finishScan items counts).run s = .ok counts' t ∧ s.SameFrame t := by
  unfold finishScan
  split
  · generalize hu : s.report .debug _ = u
    have hclock : u.stamp = .ok stamp := hu ▸ hstamp
    obtain ⟨count, t, hrun, hframe⟩ := run_reconcile_texts hclock (items.map (·.fingerprint))
    rw [← keysOf_eq] at hrun
    refine ⟨_, t, run_bind_ok.mpr ⟨(), u, congrArg _ hu, run_bind_ok.mpr ⟨count, t, hrun, rfl⟩⟩, ?_⟩
    exact Session.SameFrame.trans (hu ▸ ⟨rfl, rfl, rfl, rfl⟩) hframe
  · obtain ⟨count, t, hrun, hframe⟩ := run_reconcile_texts hstamp (items.map (·.fingerprint))
    rw [← keysOf_eq] at hrun
    exact ⟨_, t, run_bind_ok.mpr ⟨count, t, hrun, rfl⟩, hframe⟩

-- ---------------------------------------------------------------------------
-- The whole scan
-- ---------------------------------------------------------------------------

/-- A scan ends well in the sessions that are ready for it, and in no others. -/
theorem sync_ends_well_iff (hw : s.store.WellFormed) :
    (∃ counts t, (sync items).run s = .ok counts t) ↔ s.Ready items := by
  constructor
  · rintro ⟨counts, t, h⟩
    obtain ⟨now, hstamp, -⟩ := sync_run_ok hw h
    rw [sync_eq] at h
    obtain ⟨u, hu, -⟩ := run_transaction_ok h
    obtain ⟨tally, v, hv, -⟩ := run_bind_ok.mp hu
    have hclock : s.enter.stamp = .ok now := by simpa using hstamp
    obtain ⟨htypes, hadmits⟩ := admits_of_upsertAll (by simpa using hw) hclock hv
    exact ⟨⟨now, hstamp⟩, htypes, by simpa using hadmits⟩
  · rintro ⟨⟨now, hstamp⟩, htypes, hadmits⟩
    have hclock : s.enter.stamp = .ok now := by simpa using hstamp
    obtain ⟨tally, u, htake, hframe⟩ := run_upsertAll_admitted (s := s.enter)
      (by simpa using hw) hclock htypes (by simpa using hadmits) { scanned := items.length }
    have hclock' : u.stamp = .ok now := by
      rw [Session.stamp, hframe.now]
      exact hclock
    obtain ⟨counts, v, hfinish, hframe'⟩ := run_finishScan_ready hclock' items tally
    obtain ⟨hrun, -⟩ := run_transaction_framed
      (run_bind_ok.mpr ⟨tally, u, htake, hfinish⟩) (hframe.trans hframe')
    exact ⟨counts, _, hrun⟩

end Marginalia.Journal
