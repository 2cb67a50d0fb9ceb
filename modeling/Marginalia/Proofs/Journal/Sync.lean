import Marginalia.Proofs.Journal.Table
import Marginalia.Proofs.Remark.Tags

/-!
# What a scan does to the table

`Store.taken` says at once what taking observations in one by one does: the observations whose
fingerprint is new begin records, in the order in which they come, and every record then shows the
last observation that carries its source key. The induction is on the observations, with the table
left open; its step is that one observation in front can be taken in first (`taken_cons_known`,
`taken_cons_new`).
-/

namespace Marginalia

namespace Observation

def type? (o : Observation) : Option String := o.tag.text?.map Text.upper

def isJournaled (tags : List String) (o : Observation) : Bool := o.type?.any tags.contains

end Observation

namespace Journal

open Store (refresh)

def journaled (tags : List String) (items : List Observation) : List Observation :=
  items.filter (·.isJournaled tags)

def carriers (key : String) (scan : List Observation) : List Observation :=
  scan.filter (·.fingerprint == key)

/-- The observations that are the first ones with their fingerprint, known fingerprints left
out. -/
def newcomers (known : List String) : List Observation → List Observation
  | [] => []
  | o :: rest =>
    if o.fingerprint ∈ known then newcomers known rest
    else o :: newcomers (o.fingerprint :: known) rest

/-- The record with the title, description and priority of an observation. -/
def Record.showing (o : Observation) (r : Record) : Record := refresh (o.title?.getD "") o r

/-- The record after a scan: it shows the last observation that carries its source key. -/
def Record.scanned (scan : List Observation) (r : Record) : Record :=
  match (carriers r.sourceKey scan).getLast? with
  | some o => r.showing o
  | none => r

def Record.begunBy (id : Int) (createdAt : String) (o : Observation) : Record :=
  .begun id (o.type?.getD "") createdAt (o.title?.getD "") o

/-- The records that observations begin, with the numbers behind a given one. -/
def begunBehind (last : Int) (createdAt : String) : List Observation → List Record
  | [] => []
  | o :: rest => .begunBy (last + 1) createdAt o :: begunBehind (last + 1) createdAt rest

namespace Store

def known (store : Store) : List String := store.records.map Record.sourceKey

/-- The tables after the observations of a scan are taken in. -/
def taken (store : Store) (createdAt : String) (scan : List Observation) : Store :=
  let new := newcomers store.known scan
  { store with
    records := (store.records ++ begunBehind store.lastNumber createdAt new).map
      (Record.scanned scan)
    counter := if new = [] then store.counter else store.lastNumber + new.length }

end Store

-- ---------------------------------------------------------------------------
-- Records
-- ---------------------------------------------------------------------------

namespace Record

@[simp] theorem sourceKey_showing : (showing o r).sourceKey = r.sourceKey :=
  Store.keepsKeys_refresh.sourceKey r

@[simp] theorem id_showing : (showing o r).id = r.id := Store.keepsKeys_refresh.id r

theorem showing_showing (o o' : Observation) (r : Record) :
    (r.showing o').showing o = r.showing o := by
  by_cases hstatus : r.status = .completed <;> simp [showing, refresh, hstatus]

theorem showing_begunBy (o : Observation) :
    (begunBy n stamp o).showing o = begunBy n stamp o := rfl

theorem keepsKeys_scanned (scan : List Observation) : Store.KeepsKeys (scanned scan) := by
  constructor <;> intro r <;> unfold scanned <;> split <;> simp

@[simp] theorem scanned_nil : scanned [] = fun r => r := rfl

theorem scanned_of_carriers_eq_nil (h : carriers r.sourceKey scan = []) : scanned scan r = r := by
  simp [scanned, h]

theorem scanned_cons (o : Observation) (rest : List Observation) (r : Record) :
    scanned (o :: rest) r =
      scanned rest (if r.sourceKey = o.fingerprint then r.showing o else r) := by
  by_cases hkey : r.sourceKey = o.fingerprint
  · have hcons : carriers r.sourceKey (o :: rest) = o :: carriers r.sourceKey rest := by
      simp [carriers, hkey]
    simp only [scanned, hcons, if_pos hkey, sourceKey_showing]
    cases hlast : (carriers r.sourceKey rest).getLast? with
    | none => simp [List.getLast?_eq_none_iff.mp hlast]
    | some last => simp [List.getLast?_cons, hlast, showing_showing]
  · have hcons : carriers r.sourceKey (o :: rest) = carriers r.sourceKey rest := by
      simp [carriers, Ne.symm hkey]
    simp only [scanned, hcons, if_neg hkey]

end Record

-- ---------------------------------------------------------------------------
-- Newcomers
-- ---------------------------------------------------------------------------

theorem newcomers_congr {known known' : List String} (h : ∀ key, key ∈ known ↔ key ∈ known') :
    newcomers known scan = newcomers known' scan := by
  induction scan generalizing known known' with
  | nil => rfl
  | cons o rest ih =>
    simp only [newcomers, h o.fingerprint]
    split
    · exact ih h
    · have hcons : ∀ key, key ∈ o.fingerprint :: known ↔ key ∈ o.fingerprint :: known' := by
        simp [h]
      rw [ih hcons]

theorem newcomers_cons_known (hknown : o.fingerprint ∈ known) (rest : List Observation) :
    newcomers known (o :: rest) = newcomers known rest := by
  simp [newcomers, hknown]

theorem newcomers_cons_new (hnew : o.fingerprint ∉ known) (rest : List Observation) :
    newcomers known (o :: rest) = o :: newcomers (o.fingerprint :: known) rest := by
  simp [newcomers, hnew]

/-- A newcomer is the first observation with its fingerprint, which is not known. -/
theorem mem_newcomers (h : o ∈ newcomers known scan) :
    o.fingerprint ∉ known ∧ (carriers o.fingerprint scan).head? = some o := by
  induction scan generalizing known with
  | nil => simp [newcomers] at h
  | cons first rest ih =>
    unfold newcomers at h
    split at h
    · rename_i hknown
      obtain ⟨hnew, hhead⟩ := ih h
      have hne : first.fingerprint ≠ o.fingerprint := fun heq => hnew (heq ▸ hknown)
      exact ⟨hnew, by simpa [carriers, hne] using hhead⟩
    · rename_i hknown
      rcases List.mem_cons.mp h with rfl | h
      · exact ⟨hknown, by simp [carriers]⟩
      · obtain ⟨hnew, hhead⟩ := ih h
        simp only [List.mem_cons, not_or] at hnew
        exact ⟨hnew.2, by simpa [carriers, Ne.symm hnew.1] using hhead⟩

theorem map_fingerprint_newcomers (known : List String) (scan : List Observation) :
    (newcomers known scan).map (·.fingerprint) =
      (distinct (scan.map (·.fingerprint))).filter (· ∉ known) := by
  induction scan generalizing known with
  | nil => rfl
  | cons o rest ih =>
    simp only [newcomers, List.map_cons, distinct]
    split
    · rename_i hknown
      rw [ih, List.filter_cons_of_neg (by simpa using hknown), List.filter_filter]
      refine List.filter_congr fun key _ => ?_
      by_cases hkey : key = o.fingerprint <;> simp_all
    · rename_i hknown
      rw [List.map_cons, ih, List.filter_cons_of_pos (by simpa using hknown), List.filter_filter]
      congr 1
      refine List.filter_congr fun key _ => ?_
      by_cases hkey : key = o.fingerprint <;> simp [hkey]

theorem getElem?_begunBehind (last : Int) (stamp : String) (new : List Observation) (i : Nat) :
    (begunBehind last stamp new)[i]? = new[i]?.map (.begunBy (last + 1 + i) stamp) := by
  induction new generalizing last i with
  | nil => rfl
  | cons o rest ih =>
    cases i with
    | zero => simp [begunBehind]
    | succ i =>
      have hnumber : last + 1 + 1 + (i : Int) = last + 1 + ((i + 1 : Nat) : Int) := by
        push_cast
        omega
      simp only [begunBehind, List.getElem?_cons_succ, ih, hnumber]

theorem map_sourceKey_begunBehind (last : Int) (stamp : String) (new : List Observation) :
    (begunBehind last stamp new).map Record.sourceKey = new.map (·.fingerprint) := by
  induction new generalizing last with
  | nil => rfl
  | cons o rest ih => simp [begunBehind, ih, Record.begunBy, Record.begun]

theorem sourceKey_begunBehind_ne (hkey : key ∈ known)
    (hr : r ∈ begunBehind last stamp (newcomers known scan)) : r.sourceKey ≠ key := by
  have hmem : r.sourceKey ∈ (newcomers known scan).map (·.fingerprint) := by
    rw [← map_sourceKey_begunBehind last stamp]
    exact List.mem_map_of_mem hr
  obtain ⟨o, ho, heq⟩ := List.mem_map.mp hmem
  rintro rfl
  exact (mem_newcomers ho).1 (heq ▸ hkey)

-- ---------------------------------------------------------------------------
-- One observation in front
-- ---------------------------------------------------------------------------

namespace Store

variable {store store' : Store}

theorem mem_known : key ∈ store.known ↔ (store.ofKey? key).isSome := by
  simp [known, ofKey?]

theorem taken_nil : store.taken stamp [] = store := by
  simp [taken, newcomers, begunBehind]

theorem map_scanned_cons (o : Observation) (rest : List Observation) (l : List Record) :
    l.map (Record.scanned (o :: rest)) =
      (l.map fun r => if r.sourceKey = o.fingerprint then r.showing o else r).map
        (Record.scanned rest) := by
  simp [Function.comp_def, Record.scanned_cons]

theorem map_ite_of_ne {f : Record → Record} {l : List Record}
    (h : ∀ r ∈ l, r.sourceKey ≠ key) :
    (l.map fun r => if r.sourceKey = key then f r else r) = l := by
  rw [List.map_congr_left fun r hr => if_neg (h r hr), List.map_id']

theorem known_map (hf : KeepsKeys f) :
    known { store with records := store.records.map f } = store.known := by
  simp [known, Function.comp_def, hf.sourceKey]

theorem keepsKeys_showing (o : Observation) :
    KeepsKeys fun r => if r.sourceKey = o.fingerprint then r.showing o else r :=
  KeepsKeys.ite (f := Record.showing o) keepsKeys_refresh

theorem newcomers_append (store : Store) (n : Int) (r : Record) (rest : List Observation) :
    newcomers (known { store with records := store.records ++ [r], counter := n }) rest =
      newcomers (r.sourceKey :: store.known) rest :=
  newcomers_congr fun key => by simp [known, or_comm]

theorem taken_cons_known (hknown : o.fingerprint ∈ store.known) :
    store.taken stamp (o :: rest) =
      taken { store with records := store.records.map fun r =>
        if r.sourceKey = o.fingerprint then r.showing o else r } stamp rest := by
  have hnewcomers := newcomers_cons_known hknown rest
  have hkeys := keepsKeys_showing o
  have hothers : ∀ r ∈ begunBehind store.lastNumber stamp (newcomers store.known rest),
      r.sourceKey ≠ o.fingerprint := fun r hr => sourceKey_begunBehind_ne hknown hr
  simp only [taken, hnewcomers, known_map hkeys, lastNumber_map hkeys, map_scanned_cons,
    List.map_append, map_ite_of_ne hothers]

theorem taken_cons_new (hnew : o.fingerprint ∉ store.known) :
    store.taken stamp (o :: rest) =
      taken { store with
        records := store.records ++ [.begunBy (store.lastNumber + 1) stamp o]
        counter := store.lastNumber + 1 } stamp rest := by
  have hlast := lastNumber_append store (r := .begunBy (store.lastNumber + 1) stamp o) rfl
  have hknown : newcomers _ rest = newcomers (o.fingerprint :: store.known) rest :=
    newcomers_append store (store.lastNumber + 1) (.begunBy (store.lastNumber + 1) stamp o) rest
  have hnewcomers := newcomers_cons_new hnew rest
  have hold : ∀ r ∈ store.records, r.sourceKey ≠ o.fingerprint := fun r hr hkey =>
    hnew (List.mem_map.mpr ⟨r, hr, hkey⟩)
  have hothers : ∀ r ∈ begunBehind (store.lastNumber + 1) stamp
      (newcomers (o.fingerprint :: store.known) rest), r.sourceKey ≠ o.fingerprint :=
    fun r hr => sourceKey_begunBehind_ne List.mem_cons_self hr
  have hfirst : Record.scanned (o :: rest) (.begunBy (store.lastNumber + 1) stamp o) =
      .scanned rest (.begunBy (store.lastNumber + 1) stamp o) := by
    rw [Record.scanned_cons, Record.showing_begunBy, ite_self]
  have hcounter (n : Nat) : store.lastNumber + 1 + (n : Int) =
      store.lastNumber + ((n + 1 : Nat) : Int) := by
    push_cast
    omega
  simp only [taken, hnewcomers, hknown, hlast, begunBehind, List.append_assoc, List.cons_append,
    List.nil_append, List.map_append, List.map_cons, hfirst, map_scanned_cons,
    map_ite_of_ne hold, map_ite_of_ne hothers, reduceCtorEq, if_false, List.length_cons, hcounter,
    Store.mk.injEq, true_and, and_true]
  split <;> simp_all

end Store

-- ---------------------------------------------------------------------------
-- Taking observations in
-- ---------------------------------------------------------------------------

variable {s t : Session}

theorem type_ok : (o.tag.textFor "upper").map Text.upper = .ok type ↔
    Observation.type? o = some type := by
  unfold Observation.type?
  cases o.tag <;> simp [Data.textFor, Data.text?, Except.map]

theorem Store.WellFormed.taken_upsert {store store' : Store} (hw : store.WellFormed)
    (htype : o.type? = some type) (h : store.upsert (.ok stamp) type o = .ok (done, store')) :
    store.taken stamp (o :: rest) = store'.taken stamp rest := by
  obtain ⟨title, htitle, ⟨r, hr, -, rfl⟩ | ⟨_, hkey, hnow, -, -, rfl⟩⟩ := upsert_ok h
  · obtain ⟨hmem, hkey⟩ := hw.ofKey?_eq_some.mp hr
    have hknown : o.fingerprint ∈ store.known := List.mem_map.mpr ⟨r, hmem, hkey⟩
    rw [hw.update_eq hmem, hkey, taken_cons_known hknown]
    simp only [Record.showing, htitle, Option.getD_some]
  · cases hnow
    have hnew : o.fingerprint ∉ store.known := by simp [mem_known, hkey]
    rw [taken_cons_new hnew]
    simp only [Record.begunBy, htype, htitle, Option.getD_some]

theorem upsertTagged_ok (h : (upsertTagged type o).run s = .ok r t) :
    ∃ done, s.store.upsert s.stamp type o = .ok (done, t.store) ∧
      t.store.ofId? done.1 = some r ∧ fits done.1 = true ∧ t.tags = s.tags ∧ t.now = s.now := by
  obtain ⟨u, hu, rfl⟩ := run_transaction_ok h
  simp only [run_bind_ok, EStateM.run_get, EStateM.Result.ok.injEq, run_change_ok] at hu
  obtain ⟨_, _, ⟨rfl, rfl⟩, done, _, ⟨store, hstore, rfl⟩, hu⟩ := hu
  simp only [Session.store_enter, Session.stamp_enter] at hstore
  have hstep : store.ofId? done.1 = some r ∧ fits done.1 = true ∧
      ∃ log connection, u = { s.enter with store, log, connection } := by
    split at hu
    · simp only [run_bind_ok, run_report, EStateM.Result.ok.injEq] at hu
      obtain ⟨_, _, ⟨-, rfl⟩, hu⟩ := hu
      obtain ⟨hr, hfits, connection, rfl⟩ := recordOf_ok hu
      exact ⟨hr, hfits, _, _, rfl⟩
    · obtain ⟨hr, hfits, connection, rfl⟩ := recordOf_ok hu
      exact ⟨hr, hfits, _, _, rfl⟩
  obtain ⟨hr, hfits, log, connection, rfl⟩ := hstep
  exact ⟨done, by simpa using hstore, by simpa using hr, hfits, by simp, by simp⟩

/-- An observation was taken in between two tables, and its record was found and handed out. -/
structure HandedOut (s : Session) (type : String) (o : Observation) (store : Store)
    (done : Int × Store.Change) (r : Record) : Prop where
  stored : s.store.upsert s.stamp type o = .ok (done, store)
  found : store.ofId? done.1 = some r
  number : fits done.1 = true
  entry : ∃ e, r.entry = .ok e

theorem upsert_run_ok (h : (upsert o).run s = .ok e t) :
    ∃ type, o.type? = some type ∧ t.tags = s.tags ∧ t.now = s.now ∧
      if type ∈ s.tags then ∃ done r, HandedOut s type o t.store done r
      else t.store = s.store := by
  simp only [upsert, run_bind_ok, run_liftExcept_ok, EStateM.run_get, type_ok] at h
  obtain ⟨type, _, ⟨htype, rfl⟩, _, _, hget, h⟩ := h
  cases hget
  refine ⟨type, htype, ?_⟩
  split at h
  · rename_i hjournaled
    simp only [run_bind_ok, run_liftExcept_ok] at h
    obtain ⟨r, u, hu, hentry, rfl⟩ := h
    obtain ⟨done, hstore, hr, hfits, htags, hnow⟩ := upsertTagged_ok hu
    obtain ⟨entry, hentry, -⟩ := map_ok.mp hentry
    simp only [List.contains_iff_mem] at hjournaled
    refine ⟨htags, hnow, ?_⟩
    rw [if_pos hjournaled]
    exact ⟨done, r, hstore, hr, hfits, entry, hentry⟩
  · rename_i hjournaled
    simp only [run_bind_ok, run_report, EStateM.run_pure, EStateM.Result.ok.injEq] at h
    obtain ⟨_, _, ⟨-, rfl⟩, -, rfl⟩ := h
    simp only [List.contains_iff_mem] at hjournaled
    exact ⟨rfl, rfl, by rw [if_neg hjournaled]; rfl⟩

theorem isJournaled_of_type (h : o.type? = some type) :
    Observation.isJournaled tags o = tags.contains type := by
  simp [Observation.isJournaled, h]

theorem journaled_cons_kept (h : Observation.isJournaled tags o = true) (rest : List Observation) :
    journaled tags (o :: rest) = o :: journaled tags rest := by
  simp [journaled, h]

theorem journaled_cons_passed (h : Observation.isJournaled tags o = false)
    (rest : List Observation) : journaled tags (o :: rest) = journaled tags rest := by
  simp [journaled, h]

/-- What taking observations in one by one leads to, and how it counts. -/
structure TookIn (items : List Observation) (counts : SyncCounts) (s : Session)
    (counts' : SyncCounts) (t : Session) : Prop where
  tags : t.tags = s.tags
  now : t.now = s.now
  store : ∀ stamp, s.stamp = .ok stamp → t.store = s.store.taken stamp (journaled s.tags items)
  counts : counts' = { counts with
    journaled := counts.journaled + (journaled s.tags items).length
    skipped := counts.skipped + items.countP fun o => !o.isJournaled s.tags }
  readable : ∀ o ∈ journaled s.tags items, o.type?.isSome ∧ o.title?.isSome

theorem tookIn_nil (counts : SyncCounts) (s : Session) : TookIn [] counts s counts s :=
  ⟨rfl, rfl, fun _ _ => Store.taken_nil.symm, rfl, List.forall_mem_nil _⟩

theorem TookIn.kept {counts : SyncCounts} (hw : s.store.WellFormed) (htype : o.type? = some type)
    (hkept : type ∈ s.tags) (hstore : s.store.upsert s.stamp type o = .ok (done, u.store))
    (htags : u.tags = s.tags) (hnow : u.now = s.now)
    (h : TookIn rest { counts with journaled := counts.journaled + 1 } u counts' t) :
    TookIn (o :: rest) counts s counts' t := by
  have hjournaled : o.isJournaled s.tags = true :=
    (isJournaled_of_type htype).trans (List.contains_iff_mem.mpr hkept)
  have hcons := journaled_cons_kept hjournaled rest
  obtain ⟨htags', hnow', htable, hcounts, hall⟩ := h
  rw [htags] at htable hcounts hall htags'
  refine ⟨htags', hnow'.trans hnow, fun stamp hstamp => ?_, ?_, ?_⟩
  · rw [hstamp] at hstore
    rw [hcons, hw.taken_upsert htype hstore]
    exact htable stamp (by simpa [Session.stamp, hnow] using hstamp)
  · simp [hcounts, hcons, hjournaled, Nat.add_assoc, Nat.add_comm 1]
  · obtain ⟨title, htitle, -⟩ := Store.upsert_ok hstore
    rw [hcons]
    simpa [htype, htitle] using hall

theorem TookIn.passedOver {counts : SyncCounts} (htype : o.type? = some type)
    (hpassed : type ∉ s.tags)
    (h : TookIn rest { counts with skipped := counts.skipped + 1 } s counts' t) :
    TookIn (o :: rest) counts s counts' t := by
  have hjournaled : o.isJournaled s.tags = false :=
    (isJournaled_of_type htype).trans (by simpa using hpassed)
  have hcons := journaled_cons_passed hjournaled rest
  obtain ⟨htags, hnow, htable, hcounts, hall⟩ := h
  refine ⟨htags, hnow, hcons.symm ▸ htable, ?_, hcons.symm ▸ hall⟩
  simp [hcounts, hcons, hjournaled, Nat.add_assoc, Nat.add_comm 1]

theorem upsertAll_ok (hw : s.store.WellFormed)
    (h : (upsertAll items counts).run s = .ok counts' t) : TookIn items counts s counts' t := by
  induction items generalizing s counts with
  | nil =>
    cases h
    exact tookIn_nil _ _
  | cons o rest ih =>
    simp only [upsertAll, run_bind_ok, run_liftExcept_ok, EStateM.run_get, type_ok] at h
    obtain ⟨type, _, ⟨htype, rfl⟩, _, _, hget, h⟩ := h
    cases hget
    split at h
    · rename_i hcontains
      have hkept := List.contains_iff_mem.mp hcontains
      obtain ⟨_, u, hu, h⟩ := run_bind_ok.mp h
      obtain ⟨_, htype', htags, hnow, hstore⟩ := upsert_run_ok hu
      cases htype.symm.trans htype'
      rw [if_pos hkept] at hstore
      obtain ⟨done, r, handed⟩ := hstore
      exact (ih (hw.upsert handed.stored) h).kept hw htype hkept handed.stored htags hnow
    · rename_i hcontains
      exact (ih hw h).passedOver htype (by simpa using hcontains)

-- ---------------------------------------------------------------------------
-- Completing
-- ---------------------------------------------------------------------------

/-- The text that a key is compared as; none for a key that stands for no text. -/
def keyText? (key : Data) : Option (Option String) := (Cell.ofData 1 key).toOption.map Cell.asText

theorem addKey_ok (h : (addKey key).run s = .ok () t) :
    ∃ text connection, keyText? key = some text ∧
      t = { s with keys := text :: s.keys, connection } := by
  simp only [addKey, run_bind_ok, run_liftExcept_ok, EStateM.run_get] at h
  obtain ⟨cell, _, ⟨hcell, rfl⟩, _, _, hget, _, u, hu, h⟩ := h
  cases hget
  simp only [query, run_change_ok, map_ok] at hu
  obtain ⟨_, ⟨_, -, heq⟩, rfl⟩ := hu
  cases heq
  cases h
  exact ⟨cell.asText, _, by simp [keyText?, hcell, Except.toOption], rfl⟩

theorem forM_addKey_ok {keys : List Data} (h : (keys.forM addKey).run s = .ok () t) :
    ∃ current connection, t = { s with keys := current, connection } ∧
      ∀ text, text ∈ current ↔ text ∈ s.keys ∨ ∃ key ∈ keys, keyText? key = some text := by
  induction keys generalizing s with
  | nil =>
    cases h
    exact ⟨_, _, rfl, by simp⟩
  | cons key rest ih =>
    obtain ⟨_, u, hu, h⟩ := run_bind_ok.mp h
    obtain ⟨text, connection, htext, rfl⟩ := addKey_ok hu
    obtain ⟨current, connection', rfl, hcurrent⟩ := ih h
    refine ⟨current, connection', rfl, fun other => ?_⟩
    rw [hcurrent other]
    simp only [List.mem_cons, exists_eq_or_imp, htext, Option.some.injEq]
    constructor
    · rintro ((rfl | hold) | hnew)
      · exact .inr (.inl rfl)
      · exact .inl hold
      · exact .inr (.inr hnew)
    · rintro (hold | rfl | hnew)
      · exact .inl (.inr hold)
      · exact .inl (.inl rfl)
      · exact .inr hnew

theorem reconcile_ok (h : (reconcile keys).run s = .ok count t) :
    ∃ now current, s.stamp = .ok now ∧
      (∀ text, text ∈ current ↔ ∃ key ∈ distinctData keys, keyText? key = some text) ∧
      t.store = s.store.complete current now ∧ count = s.store.missingCount current := by
  simp only [reconcile, run_bind_ok, run_liftExcept_ok, run_report, EStateM.run_pure,
    EStateM.Result.ok.injEq] at h
  obtain ⟨_, _, ⟨-, rfl⟩, n, u, hu, _, _, ⟨-, rfl⟩, rfl, rfl⟩ := h
  obtain ⟨u, hblock, rfl⟩ := run_transaction_ok hu
  simp only [run_bind_ok, run_liftExcept_ok, EStateM.run_get, EStateM.run_modify, EStateM.run_set,
    EStateM.run_pure, EStateM.Result.ok.injEq] at hblock
  obtain ⟨_, _, ⟨-, rfl⟩, _, v, hv, _, _, ⟨rfl, rfl⟩, now, _, ⟨hnow, rfl⟩, _, _, ⟨-, rfl⟩,
    rfl, rfl⟩ :=
    hblock
  obtain ⟨current, connection, rfl, hcurrent⟩ := forM_addKey_ok hv
  exact ⟨now, current, by simpa [Session.stamp] using hnow, by simpa using hcurrent, by simp,
    by simp⟩

-- ---------------------------------------------------------------------------
-- The whole scan
-- ---------------------------------------------------------------------------

theorem distinctData_texts (l : List String) :
    distinctData (l.map .text) = (distinct l).map .text := by
  induction l with
  | nil => rfl
  | cons text rest ih =>
    have hsame : (fun other => !Data.same (.text text) other) ∘ Data.text =
        fun other => !(other == text) := by
      funext other
      have hbeq : Data.same (.text text) (.text other) = (text == other) := by simp only [Data.same]
      rw [Function.comp_apply, hbeq, Bool.beq_comm]
    simp [distinctData, distinct, ih, List.filter_map, hsame]

/-- Whether a record is active and no observation of a scan has its source key. -/
def Record.isUnseen (items : List Observation) (r : Record) : Bool :=
  r.status == .active && items.all (·.fingerprint != r.sourceKey)

def Store.reconciled (store : Store) (items : List Observation) (now : String) : Store :=
  { store with records := store.records.map fun r =>
      if r.isUnseen items then { r with status := .completed, completedAt := some now } else r }

/-- Among keys that are texts, the records that are missing are the active ones with another source
key. -/
theorem isMissing_texts {keys : List String} {current : List (Option String)}
    (hcurrent : ∀ text, text ∈ current ↔
      ∃ key ∈ distinctData (keys.map .text), keyText? key = some text) (r : Record) :
    Store.isMissing current r = true ↔ r.status = .active ∧ r.sourceKey ∉ keys := by
  have hmem : ∀ text, text ∈ current ↔ ∃ key ∈ keys, some key = text := by
    intro text
    rw [hcurrent text, distinctData_texts]
    simp only [List.mem_map, mem_distinct]
    constructor
    · rintro ⟨_, ⟨key, hkey, rfl⟩, htext⟩
      exact ⟨key, hkey, by simpa [keyText?, Cell.ofData, Except.toOption, Cell.asText] using htext⟩
    · rintro ⟨key, hkey, rfl⟩
      exact ⟨_, ⟨key, hkey, rfl⟩, rfl⟩
  simp only [Store.isMissing, Bool.and_eq_true, Bool.not_eq_true', beq_iff_eq,
    ← Bool.not_eq_true, List.contains_iff_mem, hmem]
  simp

/-- The keys of a scan are its fingerprints, and a record is missing if it is unseen. -/
theorem isMissing_eq_isUnseen {current : List (Option String)} (hcurrent : ∀ text,
      text ∈ current ↔ ∃ key ∈ distinctData (items.map fun o => .text o.fingerprint),
        keyText? key = some text) :
    Store.isMissing current = Record.isUnseen items := by
  have htexts : items.map (fun o => Data.text o.fingerprint) =
      (items.map (·.fingerprint)).map .text := by simp
  rw [htexts] at hcurrent
  funext r
  rw [Bool.eq_iff_iff, isMissing_texts hcurrent]
  simp [Record.isUnseen]

theorem sync_run_ok (hw : s.store.WellFormed) (h : (sync items).run s = .ok counts t) :
    ∃ now, s.stamp = .ok now ∧
      t.store = (s.store.taken now (journaled s.tags items)).reconciled items now ∧
      counts = {
        scanned := items.length
        journaled := (journaled s.tags items).length
        skipped := items.countP fun o => !o.isJournaled s.tags
        completed := (s.store.taken now (journaled s.tags items)).records.countP
          (Record.isUnseen items) } ∧
      ∀ o ∈ journaled s.tags items, o.type?.isSome ∧ o.title?.isSome := by
  obtain ⟨u, hu, rfl⟩ := run_transaction_ok h
  simp only [run_bind_ok] at hu
  obtain ⟨tally, v, hv, hu⟩ := hu
  obtain ⟨-, hnow, htable, htally, hall⟩ := upsertAll_ok (by simpa using hw) hv
  have hfinish : ∃ w completed, w.store = v.store ∧ w.stamp = v.stamp ∧
      (reconcile (items.map fun o => .text o.fingerprint)).run w = .ok completed u ∧
      counts = { tally with completed } := by
    split at hu
    · simp only [run_bind_ok, run_report, EStateM.run_pure, EStateM.Result.ok.injEq] at hu
      obtain ⟨_, _, ⟨-, rfl⟩, completed, _, hreconcile, rfl, rfl⟩ := hu
      exact ⟨v.report .debug _, completed, rfl, rfl, hreconcile, rfl⟩
    · simp only [run_bind_ok, EStateM.run_pure, EStateM.Result.ok.injEq] at hu
      obtain ⟨completed, _, hreconcile, rfl, rfl⟩ := hu
      exact ⟨v, completed, rfl, rfl, hreconcile, rfl⟩
  obtain ⟨w, completed, hstore, hstamp, hreconcile, rfl⟩ := hfinish
  obtain ⟨now, current, hnow', hcurrent, htables, rfl⟩ := reconcile_ok hreconcile
  have hstart : s.stamp = .ok now := by
    rw [hstamp] at hnow'
    simpa [Session.stamp, hnow] using hnow'
  have htaken : w.store = s.store.taken now (journaled s.tags items) := by
    simpa [hstore] using htable now (by simpa using hstart)
  have hmissing := isMissing_eq_isUnseen hcurrent
  refine ⟨now, hstart, ?_, ?_, by simpa using hall⟩
  · simp [htables, htaken, Store.complete, Store.reconciled, hmissing]
  · simp [htally, htaken, Store.missingCount, hmissing]

-- ---------------------------------------------------------------------------
-- Record by record
-- ---------------------------------------------------------------------------

namespace Record

/-- A record shows an observation: its message, its place and its priority. -/
structure Shows (o : Observation) (r : Record) : Prop where
  title : o.title? = some r.title
  description : r.description = some o.location
  priority : r.priority = .whole o.priority.level

/-- What a scan makes of a record that was there before. -/
structure Settled (types : List String) (items : List Observation) (now : String)
    (r r' : Record) : Prop where
  id : r'.id = r.id
  type : r'.type = r.type
  sourceKey : r'.sourceKey = r.sourceKey
  createdAt : r'.createdAt = r.createdAt
  tags : r'.tags = r.tags
  /-- Journaled observations carry the source key: the last one shows. -/
  carried : ∀ o, (carriers r.sourceKey (journaled types items)).getLast? = some o →
    r'.Shows o ∧
      (r.status = .completed → r'.status = .active ∧ r'.completedAt = none) ∧
      (r.status ≠ .completed → r'.status = r.status ∧ r'.completedAt = r.completedAt)
  /-- Only observations that are passed over carry the source key. -/
  passedOver : carriers r.sourceKey (journaled types items) = [] →
    (∃ o ∈ items, o.fingerprint = r.sourceKey) → r' = r
  /-- Nothing in the scan carries the source key. -/
  missing : (∀ o ∈ items, o.fingerprint ≠ r.sourceKey) →
    (r.status = .active → r' = { r with status := .completed, completedAt := some now }) ∧
      (r.status ≠ .active → r' = r)

/-- A record that a scan began: its type comes from the first observation with its source key, and
what it shows from the last one. -/
structure Started (types : List String) (items : List Observation) (now : String)
    (r : Record) : Prop where
  type : ∃ first, (carriers r.sourceKey (journaled types items)).head? = some first ∧
    first.type? = some r.type
  shows : ∃ last, (carriers r.sourceKey (journaled types items)).getLast? = some last ∧
    r.Shows last
  status : r.status = .active
  createdAt : r.createdAt = now
  completedAt : r.completedAt = none
  tags : r.tags = none

theorem mem_carriers_journaled (h : o ∈ carriers key (journaled types items)) :
    o ∈ journaled types items ∧ o ∈ items ∧ o.fingerprint = key := by
  simp only [carriers, List.mem_filter, beq_iff_eq] at h
  exact ⟨h.1, List.mem_of_mem_filter h.1, h.2⟩

theorem not_isUnseen (ho : o ∈ items) (hkey : o.fingerprint = sourceKey r) :
    isUnseen items r = false := by
  rw [Bool.eq_false_iff]
  intro h
  simp only [isUnseen, Bool.and_eq_true, List.all_eq_true, bne_iff_ne] at h
  exact h.2 o ho hkey

theorem isUnseen_scanned (types : List String) (items : List Observation) (r : Record) :
    (scanned (journaled types items) r).isUnseen items = r.isUnseen items := by
  cases hcarriers : carriers r.sourceKey (journaled types items) with
  | nil => rw [scanned_of_carriers_eq_nil hcarriers]
  | cons o rest =>
    obtain ⟨-, ho, hkey⟩ := mem_carriers_journaled (hcarriers ▸ List.mem_cons_self (a := o))
    have hsame := (keepsKeys_scanned (journaled types items)).sourceKey r
    rw [not_isUnseen ho (hkey.trans hsame.symm), not_isUnseen ho hkey]

theorem shows_showing (h : o.title?.isSome) (r : Record) : (r.showing o).Shows o := by
  obtain ⟨title, htitle⟩ := Option.isSome_iff_exists.mp h
  by_cases hstatus : r.status = .completed <;>
    constructor <;> simp [showing, refresh, htitle, hstatus]

theorem status_showing (o : Observation) (r : Record) :
    (r.status = .completed → (r.showing o).status = .active ∧ (r.showing o).completedAt = none) ∧
    (r.status ≠ .completed → (r.showing o).status = r.status ∧
      (r.showing o).completedAt = r.completedAt) := by
  by_cases hstatus : r.status = .completed <;> simp [showing, refresh, hstatus]

theorem scanned_origin (scan : List Observation) (r : Record) :
    (scanned scan r).type = r.type ∧ (scanned scan r).createdAt = r.createdAt ∧
      (scanned scan r).tags = r.tags := by
  unfold scanned
  split
  · simp only [showing, refresh]
    split <;> exact ⟨rfl, rfl, rfl⟩
  · exact ⟨rfl, rfl, rfl⟩

/-- The record after a scan, if the scan did not see it, and if it did. -/
def synced (types : List String) (items : List Observation) (now : String) (r : Record) : Record :=
  let scanned := r.scanned (journaled types items)
  if r.isUnseen items then { scanned with status := .completed, completedAt := some now }
  else scanned

theorem synced_of_seen (ho : o ∈ items) (hkey : o.fingerprint = sourceKey r) :
    synced types items now r = scanned (journaled types items) r := by
  simp [synced, not_isUnseen ho hkey]

theorem settled_synced (hall : ∀ o ∈ journaled types items, o.title?.isSome) (r : Record) :
    r.Settled types items now (synced types items now r) := by
  have hkeys := keepsKeys_scanned (journaled types items)
  obtain ⟨htype, hcreated, htags⟩ := scanned_origin (journaled types items) r
  refine ⟨?id, ?type, ?sourceKey, ?createdAt, ?tags, ?carried, ?passedOver, ?missing⟩
  case id => unfold synced; split <;> exact hkeys.id r
  case type => unfold synced; split <;> exact htype
  case sourceKey => unfold synced; split <;> exact hkeys.sourceKey r
  case createdAt => unfold synced; split <;> exact hcreated
  case tags => unfold synced; split <;> exact htags
  case carried =>
    intro o hlast
    obtain ⟨hjournaled, ho, hkey⟩ := mem_carriers_journaled (List.mem_of_getLast? hlast)
    have hscanned : scanned (journaled types items) r = r.showing o := by simp [scanned, hlast]
    rw [synced_of_seen ho hkey, hscanned]
    exact ⟨shows_showing (hall o hjournaled) r, status_showing o r⟩
  case passedOver =>
    rintro hnone ⟨o, ho, hkey⟩
    rw [synced_of_seen ho hkey, scanned_of_carriers_eq_nil hnone]
  case missing =>
    intro hmissing
    have hnone : carriers r.sourceKey (journaled types items) = [] :=
      List.filter_eq_nil_iff.mpr fun o ho => by
        simpa using hmissing o (List.mem_of_mem_filter ho)
    have hall : (items.all fun o => o.fingerprint != r.sourceKey) = true := by simpa using hmissing
    simp only [synced, isUnseen, scanned_of_carriers_eq_nil hnone, hall, Bool.and_true, beq_iff_eq]
    exact ⟨fun hactive => if_pos hactive, fun hactive => if_neg hactive⟩

theorem started_synced (hall : ∀ o ∈ journaled types items, o.type?.isSome ∧ o.title?.isSome)
    (hfirst : (carriers first.fingerprint (journaled types items)).head? = some first) :
    Started types items now (synced types items now (begunBy n now first)) := by
  have hmem := mem_carriers_journaled (List.mem_of_head? hfirst)
  obtain ⟨type, htype⟩ := Option.isSome_iff_exists.mp (hall first hmem.1).1
  cases hlast : (carriers first.fingerprint (journaled types items)).getLast? with
  | none => simp [List.getLast?_eq_none_iff.mp hlast] at hfirst
  | some last =>
    obtain ⟨hjournaled, -, hkey⟩ := mem_carriers_journaled (List.mem_of_getLast? hlast)
    have hsynced : synced types items now (begunBy n now first) =
        (begunBy n now first).showing last := by
      rw [synced_of_seen hmem.2.1 rfl]
      simp [scanned, begunBy, begun, hlast]
    have hkeys : ((begunBy n now first).showing last).sourceKey = first.fingerprint := by
      simp [begunBy, begun]
    rw [hsynced]
    constructor
    case type => exact ⟨first, hkeys ▸ hfirst, by simp [showing, refresh, begunBy, begun, htype]⟩
    case shows => exact ⟨last, hkeys ▸ hlast, shows_showing (hall last hjournaled).2 _⟩
    all_goals rfl

end Record

/-- The tables before and after a scan. The records that were there are `kept`, each one settled,
and behind them stand the `added` ones, one for each new fingerprint, in the order in which these
first occur. -/
structure Store.Scanned (types : List String) (items : List Observation) (now : String)
    (store store' : Store) (kept added : List Record) : Prop where
  records : store'.records = kept ++ added
  settled : List.Forall₂ (Record.Settled types items now) store.records kept
  started : ∀ r ∈ added, r.Started types items now
  keys : added.map Record.sourceKey =
    (distinct ((journaled types items).map (·.fingerprint))).filter (· ∉ store.known)
  ids : ∀ (i : Nat) (r : Record), added[i]? = some r → r.id = store.lastNumber + 1 + i
  counter : store'.counter = if added = [] then store.counter else store.lastNumber + added.length
  version : store'.version = store.version

theorem Store.reconciled_taken (store : Store) (types : List String) (items : List Observation)
    (now : String) :
    ((store.taken now (journaled types items)).reconciled items now).records =
      (store.records ++ begunBehind store.lastNumber now
        (newcomers store.known (journaled types items))).map (Record.synced types items now) := by
  simp only [Store.reconciled, Store.taken, List.map_map]
  refine List.map_congr_left fun r _ => ?_
  simp only [Function.comp_apply, Record.isUnseen_scanned, Record.synced]

theorem mem_begunBehind (h : r ∈ begunBehind last stamp new) :
    ∃ n, ∃ o ∈ new, r = .begunBy n stamp o := by
  obtain ⟨i, hi⟩ := List.mem_iff_getElem?.mp h
  rw [getElem?_begunBehind, Option.map_eq_some_iff] at hi
  obtain ⟨o, ho, rfl⟩ := hi
  exact ⟨_, o, List.mem_of_getElem? ho, rfl⟩

theorem length_begunBehind (last : Int) (stamp : String) (new : List Observation) :
    (begunBehind last stamp new).length = new.length := by
  simpa using congrArg List.length (map_sourceKey_begunBehind last stamp new)

theorem Store.scanned_reconciled (store : Store)
    (hall : ∀ o ∈ journaled types items, o.type?.isSome ∧ o.title?.isSome) :
    store.Scanned types items now
      ((store.taken now (journaled types items)).reconciled items now)
      (store.records.map (Record.synced types items now))
      ((begunBehind store.lastNumber now (newcomers store.known (journaled types items))).map
        (Record.synced types items now)) := by
  have hsettled (r : Record) : r.Settled types items now (r.synced types items now) :=
    Record.settled_synced (fun o ho => (hall o ho).2) r
  have hempty : newcomers store.known (journaled types items) = [] ↔
      begunBehind store.lastNumber now (newcomers store.known (journaled types items)) = [] := by
    rw [← List.length_eq_zero_iff, ← List.length_eq_zero_iff, length_begunBehind]
  refine ⟨?records, ?settled, ?started, ?keys, ?ids, ?counter, rfl⟩
  case records => rw [reconciled_taken, List.map_append]
  case settled =>
    rw [List.forall₂_map_right_iff]
    exact List.forall₂_same.mpr fun r _ => hsettled r
  case started =>
    intro r hr
    obtain ⟨begun, hbegun, rfl⟩ := List.mem_map.mp hr
    obtain ⟨n, first, hfirst, rfl⟩ := mem_begunBehind hbegun
    exact Record.started_synced hall (mem_newcomers hfirst).2
  case keys =>
    have hkeys : Record.sourceKey ∘ Record.synced types items now = Record.sourceKey :=
      funext fun r => (hsettled r).sourceKey
    rw [List.map_map, hkeys, map_sourceKey_begunBehind, map_fingerprint_newcomers]
  case ids =>
    intro i r hr
    simp only [List.getElem?_map, getElem?_begunBehind, Option.map_eq_some_iff] at hr
    obtain ⟨_, ⟨o, -, rfl⟩, rfl⟩ := hr
    exact (hsettled _).id
  case counter =>
    simp only [Store.reconciled, Store.taken, List.map_eq_nil_iff, hempty, List.length_map,
      length_begunBehind]

theorem stamp_ok : s.stamp = .ok now ↔ s.now.stamp? = some now := by
  unfold Session.stamp
  cases s.now.stamp? <;> simp

/-- No record that a scan just took in is completed by it. -/
theorem countP_isUnseen_taken (store : Store) (types : List String) (items : List Observation)
    (now : String) :
    (store.taken now (journaled types items)).records.countP (Record.isUnseen items) =
      store.records.countP (Record.isUnseen items) := by
  have hbegun : (begunBehind store.lastNumber now
      (newcomers store.known (journaled types items))).countP (Record.isUnseen items) = 0 := by
    rw [List.countP_eq_zero]
    intro r hr
    obtain ⟨n, o, ho, rfl⟩ := mem_begunBehind hr
    have hmem := Record.mem_carriers_journaled (List.mem_of_head? (mem_newcomers ho).2)
    simp [Record.not_isUnseen hmem.2.1 (r := .begunBy n now o) rfl]
  have hcomp : Record.isUnseen items ∘ Record.scanned (journaled types items) =
      Record.isUnseen items := funext fun r => Record.isUnseen_scanned types items r
  simp only [Store.taken, List.countP_map, hcomp, List.countP_append, hbegun, Nat.add_zero]

/-- What a scan counts: new records are none of those it completes. -/
def scanCounts (types : List String) (items : List Observation) (store : Store) : SyncCounts where
  scanned := items.length
  journaled := (journaled types items).length
  skipped := items.countP fun o => !o.isJournaled types
  completed := store.records.countP (Record.isUnseen items)

/-- All that a scan does to the table, and what it counts. -/
theorem sync_ok (hw : s.store.WellFormed) (h : (sync items).run s = .ok counts t) :
    ∃ now kept added, s.now.stamp? = some now ∧
      s.store.Scanned s.tags items now t.store kept added ∧
      counts = scanCounts s.tags items s.store := by
  obtain ⟨now, hstamp, hstore, hcounts, hall⟩ := sync_run_ok hw h
  rw [countP_isUnseen_taken] at hcounts
  exact ⟨now, _, _, stamp_ok.mp hstamp, hstore ▸ s.store.scanned_reconciled hall, hcounts⟩

-- ---------------------------------------------------------------------------
-- A journal with records of every status
-- ---------------------------------------------------------------------------

def remarkAt (line : Int) (tag message : String) (priority : Priority) : Observation :=
  Remark.observe ⟨"main.c", line, tag, message, priority, none, none, none, none⟩

def recordBefore (id : Int) (type title : String) (status : Status)
    (completedAt : Option String) : Record where
  id := id
  type := type
  title := title
  description := none
  status := status
  createdAt := "2024-01-02T03:04:05.000+00:00"
  completedAt := completedAt
  priority := .whole 3
  tags := none
  sourceKey := fingerprintOf type "main.c" title

/-- A journal in use. One of its records has a tag that it does not keep any more. -/
def usedJournal : Session where
  store := {
    records := [
      recordBefore 3 "TODO" "gone" .active none,
      recordBefore 5 "BUG" "back" .completed (some "2024-02-03T04:05:06.000+00:00"),
      recordBefore 6 "NOTE" "kept" .active none,
      recordBefore 7 "BUG" "void" .cancelled none]
    counter := 9
    version := some layoutVersion }
  tags := ["TODO", "BUG"]
  now := ⟨⟨2024, 5, 6⟩, ⟨12, 0, 0, 0⟩, some 0⟩

def laterScan : List Observation := [
  remarkAt 1 "todo" "new" .normal,
  remarkAt 2 "BUG" "back" .normal,
  remarkAt 3 "NOTE" "kept" .normal,
  remarkAt 4 "todo" "new" .high,
  remarkAt 5 "BUG" "void" .normal,
  remarkAt 6 "BUG" "other" .low]

theorem wellFormed_usedJournal : usedJournal.store.WellFormed := ⟨by decide, by decide⟩

theorem sync_ok_usedJournal :
    ∃ counts t, (sync laterScan).run usedJournal = .ok counts t ∧
      ∃ now kept added, usedJournal.now.stamp? = some now ∧
        usedJournal.store.Scanned usedJournal.tags laterScan now t.store kept added ∧
        counts = scanCounts usedJournal.tags laterScan usedJournal.store := by
  have hsucceeds : succeeds (sync laterScan) usedJournal = true := by decide +kernel
  obtain ⟨counts, t, h⟩ := succeeds_iff.mp hsucceeds
  exact ⟨counts, t, h, sync_ok wellFormed_usedJournal h⟩

end Journal

end Marginalia
