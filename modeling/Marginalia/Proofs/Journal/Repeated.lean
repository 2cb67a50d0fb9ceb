import Marginalia.Proofs.Journal.Ready
import Marginalia.Proofs.Journal.Rescan

/-!
# Scanning the same twice

A scan that is repeated finds nothing to do: no fingerprint is new, every record shows already what
the last observation with its source key says, and what the scan does not see is completed since
the first time. So the table stays as it is, whatever the clock says then.
-/

namespace Marginalia.Journal

variable {s t u : Session} {store : Store} {items scan : List Observation} {types : List String}
variable {r : Record}

-- ---------------------------------------------------------------------------
-- Records
-- ---------------------------------------------------------------------------

namespace Record

theorem scanned_scanned (scan : List Observation) (r : Record) :
    scanned scan (scanned scan r) = scanned scan r := by
  cases hlast : (carriers r.sourceKey scan).getLast? with
  | none => rw [scanned_of_carriers_eq_nil (List.getLast?_eq_none_iff.mp hlast),
      scanned_of_carriers_eq_nil (List.getLast?_eq_none_iff.mp hlast)]
  | some o =>
    have honce : scanned scan r = r.showing o := by simp [scanned, hlast]
    have htwice : scanned scan (r.showing o) = (r.showing o).showing o := by
      simp [scanned, hlast]
    rw [honce, htwice, showing_showing]

theorem carriers_journaled_of_isUnseen (h : r.isUnseen items = true) :
    carriers r.sourceKey (journaled types items) = [] := by
  refine List.eq_nil_iff_forall_not_mem.mpr fun o ho => ?_
  obtain ⟨-, ho, hkey⟩ := mem_carriers_journaled ho
  rw [not_isUnseen ho hkey] at h
  cases h

theorem synced_synced (types : List String) (items : List Observation) (now later : String)
    (r : Record) :
    synced types items later (synced types items now r) = synced types items now r := by
  cases hunseen : r.isUnseen items with
  | false =>
    have honce : synced types items now r = scanned (journaled types items) r := by
      simp [synced, hunseen]
    have hseen := (isUnseen_scanned types items r).trans hunseen
    rw [honce, synced, hseen, scanned_scanned]
    rfl
  | true =>
    have hnone : carriers r.sourceKey (journaled types items) = [] :=
      carriers_journaled_of_isUnseen hunseen
    have honce : synced types items now r =
        { r with status := .completed, completedAt := some now } := by
      simp [synced, hunseen, scanned_of_carriers_eq_nil hnone]
    have hnone' : carriers { r with status := .completed, completedAt := some now }.sourceKey
        (journaled types items) = [] := hnone
    rw [honce, synced, scanned_of_carriers_eq_nil hnone']
    rfl

end Record

-- ---------------------------------------------------------------------------
-- Tables
-- ---------------------------------------------------------------------------

theorem newcomers_eq_nil {known : List String} (h : ∀ o ∈ scan, o.fingerprint ∈ known) :
    newcomers known scan = [] := by
  induction scan with
  | nil => rfl
  | cons o rest ih =>
    obtain ⟨ho, hrest⟩ := List.forall_mem_cons.mp h
    rw [newcomers_cons_known ho, ih hrest]

/-- The tables after a whole scan. -/
def Store.rescanned (store : Store) (types : List String) (items : List Observation)
    (now : String) : Store :=
  (store.taken now (journaled types items)).reconciled items now

theorem scanned_rescanned (store : Store) (now : String)
    (hall : ∀ o ∈ journaled types items, o.type?.isSome ∧ o.title?.isSome) :
    ∃ kept added, store.Scanned types items now (store.rescanned types items now) kept added :=
  ⟨_, _, store.scanned_reconciled hall⟩

theorem rescanned_rescanned (store : Store) (now later : String)
    (hall : ∀ o ∈ journaled types items, o.type?.isSome ∧ o.title?.isSome) :
    (store.rescanned types items now).rescanned types items later =
      store.rescanned types items now := by
  obtain ⟨_, _, hscan⟩ := scanned_rescanned store now hall
  generalize hfirst : store.rescanned types items now = first at hscan
  have hnone : newcomers first.known (journaled types items) = [] :=
    newcomers_eq_nil hscan.upToDate.known
  have hrecords : (first.rescanned types items later).records = first.records := by
    rw [Store.rescanned, Store.reconciled_taken, hnone, begunBehind, List.append_nil, ← hfirst,
      Store.rescanned, Store.reconciled_taken, List.map_map]
    exact List.map_congr_left fun r _ => Record.synced_synced types items now later r
  have hcounter : (first.rescanned types items later).counter = first.counter := by
    simp [Store.rescanned, Store.reconciled, Store.taken, hnone]
  exact congrArg₂ (Store.mk · · first.version) hrecords hcounter

-- ---------------------------------------------------------------------------
-- Sessions
-- ---------------------------------------------------------------------------

theorem presentable_synced (h : r.Presentable) (ho : o ∈ items)
    (hkey : o.fingerprint = r.sourceKey) (types : List String) (now : String) :
    (Record.synced types items now r).Presentable := by
  rw [Record.synced_of_seen ho hkey, Record.scanned]
  split
  · exact presentable_refresh.mpr h
  · exact h

theorem fits_begunBehind {last : Int} {new : List Observation} (hlast : 0 ≤ last)
    (hroom : last + new.length ≤ greatestInt) (hr : r ∈ begunBehind last stamp new) :
    fits r.id = true := by
  obtain ⟨i, hi⟩ := List.mem_iff_getElem?.mp hr
  have hlength : i < new.length := by
    rw [← length_begunBehind last stamp new]
    exact (List.getElem?_eq_some_iff.mp hi).1
  rw [getElem?_begunBehind, Option.map_eq_some_iff] at hi
  obtain ⟨o, -, rfl⟩ := hi
  have hleast : leastInt < 0 := by decide
  show fits (last + 1 + i) = true
  simp only [fits, Bool.and_eq_true, decide_eq_true_eq]
  omega

/-- What a scan was ready for, it is ready for again. -/
theorem admits_rescanned (h : store.Admits (journaled types items)) (hstamp : IsStamp now)
    (hall : ∀ o ∈ journaled types items, o.type?.isSome ∧ o.title?.isSome) :
    (store.rescanned types items now).Admits (journaled types items) := by
  obtain ⟨_, _, hscan⟩ := scanned_rescanned store now hall
  have hnone : newcomers (store.rescanned types items now).known (journaled types items) = [] :=
    newcomers_eq_nil hscan.upToDate.known
  refine ⟨h.titles, fun o ho r hr hkey => ?_, fun hne => absurd hnone hne⟩
  have hseen : o ∈ items := List.mem_of_mem_filter ho
  rw [Store.rescanned, Store.reconciled_taken] at hr
  obtain ⟨before, hbefore, rfl⟩ := List.mem_map.mp hr
  have hkey' : o.fingerprint = before.sourceKey :=
    hkey.symm.trans (Record.settled_synced (fun o ho => (hall o ho).2) before).sourceKey
  refine presentable_synced ?_ hseen hkey' types now
  rcases List.mem_append.mp hbefore with hold | hbegun
  · exact h.known o ho before hold hkey'.symm
  · have hfits := fits_begunBehind Store.lastNumber_nonneg (h.room ?_) hbegun
    · obtain ⟨n, first, -, rfl⟩ := mem_begunBehind hbegun
      exact (presentable_begun hstamp).mpr hfits
    · intro hnew
      simp [hnew, begunBehind] at hbegun

/-- A scan that is repeated, at whatever time, counts as before and completes nothing, and leaves
the tables as they are. It ends well again if the clock can be written down. -/
theorem repeated_scan_changes_nothing (hw : s.store.WellFormed)
    (h : (sync items).run s = .ok counts t) (hstore : u.store = t.store) (htags : u.tags = t.tags) :
    (∀ counts' v, (sync items).run u = .ok counts' v →
      counts' = { counts with completed := 0 } ∧ v.store = t.store) ∧
    (u.now.stamp?.isSome → ∃ counts' v, (sync items).run u = .ok counts' v) := by
  obtain ⟨now, hstamp, hfirst, -, hall⟩ := sync_run_ok hw h
  have hready := (sync_ends_well_iff hw).mp ⟨counts, t, h⟩
  have hkept : t.store = s.store.rescanned s.tags items now := hfirst
  have htypes : u.tags = s.tags := htags.trans (sync_tags hw h)
  have hw' : u.store.WellFormed := hstore ▸ sync_wellFormed hw h
  obtain ⟨_, _, hscan⟩ := scanned_rescanned s.store now hall
  refine ⟨fun counts' v h' => ?_, fun hclock => ?_⟩
  · obtain ⟨later, -, hsecond, -, -⟩ := sync_run_ok hw' h'
    obtain ⟨_, _, _, -, -, hcounts⟩ := sync_ok hw h
    obtain ⟨_, _, _, -, -, hcounts'⟩ := sync_ok hw' h'
    rw [htypes, hstore, hkept] at hsecond hcounts'
    refine ⟨?_, ?_⟩
    · rw [hcounts, hcounts']
      simp only [scanCounts, SyncCounts.mk.injEq, true_and]
      exact hscan.upToDate.completed
    · rw [hsecond, hkept]
      exact rescanned_rescanned s.store now later hall
  · obtain ⟨later, hlater⟩ := Option.isSome_iff_exists.mp hclock
    refine (sync_ends_well_iff hw').mpr ⟨⟨later, stamp_ok.mpr hlater⟩, hready.types, ?_⟩
    rw [htypes, hstore, hkept]
    exact admits_rescanned hready.admits (isStamp_of_stamp hstamp) hall

theorem repeated_scan_changes_nothing_usedJournal :
    ∃ counts t u, (sync laterScan).run usedJournal = .ok counts t ∧
      u = { t with now := laterTime } ∧ u.now.stamp?.isSome ∧
      (∀ counts' v, (sync laterScan).run u = .ok counts' v →
        counts' = { counts with completed := 0 } ∧ v.store = t.store) ∧
      ∃ counts' v, (sync laterScan).run u = .ok counts' v := by
  have hsucceeds : succeeds (sync laterScan) usedJournal = true := by decide +kernel
  obtain ⟨counts, t, h⟩ := succeeds_iff.mp hsucceeds
  have hclock : laterTime.stamp?.isSome := by decide +kernel
  obtain ⟨hsame, hagain⟩ := repeated_scan_changes_nothing wellFormed_usedJournal h
    (u := { t with now := laterTime }) rfl rfl
  exact ⟨counts, t, _, h, rfl, hclock, hsame, hagain hclock⟩

end Marginalia.Journal
