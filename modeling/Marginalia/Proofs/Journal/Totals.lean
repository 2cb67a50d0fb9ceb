import Marginalia.Proofs.Journal.Listing
import Mathlib.Algebra.BigOperators.Group.List.Lemmas

/-!
# Statistics

What is counted agrees with what is listed. The statistics look at the tables on a way of their own:
they group the records, and they compare the texts of times with the text of the time a week ago.
Each record is in one group, and texts are in the order of time, so the counts are those of the
entries that the whole listing hands out.
-/

namespace Marginalia.Journal

open Store (groupBefore)
open Time (Moment microsPerDay)

/-- The total of a status. -/
def Store.Stats.total (stats : Store.Stats) : Status → Nat
  | .active => stats.active
  | .completed => stats.completed
  | .cancelled => stats.cancelled

def Entry.isOf (type : String) (status : Status) (e : Entry) : Bool :=
  e.type.text? == some type && e.status == status

/-- A completed entry whose time is no earlier than an instant, both cut to the millisecond. -/
def Entry.completedSince (since : Int) (e : Entry) : Bool :=
  e.status == .completed && e.completedAt.any fun time => since / 1000 ≤ time.instant / 1000

/-- Statistics that agree with the whole listing and with the listings of the statuses. -/
structure Store.Stats.Agrees (stats : Store.Stats) (entries : List Entry)
    (entriesOf : Status → List Entry) (since : Int) : Prop where
  totals : ∀ x, stats.total x = (entriesOf x).length ∧
    stats.total x = entries.countP (·.status = x)
  sum : stats.active + stats.completed + stats.cancelled = entries.length
  ascending : stats.groups.Pairwise fun g h =>
    toLex (g.type, g.status.name) < toLex (h.type, h.status.name)
  groups : ∀ g, g ∈ stats.groups ↔ g.count = entries.countP (Entry.isOf g.type g.status) ∧
    0 < g.count
  counts : (stats.groups.map (·.count)).sum = entries.length
  week : stats.completedThisWeek = entries.countP (Entry.completedSince since)

variable {s t u : Session} {store : Store} {items : List Observation} {r : Record}
variable {records : List Record} {e : Entry} {entries : List Entry}

-- ---------------------------------------------------------------------------
-- Groups
-- ---------------------------------------------------------------------------

theorem Status.name_injective : Function.Injective Status.name := fun a b h => by
  have hsame := Status.ofName?_name a
  rw [h, Status.ofName?_name] at hsame
  exact (Option.some.inj hsame).symm

theorem groupBefore_eq (a b : String × Status) :
    groupBefore a b = decide (toLex (a.1, a.2.name) ≤ toLex (b.1, b.2.name)) := by
  rw [Bool.eq_iff_iff]
  simp only [groupBefore, Bool.or_eq_true, Bool.and_eq_true, decide_eq_true_eq, beq_iff_eq,
    Prod.Lex.toLex_le_toLex, le_iff_lt_or_eq (a := a.2.name)]

/-- The groups of a table, without their counts. -/
def Store.groupKeys (store : Store) : List (String × Status) :=
  (distinct (store.records.map fun r => (r.type, r.status))).mergeSort groupBefore

theorem nodup_groupKeys (store : Store) : store.groupKeys.Nodup :=
  (List.mergeSort_perm _ _).nodup_iff.mpr (nodup_distinct _)

theorem mem_groupKeys (store : Store) (key : String × Status) :
    key ∈ store.groupKeys ↔ ∃ r ∈ store.records, (r.type, r.status) = key := by
  rw [Store.groupKeys, List.mem_mergeSort, mem_distinct, List.mem_map]

theorem groups_eq (store : Store) : store.groups = store.groupKeys.map fun key =>
    ⟨key.1, key.2, store.records.countP fun r => r.type == key.1 && r.status == key.2⟩ := rfl

theorem pairwise_groupKeys (store : Store) : store.groupKeys.Pairwise fun a b =>
    toLex (a.1, a.2.name) < toLex (b.1, b.2.name) := by
  have hbefore : groupBefore = fun a b => decide (toLex (a.1, a.2.name) ≤ toLex (b.1, b.2.name)) :=
    funext₂ groupBefore_eq
  have hsorted : store.groupKeys.Pairwise fun a b =>
      toLex (a.1, a.2.name) ≤ toLex (b.1, b.2.name) := by
    rw [Store.groupKeys, hbefore]
    exact List.pairwise_mergeSort' (fun a b : String × Status =>
      toLex (a.1, a.2.name) ≤ toLex (b.1, b.2.name)) _
  refine (hsorted.and (nodup_groupKeys store)).imp fun ⟨hle, hne⟩ =>
    lt_of_le_of_ne hle fun heq => hne ?_
  obtain ⟨htype, hname⟩ := Prod.ext_iff.mp (toLex_inj.mp heq)
  exact Prod.ext htype (Status.name_injective hname)

theorem mem_groups (store : Store) (g : Store.GroupCount) : g ∈ store.groups ↔
    g.count = store.records.countP (fun r => r.type == g.type && r.status == g.status) ∧
      0 < g.count := by
  rw [groups_eq, List.mem_map]
  constructor
  · rintro ⟨key, hkey, rfl⟩
    obtain ⟨r, hr, rfl⟩ := (mem_groupKeys store key).mp hkey
    exact ⟨rfl, List.countP_pos_iff.mpr ⟨r, hr, by simp⟩⟩
  · rintro ⟨hcount, hpos⟩
    obtain ⟨r, hr, hsame⟩ := List.countP_pos_iff.mp (hcount ▸ hpos)
    obtain ⟨htype, hstatus⟩ : r.type = g.type ∧ r.status = g.status := by simpa using hsame
    refine ⟨(g.type, g.status), (mem_groupKeys store _).mpr ⟨r, hr, by rw [htype, hstatus]⟩, ?_⟩
    rw [← hcount]

/-- Every record is in one group. -/
theorem sum_groups (store : Store) : (store.groups.map (·.count)).sum = store.records.length := by
  have hperm : store.groupKeys.Perm (store.records.map fun r => (r.type, r.status)).dedup :=
    (List.perm_ext_iff_of_nodup (nodup_groupKeys store) (List.nodup_dedup _)).mpr fun key => by
      rw [mem_groupKeys, List.mem_dedup, List.mem_map]
  have hsum := List.sum_map_count_dedup_eq_length
    (store.records.map fun r => (r.type, r.status))
  rw [List.length_map] at hsum
  rw [groups_eq, List.map_map, (hperm.map _).sum_eq]
  refine (congrArg List.sum (List.map_congr_left fun key _ => ?_)).trans hsum
  unfold List.count
  rw [List.countP_map, Function.comp_apply]
  exact List.countP_congr fun r _ => by simp [Prod.ext_iff]

-- ---------------------------------------------------------------------------
-- Times
-- ---------------------------------------------------------------------------

/-- The completion time of an entry that the journal wrote is the one of its stamp. -/
theorem instant_completed (hstamp : Moment.stamp? moment = some stamp)
    (hr : r.completedAt = some stamp) (he : r.entry = .ok e) :
    ∃ time, e.completedAt = some time ∧ time.instant = moment.millis * 1000 := by
  obtain ⟨time, hread, hinstant⟩ := Time.Iso.read_stamp_instant hstamp
  rw [entry_eq, hr] at he
  obtain ⟨createdAt, -, he⟩ := bind_ok.mp he
  obtain ⟨completedAt, hcompleted, he⟩ := bind_ok.mp he
  cases he
  rw [readCompletion_some (readStamp_of_read hread)] at hcompleted
  cases hcompleted
  exact ⟨time, rfl, hinstant⟩

/-- Among the records of the journal, texts of times are compared as the times are. -/
theorem completedSince_entry (hstamps : ∀ stamp ∈ r.completedAt, IsStamp stamp)
    (hnone : r.status = .completed → r.completedAt.isSome)
    (hsince : Moment.ofInstant? since = some moment) (he : r.entry = .ok e) :
    (r.status == .completed && r.completedAt.any fun time => moment.millisText ≤ time) =
      e.completedSince since := by
  obtain ⟨-, -, hstatus, -⟩ := entry_copied he
  rw [Entry.completedSince, hstatus]
  by_cases hcompleted : r.status = .completed
  · obtain ⟨stamp, hr⟩ := Option.isSome_iff_exists.mp (hnone hcompleted)
    obtain ⟨completed, hstamp⟩ := hstamps stamp hr
    obtain ⟨time, htime, hinstant⟩ := instant_completed hstamp hr he
    have hmillis : moment.millis = since / 1000 := by
      rw [Moment.millis, Moment.instant_ofInstant hsince]
    have horder := Moment.stamp_le_iff (Moment.stamp_ofInstant hsince) hstamp
    have hcut : time.instant / 1000 = completed.millis := by
      rw [hinstant]
      exact Int.mul_ediv_cancel _ (by decide)
    simp only [hr, htime, Option.any_some, horder, hmillis, hcut]
  · have hopen : (r.status == .completed) = false := by simpa using hcompleted
    rw [hopen, Bool.false_and, Bool.false_and]

-- ---------------------------------------------------------------------------
-- The statistics
-- ---------------------------------------------------------------------------

theorem daysBefore?_week (now : Moment) : now.daysBefore? week =
    now.utc?.bind fun _ => Moment.ofInstant? (now.instant - 7 * microsPerDay) := by
  cases hutc : now.utc? with
  | none => simp [Moment.daysBefore?, hutc]
  | some utc => simp [Moment.daysBefore?, hutc, Moment.instant_utc hutc, week]

theorem run_stats (h : s.now.daysBefore? week = some moment) :
    stats.run s = .ok (s.store.stats moment.millisText) s.settled := by
  refine run_bind_ok.mpr ⟨s.store, s.settled, run_query rfl,
    run_bind_ok.mpr ⟨s.settled, s.settled, rfl, ?_⟩⟩
  rw [Session.now_settled, h]
  rfl

theorem run_stats_out_of_range (h : s.now.daysBefore? week = none) :
    stats.run s = .error .dateRange s.settled := by
  refine run_bind_error.mpr (.inr ⟨s.store, s.settled, run_query rfl,
    run_bind_error.mpr (.inr ⟨s.settled, s.settled, rfl, ?_⟩)⟩)
  rw [Session.now_settled, h]
  rfl

theorem total_stats (store : Store) (since : String) (x : Status) :
    (store.stats since).total x = store.countOf x := by
  cases x <;> rfl

/-- On tables that only the journal wrote, the statistics agree with the listings. -/
theorem Store.Regular.stats_agree (h : store.Regular items)
    (hsince : Moment.ofInstant? since = some moment)
    (hall : (store.listing none none).map Record.entry = entries.map .ok)
    (hparts : ∀ x, (store.listing (some x) none).map Record.entry =
      (entriesOf x).map .ok) :
    (store.stats moment.millisText).Agrees entries entriesOf since := by
  have hperm : (store.listing none none).Perm store.records := by
    simpa using perm_listing store none none
  have hmember {r : Record} (hr : r ∈ store.listing none none) : r ∈ store.records :=
    hperm.mem_iff.mp hr
  have hcountP {p : Record → Bool} {q : Entry → Bool}
      (hpq : ∀ r ∈ store.records, ∀ e, r.entry = .ok e → p r = q e) :
      store.records.countP p = entries.countP q := by
    rw [← hperm.countP_eq]
    exact countP_entries hall fun r hr => hpq r (hmember hr)
  have hlength : store.records.length = entries.length := by
    have hlength := congrArg List.length hall
    rwa [List.length_map, List.length_map, hperm.length_eq] at hlength
  have hstatus (x : Status) : store.countOf x = entries.countP (·.status = x) :=
    hcountP fun r _ e he => by
      rw [(entry_copied he).2.2.1]
      rfl
  refine ⟨?totals, ?sum, ?ascending, ?groups, ?counts, ?week⟩
  case totals =>
    intro x
    have hpart := congrArg List.length (hparts x)
    rw [List.length_map, List.length_map, (perm_listing store (some x) none).length_eq,
      ← List.countP_eq_length_filter] at hpart
    rw [total_stats]
    refine ⟨?_, hstatus x⟩
    rw [← hpart]
    exact List.countP_congr fun r _ => by simpa using eq_comm
  case sum =>
    have hstatuses := (perm_statuses entries).length_eq
    simp only [Status.all, List.flatMap_cons, List.flatMap_nil, List.append_nil,
      List.length_append, ← List.countP_eq_length_filter, ← hstatus] at hstatuses
    rw [← hstatuses, ← Nat.add_assoc]
    rfl
  case ascending =>
    show store.groups.Pairwise _
    rw [groups_eq, List.pairwise_map]
    exact pairwise_groupKeys store
  case groups =>
    intro g
    have hgroup : store.records.countP (fun r => r.type == g.type && r.status == g.status) =
        entries.countP (Entry.isOf g.type g.status) := hcountP fun r _ e he => by
      obtain ⟨-, htype, hstatus, -⟩ := entry_copied he
      rw [Entry.isOf, htype, hstatus, Data.text?]
      rfl
    rw [← hgroup]
    exact mem_groups store g
  case counts => exact (sum_groups store).trans hlength
  case week =>
    exact hcountP fun r hr e he => completedSince_entry (h.completedAt r hr)
      (h.regular r hr).completed hsince he

/-- In every run of a new journal, whatever the clock shows, the statistics agree with the listings
if both the time and the time seven days earlier lie in the calendar in UTC. -/
theorem statistics_agree (p : Program) (types : List String) (now : Moment) :
    ∀ s ∈ p.sessions types now, ∀ u : Session, u.store = s.store → u.now.utc?.isSome →
      (Moment.ofInstant? (u.now.instant - 7 * microsPerDay)).isSome →
      ∃ totals entries entriesOf t, stats.run u = .ok totals t ∧ t.store = u.store ∧
        (∃ v, (list (.int (-1)) (.int 0) none .null).run u = .ok entries v) ∧
        (∀ x, ∃ v, (list (.int (-1)) (.int 0) (some x) .null).run u = .ok (entriesOf x) v) ∧
        totals.Agrees entries entriesOf (u.now.instant - 7 * microsPerDay) := by
  rw [← map_session_history]
  refine List.forall_mem_map.mpr fun point hpoint u hu hutc hearlier => ?_
  have hlater : (p.sessions types now).Pairwise fun _ _ => True :=
    List.pairwise_of_forall fun _ _ => trivial
  have hregular := (preserved_regular.history Store.regular_fresh p hlater point hpoint).used
  rw [← hu] at hregular
  obtain ⟨moment, hmoment⟩ := Option.isSome_iff_exists.mp hearlier
  obtain ⟨utc, hutc⟩ := Option.isSome_iff_exists.mp hutc
  have hsince : u.now.daysBefore? week = some moment := by
    rw [daysBefore?_week, hutc, Option.bind_some, hmoment]
  obtain ⟨entries, v, hrun, -, hall⟩ := run_list_whole hregular.toOwn none none
  choose entriesOf w hw using fun x => run_list_whole hregular.toOwn (some x) none
  exact ⟨_, entries, entriesOf, _, run_stats hsince, rfl, ⟨v, hrun⟩, fun x => ⟨w x, (hw x).1⟩,
    hregular.stats_agree hmoment hall fun x => (hw x).2.2⟩

/-- Three scans: one remark is gone in the second one, and another one five days later. -/
def fiveDays : Program :=
  .seq (.leaf (.call (.sync [remarkAt 1 "TODO" "one" .normal, remarkAt 2 "BUG" "two" .high,
      remarkAt 3 "TODO" "three" .low])))
    (.seq (.leaf (.call (.sync [remarkAt 2 "BUG" "two" .high, remarkAt 3 "TODO" "three" .low])))
      (.seq (.leaf (.wait ⟨⟨2024, 5, 11⟩, ⟨12, 0, 0, 0⟩, some 0⟩))
        (.leaf (.call (.sync [remarkAt 3 "TODO" "three" .low])))))

/-- A clock in the east, a week and a millisecond after the completion of the first remark. -/
def weekLater : Moment := ⟨⟨2024, 5, 13⟩, ⟨14, 0, 0, 1000⟩, some 7200000000⟩

theorem statistics_agree_fiveDays :
    ∃ s ∈ fiveDays.sessions usedJournal.tags usedJournal.now,
      let u := { s with now := weekLater }
      ∃ totals entries entriesOf t, stats.run u = .ok totals t ∧
        totals.Agrees entries entriesOf (weekLater.instant - 7 * microsPerDay) ∧
        totals.completed = 2 ∧ totals.completedThisWeek = 1 := by
  generalize hs : (fiveDays.sessions usedJournal.tags usedJournal.now).getLast
    (List.cons_ne_nil _ _) = s
  have hmem : s ∈ fiveDays.sessions usedJournal.tags usedJournal.now := hs ▸ List.getLast_mem _
  have hweek : weekLater.daysBefore? week = some ⟨⟨2024, 5, 6⟩, ⟨12, 0, 0, 1000⟩, some 0⟩ := by
    decide +kernel
  have hsince : Moment.millisText ⟨⟨2024, 5, 6⟩, ⟨12, 0, 0, 1000⟩, some 0⟩ =
      "2024-05-06T12:00:00.001+00:00" := by
    decide +kernel
  obtain ⟨_, entries, entriesOf, t, hrun, -, -, -, hagrees⟩ :=
    statistics_agree fiveDays usedJournal.tags usedJournal.now s hmem { s with now := weekLater }
      rfl (show weekLater.utc?.isSome by decide +kernel) (show (Moment.ofInstant?
        (weekLater.instant - 7 * microsPerDay)).isSome by decide +kernel)
  obtain ⟨rfl, -⟩ := EStateM.Result.ok.inj (hrun.symm.trans (run_stats hweek))
  rw [hsince] at hrun hagrees
  have hcounts : (s.store.countOf .completed,
      (s.store.stats "2024-05-06T12:00:00.001+00:00").completedThisWeek) = (2, 1) := by
    rw [← hs]
    decide +kernel
  obtain ⟨hcompleted, hthisWeek⟩ := Prod.ext_iff.mp hcounts
  exact ⟨s, hmem, _, entries, entriesOf, t, hrun, hagrees, hcompleted, hthisWeek⟩

-- ---------------------------------------------------------------------------
-- The end of the calendar
-- ---------------------------------------------------------------------------

/-- The last evening of the last year, somewhere west. In UTC it lies in the year after. -/
def lastEvening : Moment := ⟨⟨9999, 12, 31⟩, ⟨23, 0, 0, 0⟩, some (-18000000000)⟩

/-- A week before that evening is a time that can be written, but the statistics are not made up. -/
theorem no_statistics_lastEvening :
    (∃ earlier : Moment, earlier.date.valid ∧ earlier.clock.valid ∧
      earlier.offset = lastEvening.offset ∧
      earlier.instant = lastEvening.instant - 7 * microsPerDay ∧ earlier.stamp?.isSome) ∧
    ∃ t, stats.run (.fresh ["TODO"] lastEvening) = .error .dateRange t := by
  refine ⟨⟨⟨⟨9999, 12, 24⟩, ⟨23, 0, 0, 0⟩, some (-18000000000)⟩, ?_⟩, ?_⟩
  · decide +kernel
  · exact ⟨_, run_stats_out_of_range (by decide +kernel)⟩

end Marginalia.Journal
