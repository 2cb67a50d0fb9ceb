import Marginalia.Proofs.Journal.Repeated

/-!
# Scans in another order

A scan without repeated fingerprints may hand its observations over in any order. It then ends the
same way, counts the same, and leaves the same tables, but for the numbers that its new records
get: the newcomers are the same ones, and every record is carried by one observation at most.
-/

namespace Marginalia.Journal

/-- The record with no number of its own. -/
def Record.unnumbered (r : Record) : Record := { r with id := 0 }

/-- Two tables that came from one. The records that were there are the same ones in both, and the
others are the same but for their numbers, which are the same ones in all. -/
structure Store.SameButNumbers (before a b : Store) (kept added added' : List Record) : Prop where
  left : a.records = kept ++ added
  right : b.records = kept ++ added'
  old : kept.map Record.id = before.records.map Record.id
  new : (added.map Record.unnumbered).Perm (added'.map Record.unnumbered)
  numbers : added.map Record.id = added'.map Record.id
  counter : a.counter = b.counter
  version : a.version = b.version

variable {s t : Session} {store : Store} {scan scan' items items' : List Observation}
variable {types known : List String} {r : Record}

-- ---------------------------------------------------------------------------
-- Observations in another order
-- ---------------------------------------------------------------------------

theorem carriers_perm (hperm : scan.Perm scan') (hnodup : (scan.map (·.fingerprint)).Nodup)
    (key : String) : carriers key scan = carriers key scan' := by
  have hcarriers : (carriers key scan).Perm (carriers key scan') := hperm.filter _
  have hkey : ∀ o ∈ carriers key scan, o.fingerprint = key := fun o ho => by
    simpa using List.of_mem_filter ho
  have honce : ((carriers key scan).map (·.fingerprint)).Nodup :=
    hnodup.sublist (List.filter_sublist.map _)
  match hlist : carriers key scan with
  | [] => exact (hlist ▸ hcarriers).nil_eq
  | [o] => exact (hlist ▸ hcarriers).singleton_eq
  | o :: o' :: rest =>
    rw [hlist] at hkey honce
    have hsame : o.fingerprint = o'.fingerprint := by
      rw [hkey o (by simp), hkey o' (by simp)]
    simp [hsame] at honce

theorem newcomers_eq_filter (hnodup : (scan.map (·.fingerprint)).Nodup) :
    newcomers known scan = scan.filter (·.fingerprint ∉ known) := by
  induction scan generalizing known with
  | nil => rfl
  | cons o rest ih =>
    obtain ⟨hfirst, hrest⟩ := List.nodup_cons.mp hnodup
    by_cases hknown : o.fingerprint ∈ known
    · rw [newcomers_cons_known hknown, ih hrest, List.filter_cons_of_neg (by simpa using hknown)]
    · rw [newcomers_cons_new hknown, ih hrest, List.filter_cons_of_pos (by simpa using hknown)]
      refine congrArg (o :: ·) (List.filter_congr fun o' ho' => ?_)
      have hne : o'.fingerprint ≠ o.fingerprint := fun heq =>
        hfirst (List.mem_map.mpr ⟨o', ho', heq⟩)
      simp [hne]

theorem newcomers_perm (hperm : scan.Perm scan') (hnodup : (scan.map (·.fingerprint)).Nodup)
    (known : List String) : (newcomers known scan).Perm (newcomers known scan') := by
  have hnodup' : (scan'.map (·.fingerprint)).Nodup := (hperm.map _).nodup_iff.mp hnodup
  rw [newcomers_eq_filter hnodup, newcomers_eq_filter hnodup']
  exact hperm.filter _

theorem nodup_journaled (hnodup : (items.map (·.fingerprint)).Nodup) (types : List String) :
    ((journaled types items).map (·.fingerprint)).Nodup :=
  hnodup.sublist (List.filter_sublist.map _)

theorem journaled_perm (hperm : items.Perm items') (types : List String) :
    (journaled types items).Perm (journaled types items') :=
  hperm.filter _

-- ---------------------------------------------------------------------------
-- Records
-- ---------------------------------------------------------------------------

theorem isUnseen_perm (hperm : items.Perm items') (r : Record) :
    r.isUnseen items = r.isUnseen items' := by
  rw [Record.isUnseen, Record.isUnseen, hperm.all_eq]

theorem synced_perm (hperm : items.Perm items') (hnodup : (items.map (·.fingerprint)).Nodup)
    (types : List String) (now : String) :
    Record.synced types items now = Record.synced types items' now := by
  funext r
  have hcarriers := carriers_perm (journaled_perm hperm types) (nodup_journaled hnodup types)
    r.sourceKey
  simp only [Record.synced, Record.scanned, hcarriers, isUnseen_perm hperm]

theorem keepsKeys_synced (types : List String) (items : List Observation) (now : String) :
    Store.KeepsKeys (Record.synced types items now) := by
  have hkeys := Record.keepsKeys_scanned (journaled types items)
  constructor <;> intro r <;> unfold Record.synced <;> split
  · exact hkeys.id r
  · exact hkeys.id r
  · exact hkeys.sourceKey r
  · exact hkeys.sourceKey r

/-- A scan does not look at the numbers of records. -/
theorem unnumbered_synced (types : List String) (items : List Observation) (now : String)
    (r : Record) : (Record.synced types items now r).unnumbered =
      Record.synced types items now r.unnumbered := by
  have hshowing (o : Observation) : (r.showing o).unnumbered = r.unnumbered.showing o := by
    by_cases h : r.status = .completed <;>
      simp [Record.showing, Store.refresh, Record.unnumbered, h]
  have hscanned (scan : List Observation) :
      (r.scanned scan).unnumbered = r.unnumbered.scanned scan := by
    have hkey : r.unnumbered.sourceKey = r.sourceKey := rfl
    unfold Record.scanned
    rw [hkey]
    split
    · exact hshowing _
    · rfl
  have hunseen : r.unnumbered.isUnseen items = r.isUnseen items := rfl
  simp only [Record.synced, hunseen, ← hscanned]
  split <;> rfl

theorem map_unnumbered_begunBehind (last : Int) (stamp : String) (new : List Observation) :
    (begunBehind last stamp new).map Record.unnumbered = new.map (Record.begunBy 0 stamp) := by
  induction new generalizing last with
  | nil => rfl
  | cons o rest ih =>
    rw [begunBehind, List.map_cons, ih, List.map_cons]
    rfl

theorem map_id_begunBehind {new new' : List Observation} (h : new.length = new'.length)
    (last : Int) (stamp : String) :
    (begunBehind last stamp new).map Record.id = (begunBehind last stamp new').map Record.id := by
  induction new generalizing last new' with
  | nil => rw [List.length_eq_zero_iff.mp h.symm]
  | cons o rest ih =>
    cases new' with
    | nil => cases h
    | cons o' rest' =>
      have hrest := ih (Nat.succ.inj h) (last + 1)
      rw [begunBehind, begunBehind, List.map_cons, List.map_cons, hrest]
      rfl

-- ---------------------------------------------------------------------------
-- Tables and sessions
-- ---------------------------------------------------------------------------

/-- The records that a scan begins, as they are at its end. -/
def Store.begunBy (store : Store) (types : List String) (items : List Observation) (now : String) :
    List Record :=
  (begunBehind store.lastNumber now (newcomers store.known (journaled types items))).map
    (Record.synced types items now)

theorem records_rescanned (store : Store) (types : List String) (items : List Observation)
    (now : String) : (store.rescanned types items now).records =
      store.records.map (Record.synced types items now) ++ store.begunBy types items now := by
  rw [Store.rescanned, Store.reconciled_taken, List.map_append]
  rfl

theorem map_unnumbered_begunBy (store : Store) (types : List String) (items : List Observation)
    (now : String) : (store.begunBy types items now).map Record.unnumbered =
      ((newcomers store.known (journaled types items)).map (Record.begunBy 0 now)).map
        (Record.synced types items now) := by
  rw [Store.begunBy, List.map_map, ← map_unnumbered_begunBehind store.lastNumber, List.map_map]
  exact List.map_congr_left fun r _ => unnumbered_synced types items now r

theorem map_id_synced (l : List Record) (types : List String) (items : List Observation)
    (now : String) : (l.map (Record.synced types items now)).map Record.id = l.map Record.id := by
  simp [(keepsKeys_synced types items now).id]

theorem sameButNumbers_of_perm (hperm : items.Perm items')
    (hnodup : (items.map (·.fingerprint)).Nodup) (store : Store) (types : List String)
    (now : String) :
    store.SameButNumbers (store.rescanned types items now) (store.rescanned types items' now)
      (store.records.map (Record.synced types items now)) (store.begunBy types items now)
      (store.begunBy types items' now) := by
  have hsynced := synced_perm hperm hnodup types now
  have hnew :=
    newcomers_perm (journaled_perm hperm types) (nodup_journaled hnodup types) store.known
  refine ⟨records_rescanned _ _ _ _, ?right, map_id_synced _ _ _ _, ?new, ?numbers, ?counter, rfl⟩
  case right => rw [records_rescanned, hsynced]
  case new =>
    rw [map_unnumbered_begunBy, map_unnumbered_begunBy, ← hsynced]
    exact (hnew.map _).map _
  case numbers =>
    rw [Store.begunBy, Store.begunBy, map_id_synced, map_id_synced,
      map_id_begunBehind hnew.length_eq]
  case counter =>
    have hempty : newcomers store.known (journaled types items) = [] ↔
        newcomers store.known (journaled types items') = [] := by
      rw [← List.length_eq_zero_iff, ← List.length_eq_zero_iff, hnew.length_eq]
    simp only [Store.rescanned, Store.reconciled, Store.taken, hempty, hnew.length_eq]

theorem Session.Ready.perm (h : s.Ready items) (hperm : items.Perm items')
    (hnodup : (items.map (·.fingerprint)).Nodup) : s.Ready items' := by
  have hjournaled := journaled_perm hperm s.tags
  have hnew := newcomers_perm hjournaled (nodup_journaled hnodup s.tags) s.store.known
  refine ⟨h.clock, fun o ho => h.types o (hperm.mem_iff.mpr ho), ?_⟩
  refine ⟨fun o ho => h.admits.titles o (hjournaled.mem_iff.mpr ho),
    fun o ho => h.admits.known o (hjournaled.mem_iff.mpr ho), fun hne => ?_⟩
  rw [← hnew.length_eq]
  exact h.admits.room fun hnil => hne (hnil ▸ hnew).nil_eq.symm

theorem scanCounts_perm (hperm : items.Perm items') (types : List String) (store : Store) :
    scanCounts types items store = scanCounts types items' store := by
  have hunseen : Record.isUnseen items = Record.isUnseen items' := funext (isUnseen_perm hperm)
  simp only [scanCounts, hperm.length_eq, (journaled_perm hperm types).length_eq, hperm.countP_eq,
    hunseen]

/-- In another order, a scan with distinct fingerprints ends well as it did, counts the same, and
leaves the same tables but for the numbers of the records that it begins. -/
theorem scan_order_only_numbers (hw : s.store.WellFormed) (hperm : items.Perm items')
    (hnodup : (items.map (·.fingerprint)).Nodup) (h : (sync items).run s = .ok counts t) :
    ∃ t' kept added added', (sync items').run s = .ok counts t' ∧
      s.store.SameButNumbers t.store t'.store kept added added' := by
  have hready := ((sync_ends_well_iff hw).mp ⟨counts, t, h⟩).perm hperm hnodup
  obtain ⟨counts', t', h'⟩ := (sync_ends_well_iff hw).mpr hready
  obtain ⟨now, hstamp, hstore, -, -⟩ := sync_run_ok hw h
  obtain ⟨now', hstamp', hstore', -, -⟩ := sync_run_ok hw h'
  obtain ⟨_, _, _, -, -, hcounts⟩ := sync_ok hw h
  obtain ⟨_, _, _, -, -, hcounts'⟩ := sync_ok hw h'
  cases hstamp.symm.trans hstamp'
  have hsame : counts' = counts := by rw [hcounts, hcounts', scanCounts_perm hperm]
  have htables := sameButNumbers_of_perm hperm hnodup s.store s.tags now
  rw [Store.rescanned, Store.rescanned, ← hstore, ← hstore'] at htables
  exact ⟨t', _, _, _, hsame ▸ h', htables⟩

def distinctScan : List Observation := [
  remarkAt 1 "todo" "new" .normal,
  remarkAt 2 "BUG" "back" .normal,
  remarkAt 3 "NOTE" "kept" .normal,
  remarkAt 5 "BUG" "void" .high,
  remarkAt 6 "BUG" "other" .low]

theorem scan_order_only_numbers_usedJournal :
    distinctScan.Perm distinctScan.reverse ∧ (distinctScan.map (·.fingerprint)).Nodup ∧
      ∃ counts t t' kept added added', (sync distinctScan).run usedJournal = .ok counts t ∧
        (sync distinctScan.reverse).run usedJournal = .ok counts t' ∧
        usedJournal.store.SameButNumbers t.store t'.store kept added added' := by
  have hperm : distinctScan.Perm distinctScan.reverse := (List.reverse_perm _).symm
  have hnodup : (distinctScan.map (·.fingerprint)).Nodup := by decide +kernel
  have hsucceeds : succeeds (sync distinctScan) usedJournal = true := by decide +kernel
  obtain ⟨counts, t, h⟩ := succeeds_iff.mp hsucceeds
  obtain ⟨t', kept, added, added', h', htables⟩ :=
    scan_order_only_numbers wellFormed_usedJournal hperm hnodup h
  exact ⟨hperm, hnodup, counts, t, t', kept, added, added', h, h', htables⟩

end Marginalia.Journal
