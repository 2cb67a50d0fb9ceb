import Marginalia.Proofs.Journal.Changes
import Marginalia.Proofs.Journal.Sync
import Marginalia.Proofs.Scan.Edits

/-!
# Scanning again

After a scan the table is up to date: it knows all that the scan journals, nothing that the scan
saw is completed, and whatever is active was seen. Another scan that finds the same remarks, in any
order and with any line numbers, finds such a table and has nothing to begin, to complete or to
take up again.
-/

namespace Marginalia

/-- Whether an observation is taken in, and by which record. -/
def Observation.identity (o : Observation) : Option String × String := (o.type?, o.fingerprint)

namespace Journal

/-- Two records that differ at most in what they show. -/
def Record.Rewritten (r r' : Record) : Prop :=
  ∃ title description priority, r' = { r with title, description, priority }

/-- Whether a record agrees with a scan. -/
structure Record.UpToDate (types : List String) (items : List Observation) (r : Record) : Prop where
  open_ : carriers r.sourceKey (journaled types items) ≠ [] → r.status ≠ .completed
  seen : r.status = .active → ∃ o ∈ items, o.fingerprint = r.sourceKey

/-- A table that agrees with a scan. -/
structure Store.UpToDate (types : List String) (items : List Observation) (store : Store) :
    Prop where
  known : ∀ o ∈ journaled types items, o.fingerprint ∈ store.known
  records : ∀ r ∈ store.records, r.UpToDate types items

variable {s t : Session} {store store' : Store} {kept added : List Record} {r r' : Record}
variable {types : List String} {items items' : List Observation}

-- ---------------------------------------------------------------------------
-- After a scan
-- ---------------------------------------------------------------------------

theorem Record.Settled.upToDate (h : r.Settled types items now r') :
    r'.UpToDate types items := by
  constructor
  case open_ =>
    intro hcarried
    rw [h.sourceKey] at hcarried
    obtain ⟨-, hback, hsame⟩ := h.carried _ (List.getLast?_eq_some_getLast hcarried)
    by_cases hstatus : r.status = .completed
    · simp [hback hstatus]
    · simpa [hsame hstatus] using hstatus
  case seen =>
    intro hactive
    rw [h.sourceKey]
    by_contra! hmissing
    obtain ⟨hcompleted, hsame⟩ := h.missing hmissing
    by_cases hstatus : r.status = .active
    · simp [hcompleted hstatus] at hactive
    · exact hstatus (hsame hstatus ▸ hactive)

theorem Record.Started.upToDate (h : r.Started types items now) : r.UpToDate types items := by
  obtain ⟨last, hlast, -⟩ := h.shows
  obtain ⟨-, ho, hkey⟩ := Record.mem_carriers_journaled (List.mem_of_getLast? hlast)
  exact ⟨fun _ => by simp [h.status], fun _ => ⟨last, ho, hkey⟩⟩

theorem sourceKeys_settled {before : List Record}
    (h : List.Forall₂ (Record.Settled types items now) before kept) :
    kept.map Record.sourceKey = before.map Record.sourceKey := by
  induction h with
  | nil => rfl
  | cons hr _ ih => simp [ih, hr.sourceKey]

theorem upToDate_settled {before : List Record}
    (h : List.Forall₂ (Record.Settled types items now) before kept) :
    ∀ r ∈ kept, r.UpToDate types items := by
  induction h with
  | nil => simp
  | cons hr _ ih => exact List.forall_mem_cons.mpr ⟨hr.upToDate, ih⟩

theorem Store.Scanned.known (h : store.Scanned types items now store' kept added) :
    store'.known = store.known ++ added.map Record.sourceKey := by
  simp only [Store.known, h.records, List.map_append, sourceKeys_settled h.settled]

theorem Store.Scanned.upToDate (h : store.Scanned types items now store' kept added) :
    store'.UpToDate types items := by
  constructor
  case known =>
    intro o ho
    rw [h.known, List.mem_append, h.keys]
    by_cases hknown : o.fingerprint ∈ store.known
    · exact .inl hknown
    · refine .inr (List.mem_filter.mpr ⟨?_, by simpa using hknown⟩)
      exact mem_distinct.mpr (List.mem_map_of_mem ho)
  case records =>
    rw [h.records, List.forall_mem_append]
    exact ⟨upToDate_settled h.settled, fun r hr => (h.started r hr).upToDate⟩

-- ---------------------------------------------------------------------------
-- The same remarks
-- ---------------------------------------------------------------------------

/-- The same remarks, each as often, perhaps at other places. -/
def SameRemarks (items items' : List Observation) : Prop :=
  (items.map Observation.identity).Perm (items'.map Observation.identity)

/-- Whether an observation is journaled shows in its identity. -/
def keptIdentity (types : List String) (identity : Option String × String) : Bool :=
  identity.1.any types.contains

theorem map_identity_journaled (types : List String) (items : List Observation) :
    (journaled types items).map Observation.identity =
      (items.map Observation.identity).filter (keptIdentity types) := by
  rw [List.filter_map]
  rfl

theorem SameRemarks.journaled (h : SameRemarks items items') (types : List String) :
    SameRemarks (journaled types items) (journaled types items') := by
  unfold SameRemarks
  rw [map_identity_journaled, map_identity_journaled]
  exact h.filter _

theorem SameRemarks.exists_iff (h : SameRemarks items items') (key : String) :
    (∃ o ∈ items, o.fingerprint = key) ↔ ∃ o ∈ items', o.fingerprint = key := by
  have hkey (l : List Observation) : (∃ o ∈ l, o.fingerprint = key) ↔
      ∃ identity ∈ l.map Observation.identity, identity.2 = key := by
    simp [Observation.identity]
  rw [hkey, hkey]
  exact exists_congr fun identity => and_congr_left fun _ => h.mem_iff

theorem carriers_ne_nil {scan : List Observation} :
    carriers key scan ≠ [] ↔ ∃ o ∈ scan, o.fingerprint = key := by
  simp [carriers, List.filter_eq_nil_iff]

theorem Store.UpToDate.congr (hsame : SameRemarks items items')
    (h : store.UpToDate types items) : store.UpToDate types items' := by
  have hjournaled := hsame.journaled types
  constructor
  case known =>
    intro o ho
    obtain ⟨o', ho', hkey⟩ := (hjournaled.exists_iff o.fingerprint).mpr ⟨o, ho, rfl⟩
    exact hkey ▸ h.known o' ho'
  case records =>
    intro r hr
    constructor
    · rw [carriers_ne_nil, ← hjournaled.exists_iff, ← carriers_ne_nil]
      exact (h.records r hr).open_
    · rw [← hsame.exists_iff]
      exact (h.records r hr).seen

theorem scanCounts_congr (hsame : SameRemarks items items') (types : List String)
    (store : Store) : scanCounts types items' store =
      { scanCounts types items store with
        completed := (scanCounts types items' store).completed } := by
  have hscanned : items'.length = items.length := by simpa using hsame.length_eq.symm
  have hjournaled : (Journal.journaled types items').length =
      (Journal.journaled types items).length := by
    simpa using (hsame.journaled types).length_eq.symm
  have hskipped (l : List Observation) : (l.countP fun o => !o.isJournaled types) =
      (l.map Observation.identity).countP fun identity => !keptIdentity types identity := by
    rw [List.countP_map]
    rfl
  simp only [scanCounts, hscanned, hjournaled, hskipped, hsame.countP_eq]

-- ---------------------------------------------------------------------------
-- The next scan
-- ---------------------------------------------------------------------------

theorem Record.UpToDate.rewritten (h : r.UpToDate types items)
    (hsettled : r.Settled types items now r') : r.Rewritten r' := by
  have hframe : r'.status = r.status ∧ r'.completedAt = r.completedAt ∨ r' = r := by
    by_cases hcarried : carriers r.sourceKey (journaled types items) = []
    · by_cases hseen : ∃ o ∈ items, o.fingerprint = r.sourceKey
      · exact .inr (hsettled.passedOver hcarried hseen)
      · have hactive : r.status ≠ .active := fun hactive => hseen (h.seen hactive)
        push Not at hseen
        exact .inr ((hsettled.missing hseen).2 hactive)
    · obtain ⟨-, -, hsame⟩ := hsettled.carried _ (List.getLast?_eq_some_getLast hcarried)
      exact .inl (hsame (h.open_ hcarried))
  rcases hframe with ⟨hstatus, hcompleted⟩ | rfl
  · refine ⟨r'.title, r'.description, r'.priority, ?_⟩
    rw [← hsettled.id, ← hsettled.type, ← hstatus, ← hsettled.createdAt, ← hcompleted,
      ← hsettled.tags, ← hsettled.sourceKey]
  · exact ⟨r'.title, r'.description, r'.priority, rfl⟩

theorem Record.UpToDate.isUnseen (h : r.UpToDate types items) : r.isUnseen items = false := by
  rw [Bool.eq_false_iff]
  intro hunseen
  simp only [Record.isUnseen, Bool.and_eq_true, beq_iff_eq, List.all_eq_true, bne_iff_ne]
    at hunseen
  obtain ⟨o, ho, hkey⟩ := h.seen hunseen.1
  exact hunseen.2 o ho hkey

/-- A scan of an up to date table rewrites records in place. -/
theorem Store.UpToDate.rewritten (h : store.UpToDate types items)
    (hscan : store.Scanned types items now store' kept added) :
    List.Forall₂ Record.Rewritten store.records store'.records := by
  have hadded : added = [] := by
    rw [← List.map_eq_nil_iff (f := Record.sourceKey), hscan.keys, List.filter_eq_nil_iff]
    intro key hkey
    obtain ⟨o, ho, rfl⟩ := List.mem_map.mp (mem_distinct.mp hkey)
    simpa using h.known o ho
  rw [hscan.records, hadded, List.append_nil]
  exact (List.forall₂_and_left _ _).mpr ⟨h.records, hscan.settled⟩ |>.imp
    fun _ _ ⟨hr, hsettled⟩ => hr.rewritten hsettled

theorem Store.UpToDate.completed (h : store.UpToDate types items) :
    (scanCounts types items store).completed = 0 :=
  List.countP_eq_zero.mpr fun r hr => by simp [(h.records r hr).isUnseen]

-- ---------------------------------------------------------------------------
-- The session of the next scan
-- ---------------------------------------------------------------------------

theorem reconcile_tags (h : (reconcile keys).run s = .ok count t) : t.tags = s.tags := by
  simp only [reconcile, run_bind_ok, run_liftExcept_ok, run_report, EStateM.run_pure,
    EStateM.Result.ok.injEq] at h
  obtain ⟨_, _, ⟨-, rfl⟩, n, u, hu, _, _, ⟨-, rfl⟩, -, rfl⟩ := h
  obtain ⟨u, hblock, rfl⟩ := run_transaction_ok hu
  simp only [run_bind_ok, run_liftExcept_ok, EStateM.run_get, EStateM.run_modify, EStateM.run_set,
    EStateM.run_pure, EStateM.Result.ok.injEq] at hblock
  obtain ⟨_, _, ⟨-, rfl⟩, _, v, hv, _, _, ⟨rfl, rfl⟩, now, _, ⟨-, rfl⟩, _, _, ⟨-, rfl⟩, -, rfl⟩ :=
    hblock
  obtain ⟨current, connection, rfl, -⟩ := forM_addKey_ok hv
  show (s.commit _).tags = s.tags
  simp

theorem finishScan_tags (h : (finishScan items counts).run s = .ok counts' t) :
    t.tags = s.tags := by
  unfold finishScan at h
  split at h
  · simp only [run_bind_ok, run_report, EStateM.run_pure, EStateM.Result.ok.injEq] at h
    obtain ⟨_, u, ⟨-, rfl⟩, _, _, hreconcile, -, rfl⟩ := h
    have htags := reconcile_tags hreconcile
    exact htags
  · simp only [run_bind_ok, EStateM.run_pure, EStateM.Result.ok.injEq] at h
    obtain ⟨_, _, hreconcile, -, rfl⟩ := h
    exact reconcile_tags hreconcile

theorem sync_tags (hw : s.store.WellFormed) (h : (sync items).run s = .ok counts t) :
    t.tags = s.tags := by
  rw [sync_eq] at h
  obtain ⟨u, hu, rfl⟩ := run_transaction_ok h
  obtain ⟨tally, v, hv, hu⟩ := run_bind_ok.mp hu
  have htook := upsertAll_ok (by simpa using hw) hv
  simp [finishScan_tags hu, htook.tags]

theorem Store.WellFormed.writesAll {op : Operation} (hw : store.WellFormed)
    (h : Relation.ReflTransGen op.Writes store store') : store'.WellFormed := by
  induction h with
  | refl => exact hw
  | tail _ h ih =>
    cases h.changed ih with
    | inPlace f hf => exact ih.map (keepsKeys_of_changed hf)
    | behind r hr => exact ih.behind hr

theorem sync_wellFormed (hw : s.store.WellFormed) (h : (sync items).run s = .ok counts t) :
    t.store.WellFormed := by
  cases (moving_sync items).ok h with
  | kept saved closings store => exact hw.writesAll store
  | lost full => cases full

/-- The observations that a scan of files hands to the journal. -/
def found (scanner : Scanner) (files : List SourceText) : List Observation :=
  (scanner.scanTexts files).map Remark.observe

theorem sameRemarks_found {scanner : Scanner} {files files' : List SourceText}
    (h : FilesEdited scanner.tags files files') :
    SameRemarks (found scanner files) (found scanner files') := by
  have hfound (files : List SourceText) : (found scanner files).map Observation.identity =
      ((scanner.scanTexts files).map Remark.unplaced).map fun a => a.observe.identity := by
    rw [found, List.map_map, List.map_map]
    rfl
  unfold SameRemarks
  rw [hfound, hfound]
  exact h.perm_scanTexts.map _

/-- Scanning again after edits that leave the remarks alone changes what records show, and nothing
else. -/
theorem rescan_rewrites {scanner : Scanner} {files files' : List SourceText}
    (hw : s.store.WellFormed) (hedited : FilesEdited scanner.tags files files')
    (h : (sync (found scanner files)).run s = .ok counts t)
    (h' : (sync (found scanner files')).run { t with now } = .ok counts' t') :
    counts' = { counts with completed := 0 } ∧
      List.Forall₂ Record.Rewritten t.store.records t'.store.records := by
  have hkept := sync_wellFormed hw h
  have hw' : Store.WellFormed (Session.store { t with now }) := hkept
  obtain ⟨_, _, _, -, hscan, rfl⟩ := sync_ok hw h
  obtain ⟨_, _, _, -, hscan', rfl⟩ := sync_ok hw' h'
  have hsame := sameRemarks_found hedited
  have hcurrent : t.store.UpToDate s.tags (found scanner files') := hscan.upToDate.congr hsame
  simp only [sync_tags hw h] at hscan' ⊢
  refine ⟨?_, hcurrent.rewritten hscan'⟩
  rw [scanCounts_congr hsame, hcurrent.completed]
  rfl

-- ---------------------------------------------------------------------------
-- Two scans of a project
-- ---------------------------------------------------------------------------

def projectScanner : Scanner := .ofTags ["bug"] []

def projectBefore : List SourceText := [
  ⟨"main.c", "// BUG: back\nint x;\n// bug!: new"⟩,
  ⟨"util.c", "// BUG: void"⟩]

def projectAfter : List SourceText := [
  ⟨"util.c", "\n// BUG: void"⟩,
  ⟨"main.c", "// bug!: new\n// BUG: back"⟩]

theorem projectEdited : FilesEdited projectScanner.tags projectBefore projectAfter := by
  have hcode : IsQuiet projectScanner.tags "int x;".toList :=
    isQuiet_of_ofLine? (by decide +kernel)
  have hempty : IsQuiet projectScanner.tags [] := isQuiet_of_ofLine? (by decide +kernel)
  refine ⟨projectBefore.reverse, (List.reverse_perm _).symm, .cons ⟨rfl, ?_⟩ (.cons ⟨rfl, ?_⟩ .nil)⟩
  · exact .insert hempty [] ["// BUG: void".toList]
  · exact .trans (.delete hcode ["// BUG: back".toList] ["// bug!: new".toList])
      (.permute (List.Perm.swap _ _ _))

def laterTime : Time.Moment := ⟨⟨2025, 1, 1⟩, ⟨0, 0, 0, 0⟩, some 0⟩

theorem rescan_rewrites_project :
    ∃ counts t counts' t',
      (sync (found projectScanner projectBefore)).run usedJournal = .ok counts t ∧
      (sync (found projectScanner projectAfter)).run { t with now := laterTime } =
        .ok counts' t' ∧
      counts' = { counts with completed := 0 } ∧
      List.Forall₂ Record.Rewritten t.store.records t'.store.records := by
  have hsucceeds : succeeds (do
      let _ ← sync (found projectScanner projectBefore)
      modify fun s => { s with now := laterTime }
      sync (found projectScanner projectAfter)) usedJournal = true := by decide +kernel
  obtain ⟨counts', t', h⟩ := succeeds_iff.mp hsucceeds
  obtain ⟨counts, t, h, h'⟩ := run_bind_ok.mp h
  rw [EStateM.run_bind, EStateM.run_modify] at h'
  exact ⟨counts, t, counts', t', h, h',
    rescan_rewrites wellFormed_usedJournal projectEdited h h'⟩

end Journal

end Marginalia
