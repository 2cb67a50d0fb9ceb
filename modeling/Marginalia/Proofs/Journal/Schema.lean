import Marginalia.Journal.Schema
import Marginalia.Proofs.Ends

/-!
# The layout of opened journals

No statement that sets up a layout touches a table of records that is there, and after all of them
the current version is the only one. So a journal that can be opened keeps its records and its
counter, and it is refused if and only if its layout is newer.
-/

namespace Marginalia.Journal

namespace Schema

variable {schema schema' : Schema} {statement : Statement} {statements : List Statement}

-- ---------------------------------------------------------------------------
-- Statements
-- ---------------------------------------------------------------------------

/-- One statement keeps the records that are there. -/
theorem run_keeps (h : schema.run statement = .ok schema') (hissues : schema.issues = some table) :
    schema'.issues = some table := by
  cases statement with
  | createVersions =>
    cases h
    exact hissues
  | deleteVersions =>
    simp only [run] at h
    split at h
    · cases h
    · cases h
      exact hissues
  | insertVersion version =>
    simp only [run] at h
    split at h
    · cases h
    · split at h
      · cases h
      · cases h
        exact hissues
  | createIssues =>
    cases h
    simp [hissues]

theorem runAll_keeps (h : schema.runAll statements = .ok schema')
    (hissues : schema.issues = some table) : schema'.issues = some table := by
  induction statements generalizing schema with
  | nil =>
    cases h
    exact hissues
  | cons statement rest ih =>
    rw [runAll, List.foldlM_cons] at h
    obtain ⟨next, hnext, h⟩ := bind_ok.mp h
    exact ih h (run_keeps hnext hissues)

/-- The layout is set up from any tables. What is missing is made, and one version is left. -/
theorem runAll_setUp (schema : Schema) :
    schema.runAll setUp = .ok ⟨some [layoutVersion], some (schema.issues.getD ([], 0))⟩ := rfl

-- ---------------------------------------------------------------------------
-- Versions
-- ---------------------------------------------------------------------------

/-- The layout is newer than the one described here. -/
def IsNewer (schema : Schema) : Prop := ∃ v ∈ schema.version?, layoutVersion < v

/-- A newer layout is refused; an older one is set up anew, and the current one is left as it is. -/
theorem ensure_cases (schema : Schema) :
    (∃ v ∈ schema.version?, layoutVersion < v ∧
      schema.ensure = .error (.newerSchema v layoutVersion)) ∨
    (¬schema.IsNewer ∧
      schema.ensure = .ok ⟨some [layoutVersion], some (schema.issues.getD ([], 0))⟩) ∨
    schema.version? = some layoutVersion ∧ schema.ensure = .ok schema := by
  have hsetUp := runAll_setUp schema
  cases hrows : schema.versions with
  | none =>
    refine .inr (.inl ⟨fun ⟨v, hv, _⟩ => ?_, by simp [ensure, hrows, hsetUp]⟩)
    simp [version?, hrows] at hv
  | some rows =>
    cases hversion : schema.version? with
    | none =>
      refine .inr (.inl ⟨fun ⟨v, hv, _⟩ => ?_, ?_⟩)
      · simp [hversion] at hv
      · have hold : ¬layoutVersion < 0 ∧ 0 < layoutVersion := by decide
        simp [ensure, hrows, hversion, hsetUp, hold]
    | some v =>
      rcases Int.lt_trichotomy layoutVersion v with hnewer | rfl | holder
      · exact .inl ⟨v, rfl, hnewer, by simp [ensure, hrows, hversion, hnewer]⟩
      · exact .inr (.inr ⟨rfl, by simp [ensure, hrows, hversion]⟩)
      · refine .inr (.inl ⟨fun ⟨v', hv', hnewer⟩ => ?_, ?_⟩)
        · obtain rfl : v = v' := by simpa [hversion] using hv'
          exact Int.lt_asymm holder hnewer
        · simp [ensure, hrows, hversion, hsetUp, holder, Int.le_of_lt holder]

/-- Making sure of the layout keeps the records and the counter. It leaves the tables as they are or
with one version, which is the current one, and once more it changes nothing. -/
theorem ensure_ok (h : schema.ensure = .ok schema') :
    (∀ table, schema.issues = some table → schema'.issues = some table) ∧
      (schema' = schema ∨ schema'.versions = some [layoutVersion]) ∧
      schema'.version? = some layoutVersion ∧ schema'.ensure = .ok schema' := by
  rcases ensure_cases schema with ⟨v, -, -, hensure⟩ | ⟨-, hensure⟩ | ⟨hcurrent, hensure⟩
  · simp [hensure] at h
  · rw [hensure] at h
    cases h
    exact ⟨fun table htable => by simp [htable], .inr rfl, rfl, rfl⟩
  · rw [hensure] at h
    cases h
    exact ⟨fun _ => id, .inl rfl, hcurrent, hensure⟩

end Schema

-- ---------------------------------------------------------------------------
-- Opening
-- ---------------------------------------------------------------------------

namespace Store

variable {store store' : Store}

/-- The tables have a newer layout than the one described here. -/
def IsNewer (store : Store) : Prop := ∃ v ∈ store.version, layoutVersion < v

@[simp] theorem version?_schema (store : Store) : store.schema.version? = store.version := by
  rw [schema, Schema.version?]
  cases store.version <;> rfl

theorem store_schema (store : Store) : store.schema.store = store := by
  have hversion := store.version?_schema
  rw [Schema.store, hversion]
  rfl

/-- An empty file becomes a new journal. -/
theorem ensure_empty : Schema.empty.ensure.map Schema.store = .ok fresh := rfl

theorem opened_of_isNewer (h : store.IsNewer) :
    ∃ fault, store.opened = .error fault ∧ fault.faultClass = .journal := by
  obtain ⟨v, hv, hnewer⟩ := h
  rcases store.schema.ensure_cases with ⟨v', -, -, hensure⟩ | ⟨hknown, -⟩ | ⟨hcurrent, -⟩
  · exact ⟨_, by rw [opened, hensure]; rfl, rfl⟩
  · exact absurd ⟨v, by simpa using hv, hnewer⟩ hknown
  · obtain rfl : v = layoutVersion := by simpa [Option.mem_def.mp hv] using hcurrent
    exact absurd hnewer (Int.lt_irrefl _)

theorem opened_of_not_isNewer (h : ¬store.IsNewer) :
    store.opened = .ok { store with version := some layoutVersion } := by
  rcases store.schema.ensure_cases with ⟨v, hv, hnewer, -⟩ | ⟨-, hensure⟩ | ⟨hcurrent, hensure⟩
  · exact absurd ⟨v, by simpa using hv, hnewer⟩ h
  · rw [opened, hensure]
    rfl
  · rw [version?_schema] at hcurrent
    rw [opened, hensure, ← hcurrent]
    exact congrArg Except.ok (store_schema store)

theorem opened_ok (h : store.opened = .ok store') :
    store' = { store with version := some layoutVersion } := by
  by_cases hnewer : store.IsNewer
  · obtain ⟨fault, hopened, -⟩ := opened_of_isNewer hnewer
    simp [hopened] at h
  · rw [opened_of_not_isNewer hnewer] at h
    exact (Except.ok.inj h).symm

theorem opened_error (h : store.opened = .error fault) : fault.faultClass = .journal := by
  by_cases hnewer : store.IsNewer
  · obtain ⟨fault', hopened, hclass⟩ := opened_of_isNewer hnewer
    obtain rfl : fault' = fault := by simpa [hopened] using h
    exact hclass
  · simp [opened_of_not_isNewer hnewer] at h

/-- Tables with the current layout are not newer. -/
theorem not_isNewer_current (store : Store) :
    ¬IsNewer { store with version := some layoutVersion } := by
  rintro ⟨v, hversion, hnewer⟩
  cases hversion
  exact absurd hnewer (Int.lt_irrefl _)

end Store

end Marginalia.Journal
