import Marginalia.Proofs.Journal.Success

/-!
# The life of a record

Records stay, and their statuses move along the edges of the lifecycle: completed and active again
any number of times, cancelled once and for good. New records have numbers that are greater than
all numbers before. `Store.Evolves` says so about two tables. It holds between what is stored
earlier and what is stored later in any run, and each single operation moves statuses along its own
edges only.
-/

namespace Marginalia.Journal

open Relation (ReflTransGen)

inductive Status.Edge : Status → Status → Prop
  | complete : Edge .active .completed
  | reactivate : Edge .completed .active
  | cancelActive : Edge .active .cancelled
  | cancelCompleted : Edge .completed .cancelled

/-- A record at two times, with statuses that moved along given edges. -/
structure Record.Continues (edge : Int → String → Status → Status → Prop) (r r' : Record) :
    Prop where
  id : r'.id = r.id
  type : r'.type = r.type
  sourceKey : r'.sourceKey = r.sourceKey
  createdAt : r'.createdAt = r.createdAt
  status : ReflTransGen (edge r.id r.sourceKey) r.status r'.status
  final : r.status = .cancelled → r'.status = .cancelled ∧ r'.completedAt = r.completedAt

/-- Tables at two times: the records of the earlier ones are all there, and what is new has greater
numbers. -/
structure Store.Evolves (edge : Int → String → Status → Status → Prop) (store store' : Store) :
    Prop where
  kept : ∀ r ∈ store.records, ∃ r' ∈ store'.records, r.Continues edge r'
  new : ∀ r' ∈ store'.records, (∀ r ∈ store.records, r.id ≠ r'.id) →
    ∀ r ∈ store.records, r.id < r'.id

variable {edge edge' : Int → String → Status → Status → Prop}
variable {r r' r'' : Record} {a b c store store' : Store} {s t : Session}

-- ---------------------------------------------------------------------------
-- Records and tables at several times
-- ---------------------------------------------------------------------------

theorem Record.Continues.refl (edge : Int → String → Status → Status → Prop) (r : Record) :
    r.Continues edge r :=
  ⟨rfl, rfl, rfl, rfl, .refl, fun h => ⟨h, rfl⟩⟩

theorem Record.Continues.trans (h : r.Continues edge r') (h' : r'.Continues edge r'') :
    r.Continues edge r'' := by
  have hstatus := h'.status
  rw [h.id, h.sourceKey] at hstatus
  refine ⟨h'.id.trans h.id, h'.type.trans h.type, h'.sourceKey.trans h.sourceKey,
    h'.createdAt.trans h.createdAt, h.status.trans hstatus, fun hcancelled => ?_⟩
  obtain ⟨hcancelled', htime⟩ := h.final hcancelled
  obtain ⟨hcancelled'', htime'⟩ := h'.final hcancelled'
  exact ⟨hcancelled'', htime'.trans htime⟩

theorem Record.Continues.mono
    (hedge : ∀ n key status status', edge n key status status' → edge' n key status status')
    (h : r.Continues edge r') : r.Continues edge' r' :=
  ⟨h.id, h.type, h.sourceKey, h.createdAt, ReflTransGen.mono (hedge _ _) _ _ h.status, h.final⟩

theorem continues_of_changed (h : r.Changed edge r') : r.Continues edge r' := by
  refine ⟨h.id, h.type, h.sourceKey, h.createdAt, ?_, h.final⟩
  rcases h.status with hsame | hedge
  · exact hsame ▸ .refl
  · exact .single hedge

namespace Store

theorem Evolves.refl (edge : Int → String → Status → Status → Prop) (store : Store) :
    store.Evolves edge store :=
  ⟨fun r hr => ⟨r, hr, .refl edge r⟩, fun r' hr' hnew => absurd rfl (hnew r' hr')⟩

theorem Evolves.trans (h : a.Evolves edge b) (h' : b.Evolves edge c) : a.Evolves edge c := by
  constructor
  · intro r hr
    obtain ⟨r', hr', hcontinues⟩ := h.kept r hr
    obtain ⟨r'', hr'', hcontinues'⟩ := h'.kept r' hr'
    exact ⟨r'', hr'', hcontinues.trans hcontinues'⟩
  · intro r'' hr'' hnew r hr
    obtain ⟨r', hr', hcontinues⟩ := h.kept r hr
    by_cases hthere : ∀ x ∈ b.records, x.id ≠ r''.id
    · exact hcontinues.id ▸ h'.new r'' hr'' hthere r' hr'
    · -- A record that came in between has a number greater than all before.
      simp only [not_forall, not_not] at hthere
      obtain ⟨x, hx, hid⟩ := hthere
      rw [← hid] at hnew ⊢
      exact h.new x hx hnew r hr

theorem Evolves.mono
    (hedge : ∀ n key status status', edge n key status status' → edge' n key status status')
    (h : a.Evolves edge b) : a.Evolves edge' b := by
  refine ⟨fun r hr => ?_, h.new⟩
  obtain ⟨r', hr', hcontinues⟩ := h.kept r hr
  exact ⟨r', hr', hcontinues.mono hedge⟩

theorem evolves_of_changed (h : store.Changed edge store') : store.Evolves edge store' := by
  cases h with
  | inPlace f h =>
    constructor
    · intro r hr
      exact ⟨f r, List.mem_map_of_mem hr, continues_of_changed (h r)⟩
    · intro r' hr' hnew
      obtain ⟨r, hr, rfl⟩ := List.mem_map.mp hr'
      exact absurd (h r).id.symm (hnew r hr)
  | behind r h =>
    constructor
    · intro x hx
      exact ⟨x, List.mem_append_left _ hx, .refl edge x⟩
    · intro r' hr' hnew x hx
      rcases List.mem_append.mp hr' with hr' | hr'
      · exact absurd rfl (hnew r' hr')
      · have := id_le_lastNumber hx
        rw [List.mem_singleton.mp hr', h.id]
        omega

end Store

def Status.lifecycle (_ : Int) (_ : String) : Status → Status → Prop := Edge

/-- No operation has other edges than those of the lifecycle. -/
theorem Operation.Edge.lifecycle {op : Operation} (h : op.Edge n key status status') :
    status.Edge status' := by
  induction h with
  | complete => exact .complete
  | reactivate => exact .reactivate
  | @cancel value n status key hn h =>
    cases status with
    | active => exact .cancelActive
    | completed => exact .cancelCompleted
    | cancelled => exact absurd rfl h
  | scanComplete h ih => exact ih
  | scanTakeIn ho h ih => exact ih

theorem evolves_of_writes {op : Operation} (hown : store.Own)
    (h : ReflTransGen op.Writes store store') : store.Evolves op.Edge store' := by
  induction h with
  | refl => exact .refl _ _
  | tail hwrites h ih =>
    have hown' := hown.writesAll hwrites
    exact ih.trans (Store.evolves_of_changed (h.changed hown'.wellFormed))

theorem evolves_of_write (hown : store.Own) (h : ReflTransGen Write store store') :
    store.Evolves Status.lifecycle store' := by
  induction h with
  | refl => exact .refl _ _
  | tail hwrites h ih =>
    have hown' := own_of_write hown hwrites
    refine ih.trans ?_
    cases h with
    | operation op h =>
      exact (Store.evolves_of_changed (h.changed hown'.wellFormed)).mono
        fun _ _ _ _ hedge => hedge.lifecycle
    | version v =>
      exact ⟨fun r hr => ⟨r, hr, .refl _ r⟩, fun r' hr' hnew => absurd rfl (hnew r' hr')⟩

-- ---------------------------------------------------------------------------
-- Single operations
-- ---------------------------------------------------------------------------

/-- An operation moves statuses along its own edges. When it finds no record number left, it takes
back what the open transaction did. -/
inductive Session.Steps (s : Session) (op : Operation) : Prop
  | evolved (saved : (after op.run s).saved = s.saved)
      (store : s.store.Evolves op.Edge (after op.run s).store)
  | dropped (full : faultOf op.run s = some .full) (opened : s.inTransaction = true)
      (saved : (after op.run s).saved = none) (store : (after op.run s).store = s.committed)

/-- What holds wherever clients can bring a journal to. -/
structure Session.Conforms (s : Session) : Prop where
  wellFormed : s.committed.WellFormed
  steps : ∀ op, s.Steps op
  cancels : ∀ n, fits n = true → s.Cancels n
  closed : ∀ path, (after (close path) s).committed.records = s.committed.records
  reopened : ∀ path types, (after (reopen path types) s).committed.records = s.committed.records

theorem steps_of_own (hown : s.store.Own) (op : Operation) : s.Steps op := by
  cases op.moving_run s with
  | kept saved closings store => exact .evolved saved (evolves_of_writes hown store)
  | lost full opened saved closings store => exact .dropped full opened saved store

theorem records_close (path : Path) (s : Session) :
    (after (close path) s).committed.records = s.committed.records := by
  obtain ⟨t, hrun, hsaved, hstore, -⟩ := run_close path s
  rw [after_of_ok hrun, Session.committed_of_not_inTransaction (Session.not_inTransaction hsaved),
    hstore]

theorem records_reopen (path : Path) (types : List String) (s : Session) :
    (after (reopen path types) s).committed.records = s.committed.records := by
  obtain ⟨hsaved, v, hstore⟩ := after_reopen path types s
  rw [Session.committed_of_not_inTransaction (Session.not_inTransaction hsaved), hstore]

theorem Session.Reachable.conforms (hs : s.Reachable) : s.Conforms :=
  ⟨hs.own.1.wellFormed, steps_of_own hs.own.2, fun _ hn => cancels_of_fits hn hs.own.2,
    fun path => records_close path s, fun path types => records_reopen path types s⟩

-- ---------------------------------------------------------------------------
-- Whole runs
-- ---------------------------------------------------------------------------

/-- A run from a new journal, its start included. -/
def Program.sessions (p : Program) (types : List String) (now : Time.Moment) : List Session :=
  .fresh types now :: p.visited (.fresh types now)

theorem reachable_of_mem (h : s ∈ Program.sessions p types now) : s.Reachable := by
  rcases List.mem_cons.mp h with rfl | h
  · exact .fresh types now
  · exact .visited (.fresh types now) p h

theorem pairwise_leadsTo (p : Program) (types : List String) (now : Time.Moment) :
    (p.sessions types now).Pairwise Session.LeadsTo :=
  List.pairwise_cons.mpr ⟨(p.leads _).start, (p.leads _).pairs⟩

/-- In every run of a new journal, tables that are stored later continue those stored earlier, and
no operation does more to a status than what is its own to do. -/
theorem sessions_evolve (p : Program) (types : List String) (now : Time.Moment) :
    (p.sessions types now).Pairwise
        (fun s s' => s.committed.Evolves Status.lifecycle s'.committed) ∧
      ∀ s ∈ p.sessions types now, s.Conforms := by
  constructor
  · refine (pairwise_leadsTo p types now).imp_of_mem fun hs _ hleads => ?_
    have hreachable := reachable_of_mem hs
    exact evolves_of_write hreachable.own.1 (hleads hreachable.writes.1).2
  · exact fun s hs => (reachable_of_mem hs).conforms

end Marginalia.Journal
