import Marginalia.Proofs.Journal.Schema
import Marginalia.Proofs.Journal.Writes

/-!
# Programs over a journal

A client of the journal calls operations in any order, alone or in nested blocks, raises faults and
handles them, lets time pass, and closes and reopens the journal. The database may break a call off,
be it for a full disk, and end the open transaction with it. `visited` lists the sessions that such
a run goes through; the tables that were stored at one of them lead, write by write, to those stored
at any later one. The induction is on the program. Its invariant is that the tables in use come from
the stored ones by writes (`Session.Sound`): that is what the end of a block stores.
-/

namespace Marginalia.Journal

open Relation (ReflTransGen)

inductive Leaf
  | call (op : Operation)
  /-- A call that the database breaks off by a fault that ends the open transaction. What the call
  did before is taken back with the rest, so that it does not matter which of its statements it
  was. -/
  | broken (op : Operation) (fault : Fault)
  | wait (now : Time.Moment)

inductive Program
  | skip
  | leaf (step : Leaf)
  | fail (fault : Fault)
  | seq (first second : Program)
  | block (body : Program)
  | handle (catches : Fault → Bool) (body handler : Program)
  | close (path : Path)
  | reopen (path : Path) (tags : List String)

def Leaf.run : Leaf → JournalM Unit
  | call op => op.run
  | broken _ fault => transaction (strike fault)
  | wait now => modify fun s => { s with now }

/-- Work with a handler for some of its faults. What the work did is still there then. -/
def handling (catches : Fault → Bool) (m handler : JournalM Unit) : JournalM Unit := fun s =>
  match m s with
  | .ok () t => .ok () t
  | .error fault t => if catches fault then handler t else .error fault t

namespace Program

def run : Program → JournalM Unit
  | skip => pure ()
  | leaf step => step.run
  | fail fault => throw fault
  | seq first second => do
    first.run
    second.run
  | block body => transaction body.run
  | handle catches body handler => handling catches body.run handler.run
  | close path => Journal.close path
  | reopen path tags => Journal.reopen path tags

def caught (catches : Fault → Bool) (fault : Option Fault) : Bool := fault.any catches

/-- The sessions that a run goes through, its start left out. -/
def visited : Program → Session → List Session
  | skip, _ => []
  | leaf step, s => [after step.run s]
  | fail _, _ => []
  | seq first second, s =>
    first.visited s ++
      if faultOf first.run s = none then second.visited (after first.run s) else []
  | block body, s => s.enter :: body.visited s.enter ++ [after (transaction body.run) s]
  | handle catches body handler, s =>
    body.visited s ++
      if caught catches (faultOf body.run s) then handler.visited (after body.run s) else []
  | close path, s => [after (Journal.close path) s]
  | reopen path tags, s => [after (Journal.reopen path tags) s]

end Program

def Session.fresh (tags : List String) (now : Time.Moment) : Session where
  store := .fresh
  tags := tags
  now := now

/-- A session that clients can bring a new journal to. -/
inductive Session.Reachable : Session → Prop
  | fresh (types : List String) (now : Time.Moment) : Reachable (.fresh types now)
  | visited (hs : Reachable s) (p : Program) (ht : t ∈ p.visited s) : Reachable t

-- ---------------------------------------------------------------------------
-- Stored tables lead to stored tables
-- ---------------------------------------------------------------------------

/-- What is ever written to the tables. -/
inductive Write : Store → Store → Prop
  | operation (op : Operation) (h : op.Writes store store') : Write store store'
  | version (v : Option Int) : Write store { store with version := v }

namespace Session

variable {s t u : Session}

/-- The tables in use come from the stored ones by writes. -/
def Sound (s : Session) : Prop := ReflTransGen Write s.committed s.store

/-- One session comes after another one: what is stored then comes by writes from what was stored
before. -/
def LeadsTo (s t : Session) : Prop :=
  s.Sound → t.Sound ∧ ReflTransGen Write s.committed t.committed

theorem LeadsTo.refl (s : Session) : s.LeadsTo s := fun h => ⟨h, .refl⟩

theorem LeadsTo.trans (h : s.LeadsTo t) (h' : t.LeadsTo u) : s.LeadsTo u := by
  intro hs
  obtain ⟨ht, hst⟩ := h hs
  obtain ⟨hu, htu⟩ := h' ht
  exact ⟨hu, hst.trans htu⟩

theorem sound_of_saved_eq_none (h : s.saved = none) : s.Sound := by
  rw [Sound, committed_of_not_inTransaction (not_inTransaction h)]

theorem leadsTo_of_closed (hsaved : t.saved = none)
    (hstore : s.Sound → ReflTransGen Write s.committed t.store) : s.LeadsTo t := by
  intro hs
  refine ⟨sound_of_saved_eq_none hsaved, ?_⟩
  rw [committed_of_not_inTransaction (not_inTransaction hsaved)]
  exact hstore hs

theorem leadsTo_of_same (hsaved : t.saved = s.saved) (hstore : t.store = s.store) :
    s.LeadsTo t := by
  have hcommitted : t.committed = s.committed := by simp [committed, hsaved, hstore]
  intro hs
  rw [Sound, hcommitted, hstore]
  exact ⟨hs, .refl⟩

theorem leadsTo_of_moves (h : Moves Write s fault t) : s.LeadsTo t := by
  cases h with
  | lost full opened saved closings store =>
    exact leadsTo_of_closed saved fun _ => store ▸ .refl
  | kept saved closings store =>
    cases hopen : s.inTransaction with
    | true =>
      have hcommitted := committed_congr saved hopen
      intro hs
      rw [Sound, hcommitted]
      exact ⟨hs.trans store, .refl⟩
    | false =>
      have hnone : s.saved = none := by simpa [inTransaction] using hopen
      exact leadsTo_of_closed (saved.trans hnone) fun hs => hs.trans store

theorem leadsTo_enter (s : Session) : s.LeadsTo s.enter := by
  cases h : s.inTransaction with
  | true => simpa [enter, h] using LeadsTo.refl s
  | false =>
    intro _
    rw [Sound, committed_enter h, store_enter, committed_of_not_inTransaction h]
    exact ⟨.refl, .refl⟩

theorem leadsTo_giveUp (s : Session) : s.LeadsTo s.giveUp :=
  leadsTo_of_closed saved_giveUp fun _ => store_giveUp (s := s) ▸ .refl

theorem leadsTo_commit (s t : Session) : t.LeadsTo (s.commit t) := by
  unfold commit
  split
  · exact .refl t
  · exact leadsTo_of_closed rfl fun ht => ht

theorem leadsTo_rollback (s t : Session) (fault : Fault) : t.LeadsTo (s.rollback t fault) := by
  unfold rollback
  repeat' split
  · exact .refl t
  · exact leadsTo_giveUp t
  · exact (leadsTo_giveUp t).trans (leadsTo_of_same rfl rfl)
  · exact leadsTo_of_same rfl rfl
  · exact .refl t

end Session

open Session (LeadsTo leadsTo_of_same leadsTo_of_closed)

variable {s : Session}

theorem leadsTo_after_transaction (m : JournalM α) (s : Session) :
    (after m s.enter).LeadsTo (after (transaction m) s) := by
  simp only [after, EStateM.run, transaction]
  cases m s.enter with
  | error fault t => exact Session.leadsTo_rollback _ _ _
  | ok a t =>
    dsimp only
    cases s.blockFault t none with
    | none => exact Session.leadsTo_commit _ _
    | some fault => exact Session.leadsTo_rollback _ _ _

/-- A call that is broken off leaves what is stored, and no transaction open. -/
theorem run_broken (op : Operation) (fault : Fault) (s : Session) :
    ∃ t, (Leaf.broken op fault).run.run s = .error fault t ∧ t.saved = none ∧
      t.store = s.committed ∧ t.closings = s.closings :=
  have hidle : Moving (fun _ _ => False) (pure () : JournalM Unit) := moving_pure ()
  run_struck hidle rfl fault

theorem leadsTo_leaf (leaf : Leaf) (s : Session) : s.LeadsTo (after leaf.run s) := by
  cases leaf with
  | call op => exact Session.leadsTo_of_moves ((op.moving_run s).mono fun _ _ => .operation op)
  | broken op fault =>
    obtain ⟨t, hrun, hsaved, hstore, -⟩ := run_broken op fault s
    rw [after_of_error hrun]
    exact leadsTo_of_closed hsaved fun _ => hstore ▸ .refl
  | wait now => exact leadsTo_of_same rfl rfl

/-- Closing keeps what is stored, and always ends well. -/
theorem run_close (path : Path) (s : Session) : ∃ t, (close path).run s = .ok () t ∧
    t.saved = none ∧ t.store = s.committed ∧ t.closings = s.closings + 1 := by
  simp only [close, EStateM.run_bind, EStateM.run_get]
  split
  · exact ⟨_, rfl, Session.saved_giveUp, Session.store_giveUp, rfl⟩
  · exact ⟨_, rfl, Session.saved_giveUp, Session.store_giveUp, rfl⟩

theorem leadsTo_close (path : Path) (s : Session) : s.LeadsTo (after (close path) s) := by
  obtain ⟨t, hrun, hsaved, hstore, -⟩ := run_close path s
  rw [after_of_ok hrun]
  exact leadsTo_of_closed hsaved fun _ => hstore ▸ .refl

/-- Reopening keeps what is stored, but for the version. -/
theorem after_reopen (path : Path) (types : List String) (s : Session) :
    (after (reopen path types) s).saved = none ∧
      ∃ v, (after (reopen path types) s).store = { s.committed with version := v } := by
  obtain ⟨t, hrun, hsaved, hstore, -⟩ := run_close path s
  simp only [reopen, after_bind, hrun, EStateM.run_get]
  split
  · rename_i hopened
    exact ⟨hsaved, some layoutVersion, (Store.opened_ok hopened).trans (hstore ▸ rfl)⟩
  · exact ⟨hsaved, s.committed.version, hstore⟩

theorem leadsTo_reopen (path : Path) (types : List String) (s : Session) :
    s.LeadsTo (after (reopen path types) s) := by
  obtain ⟨hsaved, v, hstore⟩ := after_reopen path types s
  exact leadsTo_of_closed hsaved fun _ => hstore ▸ .single (.version v)

-- ---------------------------------------------------------------------------
-- Whole runs
-- ---------------------------------------------------------------------------

theorem after_seq (first second : Program) (s : Session) :
    after (Program.seq first second).run s =
      if faultOf first.run s = none then after second.run (after first.run s)
      else after first.run s := by
  cases h : first.run.run s with
  | ok _ t => simp [Program.run, after_bind, h, faultOf_of_ok h, after_of_ok h]
  | error fault t => simp [Program.run, after_bind, h, faultOf_of_error h, after_of_error h]

theorem run_handling (catches : Fault → Bool) (m handler : JournalM Unit) (s : Session) :
    (handling catches m handler).run s =
      match m.run s with
      | .ok () t => .ok () t
      | .error fault t => if catches fault then handler.run t else .error fault t := rfl

theorem after_handle (catches : Fault → Bool) (body handler : Program) (s : Session) :
    after (Program.handle catches body handler).run s =
      if Program.caught catches (faultOf body.run s) then after handler.run (after body.run s)
      else after body.run s := by
  have hrun := run_handling catches body.run handler.run s
  cases h : body.run.run s with
  | ok _ t =>
    rw [h] at hrun
    rw [faultOf_of_ok h, after_of_ok h]
    exact after_of_ok hrun
  | error fault t =>
    simp only [h] at hrun
    rw [faultOf_of_error h, after_of_error h, Program.run, after, hrun]
    cases hcatches : catches fault with
    | true => simp [Program.caught, hcatches, after]
    | false => simp [Program.caught, hcatches]

/-- What a whole run keeps: it leads on from its start over every session that it goes through, in
this order, to its end. -/
structure Leads (p : Program) (s : Session) : Prop where
  start : ∀ u ∈ p.visited s, s.LeadsTo u
  finish : ∀ u ∈ p.visited s, u.LeadsTo (after p.run s)
  whole : s.LeadsTo (after p.run s)
  pairs : (p.visited s).Pairwise LeadsTo

theorem leads_of_single (h : s.LeadsTo (after p.run s)) (hvisited : p.visited s = [after p.run s]) :
    Leads p s := by
  constructor
  · simpa [hvisited] using h
  · simpa [hvisited] using LeadsTo.refl _
  · exact h
  · simp [hvisited]

theorem leads_of_none (h : after p.run s = s) (hvisited : p.visited s = []) : Leads p s := by
  constructor
  · simp [hvisited]
  · simp [hvisited]
  · exact h.symm ▸ .refl s
  · simp [hvisited]

theorem Leads.append (h : Leads p s) (h' : Leads q (after p.run s))
    (hvisited : r.visited s = p.visited s ++ q.visited (after p.run s))
    (hafter : after r.run s = after q.run (after p.run s)) : Leads r s := by
  constructor
  · rw [hvisited, List.forall_mem_append]
    exact ⟨h.start, fun u hu => h.whole.trans (h'.start u hu)⟩
  · rw [hvisited, hafter, List.forall_mem_append]
    exact ⟨fun u hu => (h.finish u hu).trans h'.whole, h'.finish⟩
  · exact hafter ▸ h.whole.trans h'.whole
  · rw [hvisited, List.pairwise_append]
    exact ⟨h.pairs, h'.pairs, fun u hu v hv => (h.finish u hu).trans (h'.start v hv)⟩

theorem Leads.congr (h : Leads p s) (hvisited : r.visited s = p.visited s)
    (hafter : after r.run s = after p.run s) : Leads r s := by
  constructor
  · exact hvisited ▸ h.start
  · exact hvisited ▸ hafter ▸ h.finish
  · exact hafter ▸ h.whole
  · exact hvisited ▸ h.pairs

theorem Leads.block (h : Leads body s.enter) : Leads (.block body) s := by
  have hend : (after body.run s.enter).LeadsTo (after (Program.block body).run s) :=
    leadsTo_after_transaction body.run s
  have henter := Session.leadsTo_enter s
  have hvisited : (Program.block body).visited s =
      s.enter :: (body.visited s.enter ++ [after (Program.block body).run s]) := rfl
  constructor
  · rw [hvisited, List.forall_mem_cons, List.forall_mem_append, List.forall_mem_singleton]
    exact ⟨henter, fun u hu => henter.trans (h.start u hu), henter.trans (h.whole.trans hend)⟩
  · rw [hvisited, List.forall_mem_cons, List.forall_mem_append, List.forall_mem_singleton]
    exact ⟨h.whole.trans hend, fun u hu => (h.finish u hu).trans hend, .refl _⟩
  · exact henter.trans (h.whole.trans hend)
  · rw [hvisited, List.pairwise_cons, List.forall_mem_append, List.forall_mem_singleton,
      List.pairwise_append]
    refine ⟨⟨h.start, h.whole.trans hend⟩, h.pairs, List.pairwise_singleton _ _, ?_⟩
    exact fun u hu => List.forall_mem_singleton.mpr ((h.finish u hu).trans hend)

theorem Program.leads (p : Program) (s : Session) : Leads p s := by
  induction p generalizing s with
  | skip => exact leads_of_none rfl rfl
  | leaf step => exact leads_of_single (leadsTo_leaf step s) rfl
  | fail fault => exact leads_of_none rfl rfl
  | seq first second ih ih' =>
    have hafter := after_seq first second s
    by_cases hfault : faultOf first.run s = none
    · exact (ih s).append (ih' _) (by simp [visited, hfault]) (by simp [hafter, hfault])
    · exact (ih s).congr (by simp [visited, hfault]) (by simp [hafter, hfault])
  | block body ih => exact (ih s.enter).block
  | handle catches body handler ih ih' =>
    have hafter := after_handle catches body handler s
    by_cases hcaught : caught catches (faultOf body.run s) = true
    · exact (ih s).append (ih' _) (by simp [visited, hcaught]) (by simp [hafter, hcaught])
    · exact (ih s).congr (by simp [visited, hcaught]) (by simp [hafter, hcaught])
  | close path => exact leads_of_single (leadsTo_close path s) rfl
  | reopen path types => exact leads_of_single (leadsTo_reopen path types s) rfl

theorem sound_fresh (types : List String) (now : Time.Moment) : (Session.fresh types now).Sound :=
  Session.sound_of_saved_eq_none rfl

/-- The tables in use come by writes from the stored ones, and these from the tables of a new
journal. -/
theorem Session.Reachable.writes (h : Reachable s) :
    s.Sound ∧ ReflTransGen Write .fresh s.committed := by
  induction h with
  | fresh types now => exact ⟨sound_fresh types now, .refl⟩
  | visited _ p ht ih =>
    obtain ⟨hsound, hwrites⟩ := ih
    obtain ⟨hsound', hwrites'⟩ := (p.leads _).start _ ht hsound
    exact ⟨hsound', hwrites.trans hwrites'⟩

end Marginalia.Journal
