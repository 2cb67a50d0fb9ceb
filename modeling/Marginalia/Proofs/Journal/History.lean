import Marginalia.Proofs.Journal.Lifecycle
import Marginalia.Proofs.Journal.Sync

/-!
# Histories

A run of a program, taken apart into steps: leaves, the two ends of blocks, closing and opening.
Along the steps a ledger is kept of the observations that were taken in. It says which of them are
stored, and which of them only show in the tables in use since the transaction is still open. The
ledger looks at how steps end, and not at the tables.

The clock stands still during a leaf. A scan during which it moves is a block of upserts and one
reconciliation with waits between them.
-/

namespace Marginalia.Journal

inductive Event
  | leaf (step : Leaf)
  | enter
  /-- The end of a block that was entered from a session. A fault may have left its body. -/
  | leave (entered : Session) (fault : Option Fault)
  | close (path : Path)
  | reopen (path : Path) (tags : List String)

/-- The session after a block that was entered from the first session and whose body got to the
second one. -/
def Session.leave (entered s : Session) (fault : Option Fault) : Session :=
  match entered.blockFault s fault with
  | none => entered.commit s
  | some fault => entered.rollback s fault

namespace Event

def next : Event → Session → Session
  | leaf step, s => after step.run s
  | enter, s => s.enter
  | leave entered fault, s => entered.leave s fault
  | close path, s => after (Journal.close path) s
  | reopen path tags, s => after (Journal.reopen path tags) s

/-- Whether a step ends well. Closing gives the open transaction up. -/
def endsWell : Event → Session → Bool
  | leaf step, s => (faultOf step.run s).isNone
  | enter, _ => true
  | leave entered fault, s => (entered.blockFault s fault).isNone
  | close _, _ | reopen _ _, _ => false

end Event

/-- The steps of a run. -/
def Program.events : Program → Session → List Event
  | skip, _ => []
  | leaf step, _ => [.leaf step]
  | fail _, _ => []
  | seq first second, s =>
    first.events s ++ if faultOf first.run s = none then second.events (after first.run s) else []
  | block body, s => .enter :: body.events s.enter ++ [.leave s (faultOf body.run s.enter)]
  | handle catches body handler, s =>
    body.events s ++
      if caught catches (faultOf body.run s) then handler.events (after body.run s) else []
  | close path, _ => [.close path]
  | reopen path tags, _ => [.reopen path tags]

-- ---------------------------------------------------------------------------
-- The ledger
-- ---------------------------------------------------------------------------

/-- The first observations of a scan, up to the one that cannot be taken in. -/
def takenIn : List Observation → SyncCounts → Session → List Observation
  | [], _, _ => []
  | o :: rest, counts, s =>
    match (upsertAll [o] counts).run s with
    | .ok counts t => journaled s.tags [o] ++ takenIn rest counts t
    | .error _ _ => []

/-- The observations that a leaf takes in. -/
def Leaf.taken : Leaf → Session → List Observation
  | call (.upsert o), s => if succeeds (upsert o) s then journaled s.tags [o] else []
  | call (.sync items), s => takenIn items { scanned := items.length } s.enter
  | call (.reconcile _), _ | call (.cancel _), _ | broken _ _, _ | wait _, _ => []

def Event.taken : Event → Session → List Observation
  | leaf step, s => step.taken s
  | _, _ => []

structure Ledger where
  /-- The observations that were taken in by steps that are stored. -/
  stored : List Observation
  /-- Those, and the ones that the open transaction took in. -/
  used : List Observation

/-- While a transaction is open, what is taken in is only in use. When none is open after a step,
all is stored if the step ended well, and what was only in use is gone if not. -/
def Ledger.next (ledger : Ledger) (event : Event) (s : Session) : Ledger :=
  let used := ledger.used ++ event.taken s
  if (event.next s).inTransaction then { ledger with used }
  else if event.endsWell s then ⟨used, used⟩
  else ⟨ledger.stored, ledger.stored⟩

-- ---------------------------------------------------------------------------
-- Runs
-- ---------------------------------------------------------------------------

/-- Where a run has got to. -/
structure Point where
  session : Session
  ledger : Ledger

def Point.next (point : Point) (event : Event) : Point :=
  ⟨event.next point.session, point.ledger.next event point.session⟩

/-- The points that steps lead to, one after the other. -/
def points : List Event → Point → List Point
  | [], _ => []
  | event :: rest, point => point.next event :: points rest (point.next event)

/-- The history of a new journal under a program. -/
def Program.history (p : Program) (types : List String) (now : Time.Moment) : List Point :=
  let start : Point := ⟨.fresh types now, ⟨[], []⟩⟩
  start :: points (p.events start.session) start

theorem points_append (first second : List Event) (point : Point) :
    points (first ++ second) point =
      points first point ++ points second (first.foldl Point.next point) := by
  induction first generalizing point with
  | nil => rfl
  | cons event rest ih => simp [points, ih]

theorem blockFault_isSome (s t : Session) (fault : Fault) :
    (s.blockFault t (some fault)).isSome := by
  unfold Session.blockFault
  repeat' split
  all_goals rfl

theorem leave_eq (m : JournalM α) (s : Session) :
    s.leave (after m s.enter) (faultOf m s.enter) = after (transaction m) s := by
  simp only [Session.leave, after, faultOf, EStateM.run, transaction]
  cases m s.enter with
  | ok a t =>
    dsimp only
    cases s.blockFault t none <;> rfl
  | error fault t =>
    obtain ⟨fault', h⟩ := Option.isSome_iff_exists.mp (blockFault_isSome s t fault)
    simp only [h, Option.getD_some]

/-- The steps of a run lead to the sessions that it goes through, and to its end. -/
structure Follows (p : Program) (point : Point) : Prop where
  visited : (points (p.events point.session) point).map Point.session = p.visited point.session
  finish : ((p.events point.session).foldl Point.next point).session = after p.run point.session

variable {p q r : Program} {point : Point}

theorem Follows.append (h : Follows p point)
    (h' : Follows q ((p.events point.session).foldl Point.next point))
    (hevents : r.events point.session =
      p.events point.session ++ q.events (after p.run point.session))
    (hvisited : r.visited point.session =
      p.visited point.session ++ q.visited (after p.run point.session))
    (hafter : after r.run point.session = after q.run (after p.run point.session)) :
    Follows r point := by
  obtain ⟨hvisited', hfinish'⟩ := h'
  rw [h.finish] at hvisited' hfinish'
  constructor
  · rw [hevents, points_append, List.map_append, h.visited, hvisited', hvisited]
  · rw [hevents, List.foldl_append, hfinish', hafter]

theorem Follows.congr (h : Follows p point)
    (hevents : r.events point.session = p.events point.session)
    (hvisited : r.visited point.session = p.visited point.session)
    (hafter : after r.run point.session = after p.run point.session) : Follows r point := by
  constructor
  · rw [hevents, h.visited, hvisited]
  · rw [hevents, h.finish, hafter]

theorem Follows.block {body : Program} (h : Follows body (point.next .enter)) :
    Follows (.block body) point := by
  obtain ⟨hvisited, hfinish⟩ := h
  have henter : (point.next .enter).session = point.session.enter := rfl
  rw [henter] at hvisited hfinish
  have hleave : (((body.events point.session.enter).foldl Point.next (point.next .enter)).next
      (.leave point.session (faultOf body.run point.session.enter))).session =
        after (transaction body.run) point.session := by
    rw [← leave_eq, ← hfinish]
    rfl
  constructor
  · simp only [Program.events, Program.visited, List.cons_append, points, points_append,
      List.map_cons, List.map_append, List.map_nil, henter, hvisited, hleave]
  · simp only [Program.events, List.cons_append, List.foldl_cons, List.foldl_append,
      List.foldl_nil, hleave]
    rfl

theorem Program.follows (p : Program) (point : Point) : Follows p point := by
  induction p generalizing point with
  | skip => exact ⟨rfl, rfl⟩
  | leaf step => exact ⟨rfl, rfl⟩
  | fail fault => exact ⟨rfl, rfl⟩
  | seq first second ih ih' =>
    have hafter := after_seq first second point.session
    by_cases hfault : faultOf first.run point.session = none
    · exact (ih point).append (ih' _) (by simp [events, hfault]) (by simp [visited, hfault])
        (by simp [hafter, hfault])
    · exact (ih point).congr (by simp [events, hfault]) (by simp [visited, hfault])
        (by simp [hafter, hfault])
  | block body ih => exact (ih _).block
  | handle catches body handler ih ih' =>
    have hafter := after_handle catches body handler point.session
    by_cases hcaught : caught catches (faultOf body.run point.session) = true
    · exact (ih point).append (ih' _) (by simp [events, hcaught]) (by simp [visited, hcaught])
        (by simp [hafter, hcaught])
    · exact (ih point).congr (by simp [events, hcaught]) (by simp [visited, hcaught])
        (by simp [hafter, hcaught])
  | close path => exact ⟨rfl, rfl⟩
  | reopen path types => exact ⟨rfl, rfl⟩

theorem map_session_history (p : Program) (types : List String) (now : Time.Moment) :
    (p.history types now).map Point.session = p.sessions types now := by
  have hvisited := (p.follows ⟨.fresh types now, ⟨[], []⟩⟩).visited
  simpa [Program.history, Program.sessions] using hvisited

end Marginalia.Journal
