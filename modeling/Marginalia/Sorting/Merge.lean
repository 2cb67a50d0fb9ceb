import Marginalia.Sorting.Gallop

/-!
# Merging two runs

Two sorted runs that stand side by side become one. What is in place already is left alone, and
the rest is merged from the end of the shorter run: element by element, and in bulk once one run
has won so often in a row that the merge runs out of patience.
-/

namespace Marginalia.Sorting

/-- The end at which a merge starts. -/
inductive Side where
  | front
  | back

/-- A merge on its way. At the front, the runs list the elements that are left in order; at the
back, from last to first. `merged` has the latest element first. -/
structure Merging (α : Type) where
  first : List α
  second : List α
  merged : List α

/-- How many elements of each run have been taken in a row. -/
structure Wins where
  first : Nat
  second : Nat

/-- The number of wins in a row that makes bulk worth while. -/
def worthwhile : Nat := 7

namespace Merging

variable {ε α : Type}

def takeFirst (m : Merging α) (count : Nat) : Merging α :=
  { m with
    first := m.first.drop count
    merged := (m.first.take count).reverse ++ m.merged }

def takeSecond (m : Merging α) (count : Nat) : Merging α :=
  { m with
    second := m.second.drop count
    merged := (m.second.take count).reverse ++ m.merged }

/-- Takes the next element of the second run if that comes before the one of the first, or else
of the first. At the back it is the other way round, as the greater one goes there. -/
def takeOne (side : Side) (m : Merging α) (second_precedes : Bool) : Merging α :=
  match side, second_precedes with
  | .front, true | .back, false => m.takeSecond 1
  | .front, false | .back, true => m.takeFirst 1

/-- Whether the rest is in place: a run is used up, or only its extreme element is left of the
one that is known to go to the far end. -/
def isDone (side : Side) (m : Merging α) : Bool :=
  match side, m.first, m.second with
  | .front, _, [] | .front, [], _ | .front, [_], _ => true
  | .back, [], _ | .back, _, [] | .back, _, [_] => true
  | _, _, _ => false

/-- The merged run, with what is left at the far end. -/
def result (side : Side) (m : Merging α) : List α :=
  match side with
  | .front => m.merged.reverse ++ (m.second ++ m.first)
  | .back => m.second.reverse ++ (m.first.reverse ++ m.merged)

/-- The number of elements at the start of a run that are to be taken, where the question tells
which elements come before the next one of the other run. -/
def leading (side : Side) (question : α → Except ε Bool) (run : List α) : Except ε Nat :=
  match side with
  | .front => gallop (asked question run) run.length 0
  | .back => do
    let ordered := run.reverse
    let point ← gallop (asked question ordered) ordered.length (ordered.length - 1)
    .ok (ordered.length - point)

/-- Takes one element after another until a run has won `patience` times in a row. `steps` bounds
the number of elements. -/
def takeSingly (less : α → α → Except ε Bool) (side : Side) (patience : Nat) :
    (steps : Nat) → Wins → Merging α → Except ε (Merging α)
  | 0, _, m => .ok m
  | steps + 1, wins, m =>
    match m.first, m.second with
    | a :: _, b :: _ => do
      let second_precedes ← less b a
      let next := m.takeOne side second_precedes
      let wins : Wins :=
        match side, second_precedes with
        | .front, true | .back, false => ⟨0, wins.second + 1⟩
        | .front, false | .back, true => ⟨wins.first + 1, 0⟩
      if next.isDone side || patience ≤ max wins.first wins.second then .ok next
      else takeSingly less side patience steps wins next
    | _, _ => .ok m

/-- Takes what comes before the next element of the second run from the first. -/
def bulkOfFirst (less : α → α → Except ε Bool) (side : Side) (m : Merging α) :
    Except ε Nat :=
  match m.second with
  | b :: _ => leading side (fun a => do .ok !(← less b a)) m.first
  | [] => .ok 0

/-- Takes what comes before the next element of the first run from the second. -/
def bulkOfSecond (less : α → α → Except ε Bool) (side : Side) (m : Merging α) :
    Except ε Nat :=
  match m.first with
  | a :: _ => leading side (fun b => less b a) m.second
  | [] => .ok 0

/-- Takes elements in bulk from both runs in turn, as long as that is worth while, and becomes
less patient with every turn. `steps` bounds the number of turns. -/
def takeInBulk (less : α → α → Except ε Bool) (side : Side) :
    (steps patience : Nat) → Merging α → Except ε (Nat × Merging α)
  | 0, patience, m => .ok (patience, m)
  | steps + 1, patience, m => do
    let firsts ← bulkOfFirst less side m
    let m := m.takeFirst firsts
    if m.isDone side then return (patience, m)
    let m := m.takeSecond 1
    if m.isDone side then return (patience, m)
    let seconds ← bulkOfSecond less side m
    let m := m.takeSecond seconds
    if m.isDone side then return (patience, m)
    let m := m.takeFirst 1
    if m.isDone side then return (patience, m)
    if worthwhile ≤ max firsts seconds then
      takeInBulk less side steps (max 1 (patience - 1)) m
    else return (patience + 1, m)

/-- Takes elements singly and in bulk in turn until the rest is in place. Leaving the bulk makes
the merge more patient. -/
def finish (less : α → α → Except ε Bool) (side : Side) :
    (steps patience : Nat) → Merging α → Except ε (Nat × Merging α)
  | 0, patience, m => .ok (patience, m)
  | steps + 1, patience, m =>
    if m.isDone side then .ok (patience, m)
    else do
      let size := m.first.length + m.second.length
      let m ← takeSingly less side patience size ⟨0, 0⟩ m
      if m.isDone side then return (patience, m)
      let (patience, m) ← takeInBulk less side size patience m
      finish less side steps patience m

end Merging

/-- Merges two runs, of which the second one starts with the least element and the first one ends
with the greatest. -/
def mergeFrom {ε α : Type} (less : α → α → Except ε Bool) (side : Side) (patience : Nat)
    (first second : List α) : Except ε (Nat × List α) := do
  let start : Merging α :=
    match side with
    | .front => ⟨first, second, []⟩
    | .back => ⟨first.reverse, second.reverse, []⟩
  let (patience, m) ← (start.takeOne side true).finish less side
    (first.length + second.length) patience
  .ok (patience, m.result side)

/-- One run of two that stand side by side. -/
def mergeRuns {ε α : Type} (less : α → α → Except ε Bool) (patience : Nat)
    (first second : List α) : Except ε (Nat × List α) :=
  match second.head?, first.getLast? with
  | some least, some greatest => do
    let kept ← gallop (asked (fun a => do .ok !(← less least a)) first) first.length 0
    if kept = first.length then return (patience, first ++ second)
    let reach ← gallop (asked (fun b => less b greatest) second) second.length (second.length - 1)
    if reach = 0 then return (patience, first ++ second)
    let side : Side := if first.length - kept ≤ reach then .front else .back
    let (patience, merged) ← mergeFrom less side patience (first.drop kept) (second.take reach)
    return (patience, first.take kept ++ (merged ++ second.drop reach))
  | _, _ => .ok (patience, first ++ second)

end Marginalia.Sorting
