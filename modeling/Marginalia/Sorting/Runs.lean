import Marginalia.Sorting.Merge

/-!
# Sorting by runs

A list is cut into runs, which are as long as they happen to be in order and are filled up to a
least length by insertion. Runs are merged with their neighbours, in an order that keeps the
merges balanced. Elements whose comparison fails have no order: the fault of the first failing
comparison is the outcome, so the comparisons and their order are part of what sorting does.
-/

namespace Marginalia.Sorting

variable {ε α : Type}

/-- The elements that continue an ascending run, or a strictly descending one, and the rest. -/
def takeRun (less : α → α → Except ε Bool) (descending : Bool) (last : α) :
    List α → Except ε (List α × List α)
  | [] => .ok ([], [])
  | x :: rest => do
    if (← less x last) == descending then
      let (run, after) ← takeRun less descending x rest
      .ok (x :: run, after)
    else .ok ([], x :: rest)

/-- The longest run at the start of a list, in ascending order, and the rest. -/
def firstRun (less : α → α → Except ε Bool) : List α → Except ε (List α × List α)
  | [] => .ok ([], [])
  | [x] => .ok ([x], [])
  | first :: second :: rest => do
    let descending ← less second first
    let (run, after) ← takeRun less descending second rest
    let run := first :: second :: run
    .ok (if descending then run.reverse else run, after)

/-- Inserts an element into a run, before the elements that it precedes. -/
def insertOne (less : α → α → Except ε Bool) (run : List α) (new : α) : Except ε (List α) := do
  let point ← halve (asked (fun x => do .ok !(← less new x)) run) run.length 0 run.length
  .ok (run.take point ++ new :: run.drop point)

/-- The least length of runs in a list of `size` elements: all of them if they are few, and else
so many that a power of two of runs fill the list, or nearly. `extra` is one if a halving left
something over. `steps` bounds the number of halvings. -/
def leastLength : (steps size extra : Nat) → Nat
  | 0, size, extra => size + extra
  | steps + 1, size, extra =>
    if size < 64 then size + extra
    else leastLength steps (size / 2) (max extra (size % 2))

/-- The next run of a list, filled up to a least length as far as elements are left, and the
rest. -/
def nextRun (less : α → α → Except ε Bool) (least : Nat) (elements : List α) :
    Except ε (List α × List α) := do
  let (run, rest) ← firstRun less elements
  let lacking := least - run.length
  let run ← (rest.take lacking).foldlM (insertOne less) run
  .ok (run, rest.drop lacking)

/-- A run that waits, with the depth of the boundary after it. -/
structure Waiting (α : Type) where
  run : List α
  depth : Nat

/-- Runs in a row, the last one first, and the patience of merges. -/
structure Row (α : Type) where
  waiting : List (Waiting α)
  patience : Nat

/-- The depth of the boundary between two neighbouring runs: how often a list of `size` elements
is halved until a cut falls between their middles, given as doubled positions. `steps` bounds the
number of halvings. -/
def boundaryDepth (size : Nat) : (steps low high : Nat) → Nat
  | 0, _, _ => 0
  | steps + 1, low, high =>
    if size ≤ low then boundaryDepth size steps (2 * (low - size)) (2 * (high - size)) + 1
    else if size ≤ high then 1
    else boundaryDepth size steps (2 * low) (2 * high) + 1

/-- Merges the last run with those before it whose boundaries lie deeper than the given one. -/
def settle (less : α → α → Except ε Bool) (depth patience : Nat) (top : List α) :
    List (Waiting α) → Except ε (Row α)
  | [] => .ok ⟨[⟨top, depth⟩], patience⟩
  | below :: rest =>
    if depth < below.depth then do
      let (patience, merged) ← mergeRuns less patience below.run top
      settle less depth patience merged rest
    else .ok ⟨⟨top, depth⟩ :: below :: rest, patience⟩

/-- Adds a run at the end of a row. -/
def Row.push (less : α → α → Except ε Bool) (size : Nat) (row : Row α) (run : List α) :
    Except ε (Row α) :=
  match row.waiting with
  | [] => .ok { row with waiting := [⟨run, 0⟩] }
  | top :: below => do
    let start := below.foldl (fun total waiting => total + waiting.run.length) 0
    let low := 2 * start + top.run.length
    let high := low + top.run.length + run.length
    let settled ← settle less (boundaryDepth size size low high) row.patience top.run below
    .ok { settled with waiting := ⟨run, 0⟩ :: settled.waiting }

/-- Merges all runs of a row. The last run has to be longer than the third last one to wait. -/
def collapse (less : α → α → Except ε Bool) (patience : Nat) (top : List α)
    (waiting : List (Waiting α)) : Except ε (List α) :=
  match waiting with
  | [] => .ok top
  | [below] => do
    let (_, merged) ← mergeRuns less patience below.run top
    .ok merged
  | below :: third :: rest =>
    if third.run.length < top.length then do
      let (patience, merged) ← mergeRuns less patience third.run below.run
      collapse less patience top (⟨merged, third.depth⟩ :: rest)
    else do
      let (patience, merged) ← mergeRuns less patience below.run top
      collapse less patience merged (third :: rest)
termination_by waiting.length

/-- The runs of a list, merged as far as they have settled. `steps` bounds the number of runs. -/
def gather (less : α → α → Except ε Bool) (size : Nat) :
    (steps : Nat) → List α → Row α → Except ε (Row α)
  | 0, _, row => .ok row
  | _ + 1, [], row => .ok row
  | steps + 1, elements, row => do
    let (run, rest) ← nextRun less (leastLength size size 0) elements
    let row ← row.push less size run
    gather less size steps rest row

/-- The elements of a list in ascending order, where equal ones stay in place. -/
def sort (less : α → α → Except ε Bool) (elements : List α) : Except ε (List α) := do
  let row ← gather less elements.length elements.length elements ⟨[], worthwhile⟩
  match row.waiting with
  | [] => .ok []
  | top :: below => collapse less row.patience top.run below

end Marginalia.Sorting
