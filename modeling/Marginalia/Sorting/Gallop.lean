/-!
# Searching a sorted list

The elements that come before a point stand at the front of a sorted list, and the search for
the point asks few of them. It starts from a hint, strides away from it with doubled steps, and
halves the stretch between the last two. A question may fail, and its fault ends the search.
-/

namespace Marginalia.Sorting

/-- The first position from `low` to `high` that does not come before, found by halving. `steps`
bounds the number of halvings. -/
def halve {ε : Type} (before : Nat → Except ε Bool) :
    (steps low high : Nat) → Except ε Nat
  | 0, low, _ => .ok low
  | steps + 1, low, high =>
    if low < high then do
      let middle := low + (high - low) / 2
      if ← before middle then halve before steps (middle + 1) high
      else halve before steps low middle
    else .ok low

/-- The last distance found to hold and the next one, which does not or is the limit. Distances
grow from one by doubling and adding one. `steps` bounds the number of strides. -/
def stride {ε : Type} (holds : Nat → Except ε Bool) (limit : Nat) :
    (steps last next : Nat) → Except ε (Nat × Nat)
  | 0, last, _ => .ok (last, limit)
  | steps + 1, last, next =>
    if next < limit then do
      if ← holds next then stride holds limit steps next (2 * next + 1)
      else .ok (last, next)
    else .ok (last, limit)

/-- The number of positions below `size` that come before, searched from a hint below `size`. -/
def gallop {ε : Type} (before : Nat → Except ε Bool) (size hint : Nat) : Except ε Nat := do
  if ← before hint then
    let (last, next) ← stride (fun distance => before (hint + distance)) (size - hint) size 0 1
    halve before size (hint + last + 1) (hint + next)
  else
    let (last, next) ← stride
      (fun distance => do .ok !(← before (hint - distance))) (hint + 1) size 0 1
    halve before size (hint + 1 - next) (hint - last)

/-- A question about the element at a position. -/
def asked {ε α : Type} (question : α → Except ε Bool) (elements : List α) (position : Nat) :
    Except ε Bool :=
  match elements[position]? with
  | some element => question element
  | none => .ok false

end Marginalia.Sorting
