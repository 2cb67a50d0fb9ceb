import Marginalia.Decimal.Binary64

/-!
# Decimal digits of binary numbers

The fewest decimal digits that read back as a given number. The numbers that read back as
`m · 2 ^ q` form an interval around it, which holds its ends when `m` is even. On the grid of all
decimals with `n` digits only the two neighbours of the number have to be tried.
-/

namespace Marginalia.Decimal

/-- The decimal `digits · 10 ^ exponent`. -/
structure Digits where
  digits : Nat
  exponent : Int
  deriving DecidableEq, Repr

/-- The least `p` with `num / den < 10 ^ p`, for positive `num` and `den`. -/
def pointPosition (num den : Nat) : Int :=
  let guess := floorLog2 num den * 30103 / 100000 + 1
  let (n, d) := scaleDown 10 num den guess
  if d ≤ n then guess + 1
  else
    let (n, d) := scaleDown 10 num den (guess - 1)
    if n < d then guess - 1 else guess

/-- A grid of decimals as it lies around `m · 2 ^ q`: the number is `4 m · factor` and the grid
holds the multiples of `unit`. -/
structure Grid where
  factor : Nat
  unit : Nat

/-- The grid of the multiples of `10 ^ power` around a number with exponent `q`. -/
def Grid.at (q power : Int) : Grid :=
  let (factor, unit) := scaleDown 2 1 1 (2 - q)
  let (factor, unit) := scaleDown 10 factor unit power
  ⟨factor, unit⟩

/-- Whether the multiple `c` of the grid reads back as `m · 2 ^ q`. Below a power of two the
numbers lie twice as dense as above it. -/
def Grid.readsBack (grid : Grid) (m : Nat) (q : Int) (c : Nat) : Bool :=
  let below := if m == leadingBit && leastExponent < q then 1 else 2
  let low := (4 * m - below) * grid.factor
  let high := (4 * m + 2) * grid.factor
  let here := c * grid.unit
  if m % 2 == 0 then low ≤ here && here ≤ high else low < here && here < high

/-- The multiple of the grid that reads back as `m · 2 ^ q`, the nearer one of two. -/
def Grid.hit? (grid : Grid) (m : Nat) (q : Int) : Option Nat :=
  let value := 4 * m * grid.factor
  let lower := value / grid.unit
  let upper := lower + 1
  match grid.readsBack m q lower, grid.readsBack m q upper with
  | false, false => none
  | true, false => some lower
  | false, true => some upper
  | true, true =>
    let fromLower := value - lower * grid.unit
    let toUpper := upper * grid.unit - value
    if fromLower < toUpper || (fromLower == toUpper && lower % 2 == 0) then some lower
    else some upper

/-- The first hit on finer and finer grids: `left` grids are still to be tried, the next one with
the multiples of `10 ^ power`. -/
def shortestFrom (m : Nat) (q : Int) : (left : Nat) → (power : Int) → Digits
  | 0, power => ⟨4 * m * (Grid.at q power).factor / (Grid.at q power).unit, power⟩
  | left + 1, power =>
    match (Grid.at q power).hit? m q with
    | some c => ⟨c, power⟩
    | none => shortestFrom m q left (power - 1)

/-- The fewest digits that read back as the positive number `m · 2 ^ q`; seventeen are always
enough. -/
def shortest (m : Nat) (q : Int) : Digits :=
  let (num, den) := scaleDown 2 m 1 (-q)
  shortestFrom m q 17 (pointPosition num den - 1)

end Marginalia.Decimal
