/-!
# Binary floating point

Numbers of the 64-bit binary format as exact values: a whole number of 53 bits times a power of
two, an infinity, or no number. Rounding goes to the nearest number, a tie to the even one.
-/

namespace Marginalia.Decimal

inductive Binary64
  /-- The value `± mantissa · 2 ^ exponent`. -/
  | finite (negative : Bool) (mantissa : Nat) (exponent : Int)
  | infinite (negative : Bool)
  | nan
  deriving DecidableEq, Repr

/-- The exponent of the smallest numbers. -/
def leastExponent : Int := -1074

/-- The exponent of the largest numbers. -/
def greatestExponent : Int := 971

/-- The first of the 53 bits: mantissas are less than twice as great, and not less than it except
at the least exponent. -/
def leadingBit : Nat := Nat.pow 2 52

/-- A quotient rounded to the nearest whole number, a tie to the even one. -/
def roundHalfEven (num den : Nat) : Nat :=
  let q := num / den
  let twice := 2 * (num % den)
  if den < twice || (twice == den && q % 2 == 1) then q + 1 else q

/-- `num / den / base ^ power` as a quotient of natural numbers. -/
def scaleDown (base num den : Nat) (power : Int) : Nat × Nat :=
  if 0 ≤ power then (num, den * base.pow power.toNat) else (num * base.pow (-power).toNat, den)

/-- The greatest `p` with `2 ^ p ≤ num / den`, for positive `num` and `den`. -/
def floorLog2 (num den : Nat) : Int :=
  let p : Int := (num.log2 : Int) - den.log2
  let (n, d) := scaleDown 2 num den p
  if n < d then p - 1 else p

namespace Binary64

def zero : Binary64 := finite false 0 leastExponent

/-- The number nearest to `± num / den`, for a positive `den`. -/
def ofRatio (negative : Bool) (num den : Nat) : Binary64 :=
  if num == 0 then finite negative 0 leastExponent
  else
    let exponent := max (floorLog2 num den - 52) leastExponent
    let (n, d) := scaleDown 2 num den exponent
    let rounded := roundHalfEven n d
    let (mantissa, exponent) :=
      if rounded == 2 * leadingBit then (leadingBit, exponent + 1) else (rounded, exponent)
    if greatestExponent < exponent then infinite negative else finite negative mantissa exponent

/-- The number nearest to `± digits · 10 ^ exponent`. An exponent far outside the range is not
worked out. -/
def ofDecimal (negative : Bool) (digits : Nat) (exponent : Int) : Binary64 :=
  let places : Int := (toString digits).length
  if digits == 0 then ofRatio negative 0 1
  else if 400 < places + exponent then infinite negative
  else if places + exponent < -400 then ofRatio negative 0 1
  else if 0 ≤ exponent then ofRatio negative (digits * Nat.pow 10 exponent.toNat) 1
  else ofRatio negative digits (Nat.pow 10 (-exponent).toNat)

/-- The number nearest to a whole number, unless that is too large. -/
def ofInt? (n : Int) : Option Binary64 :=
  match ofRatio (n < 0) n.natAbs 1 with
  | infinite _ => none
  | x => some x

/-- The value as a fraction with a positive denominator. -/
def toFraction? : Binary64 → Option (Int × Nat)
  | finite negative mantissa exponent =>
    let (num, den) := scaleDown 2 mantissa 1 (-exponent)
    some (if negative then -(num : Int) else num, den)
  | _ => none

/-- The order of two numbers, if both are numbers. -/
def compare? : Binary64 → Binary64 → Option Ordering
  | nan, _ => none
  | _, nan => none
  | infinite a, infinite b => some (compare b.toNat a.toNat)
  | infinite negative, finite .. => some (if negative then .lt else .gt)
  | finite .., infinite negative => some (if negative then .gt else .lt)
  | x, y =>
    match x.toFraction?, y.toFraction? with
    | some (a, b), some (c, d) => some (compare (a * d) (c * b))
    | _, _ => none

/-- The order of a number and a whole number. -/
def compareInt? (x : Binary64) (n : Int) : Option Ordering :=
  match x with
  | nan => none
  | infinite negative => some (if negative then .lt else .gt)
  | finite .. => x.toFraction?.map fun (a, b) => compare a (n * b)

/-- The part before the point, of a finite number. -/
def truncate? (x : Binary64) : Option Int :=
  x.toFraction?.map fun (a, b) => a.tdiv b

/-- The whole number that equals this number. -/
def toInt? (x : Binary64) : Option Int :=
  match x.toFraction? with
  | some (a, b) => if a % b == 0 then some (a / b) else none
  | none => none

def isZero : Binary64 → Bool
  | finite _ mantissa _ => mantissa == 0
  | _ => false

end Binary64

end Marginalia.Decimal
