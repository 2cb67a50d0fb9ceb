import Marginalia.Decimal.Digits

/-!
# Extended precision

Numbers that are not negative, with 64 leading bits and exponents without bounds. Each operation is
rounded to the nearest number, a tie to the even one.
-/

namespace Marginalia.Decimal

/-- The value `mantissa · 2 ^ exponent`. -/
structure Extended where
  mantissa : Nat
  exponent : Int
  deriving DecidableEq, Repr

namespace Extended

/-- The number nearest to `num / den`, for a positive `den`. -/
def ofRatio (num den : Nat) : Extended :=
  if num == 0 then ⟨0, 0⟩
  else
    let exponent := floorLog2 num den - 63
    let (n, d) := scaleDown 2 num den exponent
    ⟨roundHalfEven n d, exponent⟩

def ofNat (n : Nat) : Extended := ofRatio n 1

/-- The value as a fraction. -/
def toFraction (x : Extended) : Nat × Nat :=
  scaleDown 2 x.mantissa 1 (-x.exponent)

/-- The number of 53 bits that is nearest. -/
def toBinary64 (negative : Bool) (x : Extended) : Binary64 :=
  let (num, den) := x.toFraction
  .ofRatio negative num den

/-- A finite number of 53 bits, without its sign. -/
def ofBinary64 : Binary64 → Extended
  | .finite _ mantissa exponent => ⟨mantissa, exponent⟩
  | _ => ⟨0, 0⟩

/-- The number of 53 bits that is nearest to `digits · 10 ^ exponent`. -/
def ofDecimal (digits : Nat) (exponent : Int) : Extended :=
  ofBinary64 (.ofDecimal false digits exponent)

def mul (x y : Extended) : Extended :=
  let product := ofNat (x.mantissa * y.mantissa)
  { product with exponent := product.exponent + x.exponent + y.exponent }

def div (x y : Extended) : Extended :=
  let quotient := ofRatio x.mantissa y.mantissa
  { quotient with exponent := quotient.exponent + x.exponent - y.exponent }

def add (x y : Extended) : Extended :=
  let (a, b) := x.toFraction
  let (c, d) := y.toFraction
  ofRatio (a * d + c * b) (b * d)

/-- Whether a number is less than another one. -/
def isLess (x y : Extended) : Bool :=
  let (a, b) := x.toFraction
  let (c, d) := y.toFraction
  a * d < c * b

/-- The part before the point, and what is left behind it. -/
def splitPoint (x : Extended) : Nat × Extended :=
  let (a, b) := x.toFraction
  (a / b, ofRatio (a % b) b)

/-- Goes on with a power: `power` is the product so far, `square` the next factor, and `steps`
bounds the bits of `n`. -/
def powerFrom (power square : Extended) : (steps n : Nat) → Extended
  | 0, _ => power
  | steps + 1, n =>
    let power := if n % 2 == 1 then power.mul square else power
    if n < 2 then power else powerFrom power (square.mul square) steps (n / 2)

/-- A power of ten by squaring. Great ones carry the errors of several roundings. -/
def powerOfTen (n : Nat) : Extended :=
  powerFrom (ofNat 1) (ofNat 10) (n + 1) n

/-- Finds a scale for a number: it grows by the factor `10 ^ step` while the number is not less than
its next value, and `zeros` counts. -/
def scaleFrom (x : Extended) (step : Nat) : (steps : Nat) → (scale : Extended) → (zeros : Int) →
    Extended × Int
  | 0, scale, zeros => (scale, zeros)
  | steps + 1, scale, zeros =>
    let next := (ofDecimal 1 step).mul scale
    if x.isLess next then (scale, zeros) else scaleFrom x step steps next (zeros + step)

/-- Multiplies a number by `10 ^ step` while it is less than a bound, and counts the zeros off. -/
def raiseTo (bound : Extended) (step : Nat) : (steps : Nat) → (x : Extended) → (zeros : Int) →
    Extended × Int
  | 0, x, zeros => (x, zeros)
  | steps + 1, x, zeros =>
    if x.isLess bound then
      raiseTo bound step steps (x.mul (ofDecimal 1 step)) (zeros - step)
    else (x, zeros)

/-- The leading digits of a number less than ten, behind those found so far; what is left after a
digit is multiplied by ten. -/
def leadingDigits : (count : Nat) → (x : Extended) → (digits : Nat) → Nat
  | 0, _, digits => digits
  | count + 1, x, digits =>
    let (digit, rest) := x.splitPoint
    leadingDigits count (rest.mul (ofNat 10)) (digits * 10 + digit)

/-- Half of the last of fifteen places, as a product of 53 bits. -/
def halfPlace : Extended :=
  let x := ofDecimal 5 (-5)
  let y := ofDecimal 1 (-10)
  ofBinary64 (toBinary64 false ⟨x.mantissa * y.mantissa, x.exponent + y.exponent⟩)

end Extended

/-- Fifteen digits of the positive number `m · 2 ^ q`. It is brought between one and ten, half of
the last place is added, and what lies beyond fifteen digits is cut off. Every step is rounded, so
that the last digit may be off by one. -/
def roughDigits (m : Nat) (q : Int) : Digits :=
  let x : Extended := ⟨m, q⟩
  let (scale, e) := x.scaleFrom 100 4 (.ofNat 1) 0
  let (scale, e) := x.scaleFrom 10 10 scale e
  let (scale, e) := x.scaleFrom 1 10 scale e
  let (x, e) := Extended.raiseTo (.ofDecimal 1 (-8)) 8 50 (x.div scale) e
  let (x, e) := Extended.raiseTo (.ofNat 1) 1 10 x e
  let x := x.add .halfPlace
  let (x, e) := if x.isLess (.ofNat 10) then (x, e) else (x.mul (.ofDecimal 1 (-1)), e + 1)
  ⟨x.leadingDigits 15 0, e - 14⟩

end Marginalia.Decimal
