import Marginalia.Decimal.Extended

/-!
# Texts of binary numbers

A number is written with a point where its size is moderate, and with an exponent otherwise. A
layout says where the bounds are and how the exceptional numbers are called.
-/

namespace Marginalia.Decimal

structure Layout where
  /-- The least exponent of the first digit that is written with a point alone. -/
  least : Int
  /-- The greatest such exponent. -/
  greatest : Int
  /-- Whether a single digit in front of an exponent is followed by `.0`. -/
  pointBeforeExponent : Bool
  infinity : String
  nan : String

/-- The layout of numbers in messages and data: up to sixteen digits before the point. -/
def Layout.plain : Layout := ⟨-4, 15, false, "inf", "nan"⟩

/-- The layout of numbers that the journal stores as text: fifteen digits at most. -/
def Layout.stored : Layout := ⟨-4, 14, true, "Inf", "NaN"⟩

def zeros (count : Nat) : List Char := List.replicate count '0'

/-- The digits of a decimal without the zeros at its end; there is always one. -/
def Digits.significant (d : Digits) : List Char :=
  match ((toString d.digits).toList.reverse.dropWhile (· == '0')).reverse with
  | [] => ['0']
  | cs => cs

/-- The exponent of the first digit. -/
def Digits.scale (d : Digits) : Int :=
  if d.digits == 0 then 0 else d.exponent + (toString d.digits).length - 1

/-- An exponent with its sign and at least two digits. -/
def exponentText (e : Int) : List Char :=
  let digits := (toString e.natAbs).toList
  (if e < 0 then '-' else '+') :: (zeros (2 - digits.length) ++ digits)

def Layout.write (layout : Layout) (d : Digits) : List Char :=
  let cs := d.significant
  let e := d.scale
  if layout.least ≤ e && e ≤ layout.greatest then
    if 0 ≤ e then
      let whole := e.toNat + 1
      let fraction := cs.drop whole
      cs.take whole ++ zeros (whole - cs.length) ++ '.' ::
        (if fraction.isEmpty then ['0'] else fraction)
    else '0' :: '.' :: (zeros (-e - 1).toNat ++ cs)
  else
    let fraction := cs.drop 1
    let point :=
      if !fraction.isEmpty then '.' :: fraction
      else if layout.pointBeforeExponent then ['.', '0']
      else []
    cs.take 1 ++ point ++ 'e' :: exponentText e

/-- A number in a layout, its digits found by a rule for positive numbers. -/
def Layout.text (layout : Layout) (digits : Nat → Int → Digits) : Binary64 → String
  | .nan => layout.nan
  | .infinite negative => (if negative then "-" else "") ++ layout.infinity
  | .finite negative mantissa exponent =>
    let d := if mantissa == 0 then ⟨0, 0⟩ else digits mantissa exponent
    (if negative then "-" else "") ++ String.ofList (layout.write d)

/-- The fewest digits that read back. -/
def Binary64.text (x : Binary64) : String :=
  Layout.plain.text shortest x

/-- Fifteen digits at most. -/
def Binary64.storedText (x : Binary64) : String :=
  Layout.stored.text roughDigits x

end Marginalia.Decimal
