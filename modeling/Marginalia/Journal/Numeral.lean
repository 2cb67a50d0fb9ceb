import Marginalia.Decimal.Extended
import Marginalia.Text.Numeral

/-!
# Numbers in the texts of tables

A text stands for a number if it holds digits with a sign, a point and an exponent, blanks around
it. Digits alone that make a whole number of 64 bits are one. All others are worked out in
extended precision, from as many digits as the significand has room for.
-/

namespace Marginalia.Journal

open Decimal (Binary64 Extended)
open Text (isAsciiDigit)

/-- The least and the greatest whole number of a cell. -/
def leastInt : Int := -9223372036854775808

def greatestInt : Int := 9223372036854775807

def fits (n : Int) : Bool :=
  leastInt ≤ n && n ≤ greatestInt

def isSpace (c : Char) : Bool :=
  c == ' ' || ('\t' ≤ c && c ≤ '\r')

/-- A significand that is not less takes no digit any more. -/
def significandLimit : Nat := 922337203685477579

/-- The significand that digits before a point make, and the number of those it has no room for. -/
def takeWhole (significand : Nat) : List Nat → Nat × Nat
  | [] => (significand, 0)
  | digit :: rest =>
    let next := significand * 10 + digit
    if next < significandLimit then takeWhole next rest else (next, rest.length)

/-- The significand that digits behind a point make, and the number of those it had room for. -/
def takeFraction (significand taken : Nat) : List Nat → Nat × Nat
  | [] => (significand, taken)
  | digit :: rest =>
    if significand < significandLimit then
      takeFraction (significand * 10 + digit) (taken + 1) rest
    else (significand, taken)

/-- Moves powers of ten into a significand while it has room. -/
def raiseSignificand : (power significand : Nat) → Nat × Nat
  | 0, significand => (0, significand)
  | power + 1, significand =>
    if significand < 922337203685477580 then raiseSignificand power (significand * 10)
    else (power + 1, significand)

/-- Takes powers of ten out of a significand while nothing is lost. -/
def lowerSignificand : (power significand : Nat) → Nat × Nat
  | 0, significand => (0, significand)
  | power + 1, significand =>
    if significand % 10 == 0 then lowerSignificand power (significand / 10)
    else (power + 1, significand)

/-- The number `± significand · 10 ^ exponent`, for a significand of 63 bits. An exponent beyond
307 is applied in two steps. -/
def scaledReal (negative : Bool) (significand : Nat) (exponent : Int) : Binary64 :=
  let isLarge := 0 ≤ exponent
  let (power, significand) :=
    if isLarge then raiseSignificand exponent.natAbs significand
    else lowerSignificand exponent.natAbs significand
  let x := Extended.ofNat significand
  let scaled (x : Extended) (unit : Extended) : Binary64 :=
    (if isLarge then x.mul unit else x.div unit).toBinary64 negative
  if significand == 0 || (power == 0) then x.toBinary64 negative
  else if power ≤ 307 then scaled x (.powerOfTen power)
  else if power < 342 then
    match scaled x (.powerOfTen (power - 308)) with
    | .finite _ mantissa q =>
      let unit := Extended.ofDecimal 1 308
      if isLarge then (Extended.toBinary64 negative ⟨mantissa * unit.mantissa, q + unit.exponent⟩)
      else
        let (a, b) := Extended.toFraction ⟨mantissa, q⟩
        let (c, d) := unit.toFraction
        .ofRatio negative (a * d) (b * c)
    | other => other
  else if isLarge then .infinite negative
  else .ofRatio negative 0 1

/-- The value of an exponent; one with many digits is not worked out. -/
def cappedExponent (digits : List Nat) : Nat :=
  digits.foldl (fun e digit => if e < 10000 then e * 10 + digit else 10000) 0

/-- The exponent behind the digits of a number, if it has one, and the rest. -/
def takeExponent? : List Char → Option (Option Int × List Char)
  | [] => some (none, [])
  | c :: rest =>
    if c == 'e' || c == 'E' then
      let (negative, body) := Text.takeSign rest
      let digits := body.takeWhile isAsciiDigit
      if digits.isEmpty then none
      else
        let e : Int := cappedExponent (digits.map (·.toNat - 0x30))
        some (some (if negative then -e else e), body.drop digits.length)
    else some (none, c :: rest)

/-- The number that a text stands for. -/
def numberOf? (text : String) : Option (Sum Int Binary64) := do
  let (negative, body) := Text.takeSign (text.toList.dropWhile isSpace)
  let whole := body.takeWhile isAsciiDigit
  let rest := body.drop whole.length
  let (fraction, rest) :=
    match rest with
    | '.' :: after => (some (after.takeWhile isAsciiDigit), after.dropWhile isAsciiDigit)
    | _ => (none, rest)
  if whole.isEmpty && (fraction.getD []).isEmpty then none
  else
    let (power, rest) ← takeExponent? rest
    if !rest.all isSpace then none
    else
      let n : Int := Text.ofDigits (whole.map (·.toNat - 0x30))
      let n := if negative then -n else n
      if fraction.isNone && power.isNone && fits n then some (.inl n)
      else
        let (significand, skipped) := takeWhole 0 (whole.map (·.toNat - 0x30))
        let (significand, taken) :=
          takeFraction significand 0 ((fraction.getD []).map (·.toNat - 0x30))
        some (.inr (scaledReal negative significand (power.getD 0 + skipped - taken)))

end Marginalia.Journal
