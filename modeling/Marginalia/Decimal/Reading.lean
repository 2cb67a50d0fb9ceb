import Marginalia.Decimal.Binary64
import Marginalia.Text.Case
import Marginalia.Text.Numeral

/-!
# Reading binary numbers

A decimal number with an optional sign, point and exponent, blanks around it and single
underscores between its digits; or the name of an infinity or of no number.
-/

namespace Marginalia.Decimal

open Text (isDecimal decimalValue? trimNumber takeSign ofDigits lowerChars)

/-- A run of digits and underscores in front of a text, if every underscore stands between two
digits, and what follows. -/
def takeDigitRun? (cs : List Char) : Option (List Nat × List Char) :=
  let run := cs.takeWhile fun c => isDecimal c || c == '_'
  if run.isEmpty || Text.underscoresSeparate false run then
    some (run.filterMap decimalValue?, cs.drop run.length)
  else none

/-- The exponent behind the digits; a text without one has the exponent 0. -/
def takeExponent? : List Char → Option (Int × List Char)
  | [] => some (0, [])
  | c :: rest =>
    if c == 'e' || c == 'E' then do
      let (negative, body) := takeSign rest
      let (values, after) ← takeDigitRun? body
      if values.isEmpty then none
      else
        let n : Int := ofDigits values
        some (if negative then -n else n, after)
    else some (0, c :: rest)

/-- The number that digits without sign write. -/
def readMagnitude? (negative : Bool) (cs : List Char) : Option Binary64 := do
  let (whole, rest) ← takeDigitRun? cs
  let (fraction, rest) ←
    match rest with
    | '.' :: after => takeDigitRun? after
    | _ => some ([], rest)
  if whole.isEmpty && fraction.isEmpty then none
  else
    let (exponent, rest) ← takeExponent? rest
    if rest.isEmpty then
      some (.ofDecimal negative (ofDigits (whole ++ fraction)) (exponent - fraction.length))
    else none

/-- The number that a text writes. -/
def readReal? (text : String) : Option Binary64 :=
  let (negative, body) := takeSign (trimNumber text.toList)
  let name := String.ofList (lowerChars body)
  if body.all (·.toNat < 0x80) && (name == "inf" || name == "infinity") then
    some (.infinite negative)
  else if body.all (·.toNat < 0x80) && name == "nan" then some .nan
  else readMagnitude? negative body

end Marginalia.Decimal
