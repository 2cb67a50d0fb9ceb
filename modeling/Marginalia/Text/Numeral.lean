import Marginalia.Text.Blank
import Marginalia.Text.Digit
import Marginalia.Text.Quoted

/-!
# Whole numbers in text

Reading a decimal whole number: optional blanks around it, an optional sign, digits of any
script, single underscores between digits. A number of more than 4300 digits is refused.
-/

namespace Marginalia.Text

/-- The most digits that a number may have that is read from a text or written to one. -/
def digitLimit : Nat := 4300

/-- Blanks that may stand around a number: all but the four control separators. -/
def isNumberBlank (c : Char) : Bool :=
  isBlank c && !('\x1c' ≤ c && c ≤ '\x1f')

/-- The characters between the leading and the trailing blanks of a number. -/
def trimNumber (cs : List Char) : List Char :=
  ((cs.dropWhile isNumberBlank).reverse.dropWhile isNumberBlank).reverse

inductive NumeralFault
  /-- The text is not a number. -/
  | malformed (text : String)
  /-- The number that is read has too many digits. -/
  | tooLong (digits : Nat)
  /-- The number that is written has too many digits. -/
  | unwritable
  deriving DecidableEq, Repr

/-- The refusal of a number with too many digits, whose count may be known. -/
def tooLongText (digits : Option Nat) : String :=
  s!"Exceeds the limit ({digitLimit} digits) for integer string conversion" ++
    (match digits with
      | some count => s!": value has {count} digits"
      | none => "") ++
    "; use sys.set_int_max_str_digits() to increase the limit"

def NumeralFault.message : NumeralFault → String
  | malformed text =>
    "invalid literal for int() with base 10: " ++
      String.ofList ((quoted text).toList.take 200)
  | tooLong digits => tooLongText (some digits)
  | unwritable => tooLongText none

/-- Whether underscores stand only between digits, one at a time. -/
def underscoresSeparate : (afterDigit : Bool) → List Char → Bool
  | afterDigit, [] => afterDigit
  | afterDigit, c :: rest =>
    if c == '_' then afterDigit && underscoresSeparate false rest else underscoresSeparate true rest

/-- The number that a list of digit values writes. -/
def ofDigits (values : List Nat) : Nat :=
  values.foldl (fun total value => total * 10 + value) 0

/-- The sign in front of a number and what follows it. -/
def takeSign : List Char → Bool × List Char
  | '-' :: rest => (true, rest)
  | '+' :: rest => (false, rest)
  | cs => (false, cs)

/-- Whether a number has few enough digits to be written. -/
def isWritable (n : Int) : Bool :=
  n.natAbs < Nat.pow 10 digitLimit

/-- The whole number that a text writes. -/
def readInt (text : String) : Except NumeralFault Int :=
  let (negative, body) := takeSign (trimNumber text.toList)
  let run := body.takeWhile fun c => isDecimal c || c == '_'
  let values := run.filterMap decimalValue?
  if !underscoresSeparate false run then .error (.malformed text)
  else if digitLimit < values.length then .error (.tooLong values.length)
  else if run.length < body.length then .error (.malformed text)
  else
    let magnitude : Int := ofDigits values
    .ok (if negative then -magnitude else magnitude)

end Marginalia.Text
