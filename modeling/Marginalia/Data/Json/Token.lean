import Marginalia.Data.Value
import Marginalia.Decimal.Reading

/-!
# JSON tokens

Cutting a text into punctuation and values without parts. Numbers and names are runs of
characters up to the next blank, quote or punctuation; what is left of a run behind a number is no
token. Whole numbers are kept apart from others; there are names for the infinities and for no
number.
-/

namespace Marginalia.Json

open Text (isAsciiDigit ofDigits)

inductive Token
  | openList
  | closeList
  | openObject
  | closeObject
  | comma
  | colon
  | value (data : Data)
  /-- A whole number beyond the limit of digits. -/
  | oversized (digits : Nat)
  /-- What is no token. -/
  | broken
  deriving BEq, Repr

def isSpace (c : Char) : Bool :=
  c == ' ' || c == '\t' || c == '\n' || c == '\r'

def punctuation? (c : Char) : Option Token :=
  if c == '[' then some .openList
  else if c == ']' then some .closeList
  else if c == '\x7b' then some .openObject
  else if c == '\x7d' then some .closeObject
  else if c == ',' then some .comma
  else if c == ':' then some .colon
  else none

def hexValue? (c : Char) : Option Nat :=
  if isAsciiDigit c then some (c.toNat - 0x30)
  else if 'a' ≤ c && c ≤ 'f' then some (c.toNat - 0x57)
  else if 'A' ≤ c && c ≤ 'F' then some (c.toNat - 0x37)
  else none

/-- The code of the character that a letter stands for behind a backslash. -/
def escapeCode? (c : Char) : Option Nat :=
  if c == '"' || c == '\\' || c == '/' then some c.toNat
  else if c == 'b' then some 0x08
  else if c == 'f' then some 0x0C
  else if c == 'n' then some 0x0A
  else if c == 'r' then some 0x0D
  else if c == 't' then some 0x09
  else none

/-- Whether a code is one half of a pair that stands for a character. -/
def isSurrogate (code : Nat) : Bool := 0xD800 ≤ code && code ≤ 0xDFFF

/-- The characters of a list of codes, two surrogates that form a pair taken together. A surrogate
alone is no character, and no text has it. -/
def joinPairs? : List Nat → Option (List Char)
  | [] => some []
  | [code] => if isSurrogate code then none else some [Char.ofNat code]
  | high :: low :: rest =>
    if 0xD800 ≤ high && high ≤ 0xDBFF && 0xDC00 ≤ low && low ≤ 0xDFFF then
      let c := Char.ofNat (0x10000 + (high - 0xD800) * 0x400 + (low - 0xDC00))
      (joinPairs? rest).map (c :: ·)
    else if isSurrogate high then none
    else (joinPairs? (low :: rest)).map (Char.ofNat high :: ·)

/-- The values of the digits in front of a text, and the rest. -/
def takeDigits (cs : List Char) : List Nat × List Char :=
  ((cs.takeWhile isAsciiDigit).map (·.toNat - 0x30), cs.dropWhile isAsciiDigit)

/-- The whole part of a number: a zero alone, or digits. -/
def whole? : List Char → Option (List Nat × List Char)
  | '0' :: rest => some ([0], rest)
  | cs =>
    match takeDigits cs with
    | ([], _) => none
    | taken => some taken

/-- The fraction behind the whole part of a number: a point and digits, if they are there. -/
def fraction (cs : List Char) : List Nat × List Char :=
  match cs with
  | '.' :: rest =>
    match takeDigits rest with
    | ([], _) => ([], cs)
    | taken => taken
  | _ => ([], cs)

/-- The exponent behind the digits of a number, if it has one. -/
def exponent (cs : List Char) : Option Int × List Char :=
  match cs with
  | [] => (none, [])
  | c :: rest =>
    if c == 'e' || c == 'E' then
      let (negative, body) := Text.takeSign rest
      match takeDigits body with
      | ([], _) => (none, cs)
      | (digits, after) =>
        let n : Int := ofDigits digits
        (some (if negative then -n else n), after)
    else (none, cs)

/-- The number in front of a text without sign, and what is left behind it. -/
def number? (negative : Bool) (cs : List Char) : Option (Token × List Char) := do
  let (whole, rest) ← whole? cs
  let (fraction, rest) := fraction rest
  let (power, rest) := exponent rest
  if fraction.isEmpty && power.isNone then
    if Text.digitLimit < whole.length then some (.oversized whole.length, rest)
    else
      let n : Int := ofDigits whole
      some (.value (.int (if negative then -n else n)), rest)
  else
    some (.value (.float (.ofDecimal negative (ofDigits (whole ++ fraction))
      (power.getD 0 - fraction.length))), rest)

/-- The names that stand for values. -/
def names : List (String × Data) :=
  [("null", .null), ("true", .bool true), ("false", .bool false), ("NaN", .float .nan),
    ("Infinity", .float (.infinite false)), ("-Infinity", .float (.infinite true))]

/-- The number in front of a text, and what is left behind it. -/
def signedNumber? : List Char → Option (Token × List Char)
  | '-' :: rest => number? true rest
  | cs => number? false cs

/-- The tokens of a run of characters. -/
def word (run : List Char) : List Token :=
  match names.lookup (String.ofList run), signedNumber? run with
  | some data, _ => [.value data]
  | none, some (token, []) => [token]
  | none, some (token, _) => [token, .broken]
  | none, none => [.broken]

/-- Where the reader stands. What has been read of a run or text is kept in reverse order. -/
inductive Mode
  /-- In a run of characters, or between tokens when the run is empty. -/
  | run (done : List Char)
  /-- Between quotes. -/
  | quoted (done : List Nat)
  /-- Behind a backslash. -/
  | escape (done : List Nat)
  /-- In an escape, with a number of digits still to come. -/
  | code (done : List Nat) (left value : Nat)

/-- The tokens of a run that has been read. -/
def endRun (done : List Char) : List Token :=
  if done.isEmpty then [] else word done.reverse

/-- The tokens of a text from some mode on, up to the first that is none. -/
def tokensFrom : Mode → List Char → List Token
  | .run done, [] => endRun done
  | .run done, c :: rest =>
    if isSpace c then endRun done ++ tokensFrom (.run []) rest
    else if c == '"' then endRun done ++ tokensFrom (.quoted []) rest
    else
      match punctuation? c with
      | some token => endRun done ++ token :: tokensFrom (.run []) rest
      | none => tokensFrom (.run (c :: done)) rest
  | .quoted done, c :: rest =>
    if c == '"' then
      match joinPairs? done.reverse with
      | some cs => .value (.text (String.ofList cs)) :: tokensFrom (.run []) rest
      | none => [.broken]
    else if c == '\\' then tokensFrom (.escape done) rest
    else if c.toNat < 0x20 then [.broken]
    else tokensFrom (.quoted (c.toNat :: done)) rest
  | .escape done, c :: rest =>
    if c == 'u' then tokensFrom (.code done 4 0) rest
    else
      match escapeCode? c with
      | some code => tokensFrom (.quoted (code :: done)) rest
      | none => [.broken]
  | .code done left value, c :: rest =>
    match hexValue? c with
    | none => [.broken]
    | some digit =>
      if left ≤ 1 then tokensFrom (.quoted ((value * 16 + digit) :: done)) rest
      else tokensFrom (.code done (left - 1) (value * 16 + digit)) rest
  | _, [] => [.broken]

def tokens (cs : List Char) : List Token :=
  tokensFrom (.run []) cs

end Marginalia.Json
