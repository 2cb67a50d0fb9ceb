import Marginalia.Data.Toml.Text

/-!
# TOML numbers, dates and times

A date wins over a number, and of the readings of a number the longest one counts.
-/

namespace Marginalia.Toml

open Text (isAsciiDigit ofDigits)

/-- Why a text is no TOML document. -/
inductive Fault
  | form
  /-- A whole number is beyond the limit of digits. -/
  | tooLong (digits : Nat)
  /-- A value lies too deep in others. -/
  | tooDeep
  deriving DecidableEq, Repr

/-- A number of exactly two digits within bounds, in front of a text. -/
def pair? (low high : Nat) : List Char → Option (Nat × List Char)
  | a :: b :: rest =>
    if isAsciiDigit a && isAsciiDigit b then
      let n := (a.toNat - 0x30) * 10 + (b.toNat - 0x30)
      if low ≤ n && n ≤ high then some (n, rest) else none
    else none
  | _ => none

def char? (expected : Char) : List Char → Option (List Char)
  | c :: rest => if c == expected then some rest else none
  | [] => none

/-- The fraction of a second; six digits of it count. -/
def fraction (cs : List Char) : Nat × List Char :=
  match cs with
  | '.' :: rest =>
    let digits := rest.takeWhile isAsciiDigit
    if digits.isEmpty then (0, cs)
    else
      let taken := digits.take 6
      let value := ofDigits (taken.map (·.toNat - 0x30))
      (value * Nat.pow 10 (6 - taken.length), rest.drop digits.length)
  | _ => (0, cs)

def clock? (cs : List Char) : Option (Time.Clock × List Char) := do
  let (hour, cs) ← pair? 0 23 cs
  let (minute, cs) ← pair? 0 59 (← char? ':' cs)
  let (second, cs) ← pair? 0 59 (← char? ':' cs)
  let (micros, cs) := fraction cs
  some (⟨hour, minute, second, micros⟩, cs)

/-- An offset in microseconds, or none where the text has none. -/
def offset (cs : List Char) : Option Int × List Char :=
  match cs with
  | [] => (none, cs)
  | sign :: rest =>
    if sign == 'Z' || sign == 'z' then (some 0, rest)
    else if sign == '+' || sign == '-' then
      let read : Option (Int × List Char) := do
        let (hour, after) ← pair? 0 23 rest
        let (minute, after) ← pair? 0 59 (← char? ':' after)
        let micros : Int := (Time.Clock.micros ⟨hour, minute, 0, 0⟩ : Nat)
        some (if sign == '-' then -micros else micros, after)
      match read with
      | some (micros, after) => (some micros, after)
      | none => (none, cs)
    else (none, cs)

/-- A date, with the time behind it where there is one. A date that the calendar lacks is a
fault. -/
def date? (cs : List Char) : Option ((Except Fault Data) × List Char) := do
  let (century, rest) ← pair? 0 99 cs
  let (year, rest) ← pair? 0 99 rest
  let (month, rest) ← pair? 1 12 (← char? '-' rest)
  let (day, rest) ← pair? 1 31 (← char? '-' rest)
  let date : Time.Date := ⟨century * 100 + year, month, day⟩
  let timed : Option (Data × List Char) :=
    match rest with
    | [] => none
    | mark :: after =>
      if mark == 'T' || mark == 't' || mark == ' ' then
        (clock? after).map fun (clock, last) =>
          let (shift, last) := offset last
          (.moment ⟨date, clock, shift⟩, last)
      else none
  let (value, rest) := timed.getD (.date date, rest)
  some (if date.valid then .ok value else .error .form, rest)

/-- The digits that continue a number, single underscores between them, and the rest. -/
def moreDigits (accepts : Char → Bool) : List Char → List Char × List Char
  | [] => ([], [])
  | '_' :: c :: rest =>
    if accepts c then
      let (digits, last) := moreDigits accepts rest
      (c :: digits, last)
    else ([], '_' :: c :: rest)
  | c :: rest =>
    if accepts c then
      let (digits, last) := moreDigits accepts rest
      (c :: digits, last)
    else ([], c :: rest)

/-- Digits with single underscores between them, and the rest. -/
def digitGroup? (accepts : Char → Bool) : List Char → Option (List Char × List Char)
  | [] => none
  | c :: rest =>
    if accepts c then
      let (digits, last) := moreDigits accepts rest
      some (c :: digits, last)
    else none

def isRadixDigit (base : Nat) (c : Char) : Bool :=
  (Json.hexValue? c).any (· < base)

/-- The base that a letter behind a zero announces. -/
def base? (c : Char) : Option Nat :=
  if c == 'x' then some 16 else if c == 'b' then some 2 else if c == 'o' then some 8 else none

def radix? : List Char → Option (Data × List Char)
  | '0' :: mark :: rest => do
    let base ← base? mark
    let (digits, after) ← digitGroup? (isRadixDigit base) rest
    let values := digits.filterMap Json.hexValue?
    some (.int (values.foldl (fun n d => n * base + d) 0 : Nat), after)
  | _ => none

/-- The exponent behind the digits of a number. -/
def exponent? : List Char → Option (Int × List Char)
  | [] => none
  | c :: rest =>
    if c == 'e' || c == 'E' then do
      let (negative, body) := Text.takeSign rest
      let (digits, after) ← digitGroup? isAsciiDigit body
      let n : Int := ofDigits (digits.map (·.toNat - 0x30))
      some (if negative then -n else n, after)
    else none

def whole? (cs : List Char) : Option (List Char × List Char) :=
  match cs with
  | '0' :: rest => some (['0'], rest)
  | _ => digitGroup? isAsciiDigit cs

def decimal? (cs : List Char) : Option ((Except Fault Data) × List Char) := do
  let (negative, body) := Text.takeSign cs
  let (whole, rest) ← whole? body
  let part : Option (List Char × List Char) :=
    match rest with
    | '.' :: after => digitGroup? isAsciiDigit after
    | _ => none
  let (fraction, rest) := part.getD ([], rest)
  let power := exponent? rest
  let digits := (whole ++ fraction).map (·.toNat - 0x30)
  if fraction.isEmpty && power.isNone then
    if Text.digitLimit < digits.length then some (.error (.tooLong digits.length), rest)
    else
      let n : Int := ofDigits digits
      some (.ok (.int (if negative then -n else n)), rest)
  else
    let (exponent, rest) := power.getD (0, rest)
    some (.ok (.float (.ofDecimal negative (ofDigits digits) (exponent - fraction.length))), rest)

/-- The names that stand for values. -/
def names : List (String × Data) :=
  [("inf", .float (.infinite false)), ("nan", .float .nan), ("-inf", .float (.infinite true)),
    ("+inf", .float (.infinite false)), ("-nan", .float .nan), ("+nan", .float .nan)]

/-- A value that starts like a name. -/
def name? (table : List (String × Data)) (cs : List Char) : Option (Data × List Char) :=
  table.findSome? fun (name, value) =>
    if name.toList.isPrefixOf cs then some (value, cs.drop name.length) else none

/-- A truth value, date, time or number. -/
def scalar? (cs : List Char) : Option ((Except Fault Data) × List Char) :=
  let ok (read : Option (Data × List Char)) : Option ((Except Fault Data) × List Char) :=
    read.map fun (data, rest) => (.ok data, rest)
  ok (name? [("true", .bool true), ("false", .bool false)] cs) <|>
  date? cs <|>
  ok ((clock? cs).map fun (clock, rest) => (.time clock, rest)) <|>
  ok (radix? cs) <|>
  decimal? cs <|>
  ok (name? names cs)

end Marginalia.Toml
