import Marginalia.Time.Moment
import Marginalia.Text.Digit
import Marginalia.Text.Quoted
import Marginalia.Text.Utf8

/-!
# Reading ISO 8601

A date in calendar or week form, with or without hyphens, then possibly any one character, a
time with or without colons and an offset. The reader works on the bytes of the text; behind its
end it reads zero bytes, so a zero byte in the text can stand for the end.
-/

namespace Marginalia.Time.Iso

open Text (isAsciiDigit quoted)

/-- Why a text is no moment. -/
inductive Fault
  /-- The text has no form that is known. -/
  | form (text : String)
  /-- The offset, in microseconds, reaches a day or more. -/
  | offset (micros : Int)
  | year (n : Nat)
  | month
  | day
  | hour
  | minute
  | second
  deriving DecidableEq, Repr

def Fault.message : Fault → String
  | form text => "Invalid isoformat string: " ++ quoted text
  | offset micros =>
    "offset must be a timedelta strictly between -timedelta(hours=24) and timedelta(hours=24), " ++
      "not " ++ durationText micros ++ "."
  | year n => s!"year {n} is out of range"
  | month => "month must be in 1..12"
  | day => "day is out of range for month"
  | hour => "hour must be in 0..23"
  | minute => "minute must be in 0..59"
  | second => "second must be in 0..59"

/-- The first byte of a text, zero behind its end. -/
def peek : List Char → Char
  | [] => '\x00'
  | c :: _ => c

/-- A number of exactly `count` digits in front of a text. -/
def digits? : (count : Nat) → (value : Nat) → List Char → Option (Nat × List Char)
  | 0, value, text => some (value, text)
  | _ + 1, _, [] => none
  | count + 1, value, c :: rest =>
    if isAsciiDigit c then digits? count (value * 10 + (c.toNat - 0x30)) rest else none

/-- A number of two digits in front of a text. -/
def pair? (text : List Char) : Option (Nat × List Char) :=
  digits? 2 0 text

/-- How many digits a text starts with. -/
def digitRun (text : List Char) : Nat :=
  (text.takeWhile isAsciiDigit).length

/-- The length of the date in front of a text of at least seven bytes. Where a week form can be
read in two ways, a hyphen behind the week is taken for the character between date and time. -/
def dateLength? (text : List Char) : Option Nat :=
  let length := text.length
  let has (i : Nat) (c : Char) : Bool := text[i]? == some c
  if length == 7 then some 7
  else if has 4 '-' then
    if has 5 'W' then
      if has 8 '-' then
        if length == 9 then none
        else if (text[10]?).any isAsciiDigit then some 8
        else some 10
      else some 8
    else some 10
  else if has 4 'W' then
    let stop := 7 + digitRun (text.drop 7)
    if stop < 9 then some stop
    else if stop % 2 == 0 then some 7
    else some 8
  else some 8

/-- Calendar fields that are not checked yet. A week of year 0 lies before the calendar, and
reads as a date without month. -/
def ofWeek? (year week day : Nat) : Option Date :=
  if week == 0 || 53 < week || (week == 53 && (year == 0 || !hasLongWeeks year)) then none
  else if day == 0 || 7 < day then none
  else if year == 0 then some ⟨1, 0, 1⟩
  else
    let n := firstMonday year + ((week - 1) * 7 + day - 1 : Nat)
    some (Date.ofNumber n.toNat)

/-- The date in front of a text, when it has a given length. -/
def date? (length : Nat) (text : List Char) : Option Date := do
  let (year, rest) ← digits? 4 0 text
  let hyphens := peek rest == '-'
  let rest := if hyphens then rest.drop 1 else rest
  if peek rest == 'W' then
    let (week, rest) ← pair? (rest.drop 1)
    if text.length - rest.length < length then
      if hyphens && peek rest != '-' then none
      else
        let (day, _) ← digits? 1 0 (if hyphens then rest.drop 1 else rest)
        ofWeek? year week day
    else ofWeek? year week 1
  else
    let (month, rest) ← pair? rest
    if hyphens && peek rest != '-' then none
    else
      let (day, _) ← pair? (if hyphens then rest.drop 1 else rest)
      some ⟨year, month, day⟩

/-- A time, and whether the text ends behind it. -/
structure ClockReading where
  clock : Clock
  complete : Bool

/-- The fraction of a second, of which six digits count. `length` bytes of the text belong to
the time. -/
def fraction? (clock : Clock) (length : Nat) (text : List Char) : Option ClockReading := do
  let count := min length 6
  let (value, rest) ← digits? count 0 text
  let rest := rest.dropWhile isAsciiDigit
  some ⟨{ clock with microsecond := value * Nat.pow 10 (6 - count) }, peek rest == '\x00'⟩

/-- Hours, minutes and seconds, as many as there are, from a given part on; `length` bytes of the
text belong to the time. Colons stand either between all parts or between none. -/
def parts? (colons : Bool) (clock : Clock) : (part : Nat) → (length : Nat) → List Char →
    Option ClockReading
  | 0, length, text => fraction? clock length text
  | part + 1, length, text => do
    let (value, rest) ← pair? text
    let colons := if part == 2 then peek rest == ':' else colons
    let clock : Clock :=
      if part == 2 then { clock with hour := value }
      else if part == 1 then { clock with minute := value }
      else { clock with second := value }
    if length ≤ 3 then some ⟨clock, peek rest == '\x00'⟩
    else if colons && peek rest == ':' then parts? colons clock part (length - 3) (rest.drop 1)
    else if peek rest == '.' || peek rest == ',' then
      fraction? clock (length - 3) (rest.drop 1)
    else if !colons then parts? colons clock part (length - 2) rest
    else none

/-- The time at the start of a text, of which `length` bytes belong to it. -/
def clock? (length : Nat) (text : List Char) : Option ClockReading :=
  parts? true ⟨0, 0, 0, 0⟩ 3 length text

def isOffsetMark (c : Char) : Bool :=
  c == '+' || c == '-' || c == 'Z'

/-- The time and the offset up to the end of a text. An offset of less than a second counts as
none at all. -/
def clockAndOffset? (text : List Char) : Option (Clock × Option Int) := do
  let before := (text.takeWhile fun c => !isOffsetMark c).length
  let reading ← clock? before text
  match text.drop before with
  | [] => if reading.complete then some (reading.clock, none) else none
  | 'Z' :: rest => if peek rest == '\x00' then some (reading.clock, some 0) else none
  | sign :: rest =>
    let offset ← clock? rest.length rest
    if offset.complete then
      let length := offset.clock.micros
      let micros : Int := if length < microsPerSecond then 0 else length
      some (reading.clock, some (if sign == '-' then -micros else micros))
    else none

/-- The moment whose fields are in range. Of several faults the one of the largest field counts,
after that of the offset. -/
def checked (moment : Moment) : Except Fault Moment :=
  let { date, clock, offset } := moment
  let micros := offset.getD 0
  if microsPerDay ≤ micros.natAbs then .error (.offset micros)
  else if date.year < 1 || lastYear < date.year then .error (.year date.year)
  else if date.month < 1 || 12 < date.month then .error .month
  else if date.day < 1 || daysInMonth date.year date.month < date.day then .error .day
  else if 23 < clock.hour then .error .hour
  else if 59 < clock.minute then .error .minute
  else if 59 < clock.second then .error .second
  else .ok moment

/-- The fields that a text of bytes writes, not checked yet. -/
def fields? (text : List Char) : Option Moment := do
  if text.length < 7 then none
  else
    let length ← dateLength? text
    let date ← date? length text
    match text.drop length with
    | [] => some ⟨date, ⟨0, 0, 0, 0⟩, none⟩
    | separator :: rest =>
      let continued := rest.dropWhile fun c => 0x80 ≤ separator.toNat && 0x80 ≤ c.toNat &&
        c.toNat < 0xC0
      let (clock, offset) ← clockAndOffset? continued
      some ⟨date, clock, offset⟩

/-- The moment that a text writes. -/
def read (text : String) : Except Fault Moment :=
  match fields? ((Text.encode text).map fun b => Char.ofNat b.toNat) with
  | some moment => checked moment
  | none => .error (.form text)

end Marginalia.Time.Iso
