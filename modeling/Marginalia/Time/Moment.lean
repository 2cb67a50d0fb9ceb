import Marginalia.Time.Calendar

/-!
# Moments

A date with a time of day to the microsecond, and an offset from UTC if it has one. Offsets are
counted in microseconds and are shorter than a day.
-/

namespace Marginalia.Time

structure Clock where
  hour : Nat
  minute : Nat
  second : Nat
  microsecond : Nat
  deriving DecidableEq, Repr

structure Moment where
  date : Date
  clock : Clock
  offset : Option Int
  deriving DecidableEq, Repr

def microsPerSecond : Nat := 1000000

def microsPerDay : Nat := 86400 * microsPerSecond

/-- A number with zeros in front up to a width. -/
def padded (width n : Nat) : String :=
  let digits := toString n
  String.ofList (List.replicate (width - digits.length) '0') ++ digits

/-- A length of time as days, seconds and microseconds, parts that are zero left out. Only the
days carry the sign. -/
def durationText (micros : Int) : String :=
  let days := micros.fdiv microsPerDay
  let rest := (micros.fmod microsPerDay).toNat
  let parts := [("days", days), ("seconds", ((rest / microsPerSecond : Nat) : Int)),
    ("microseconds", ((rest % microsPerSecond : Nat) : Int))]
  let shown := (parts.filter fun (_, n) => n != 0).map fun (name, n) => name ++ "=" ++ toString n
  "datetime.timedelta(" ++ (if shown.isEmpty then "0" else String.intercalate ", " shown) ++ ")"

namespace Clock

def valid (clock : Clock) : Bool :=
  clock.hour < 24 && clock.minute < 60 && clock.second < 60 &&
    clock.microsecond < microsPerSecond

/-- The microseconds since midnight. -/
def micros (clock : Clock) : Nat :=
  ((clock.hour * 60 + clock.minute) * 60 + clock.second) * microsPerSecond + clock.microsecond

def ofMicros (n : Nat) : Clock :=
  let seconds := n / microsPerSecond
  ⟨seconds / 3600, seconds / 60 % 60, seconds % 60, n % microsPerSecond⟩

/-- Hours, minutes and seconds. -/
def secondsText (clock : Clock) : String :=
  padded 2 clock.hour ++ ":" ++ padded 2 clock.minute ++ ":" ++ padded 2 clock.second

/-- The time to the millisecond; finer parts are cut off. -/
def millisText (clock : Clock) : String :=
  clock.secondsText ++ "." ++ padded 3 (clock.microsecond / 1000)

/-- The time to the second, or to the microsecond where it has any. -/
def text (clock : Clock) : String :=
  if clock.microsecond == 0 then clock.secondsText
  else clock.secondsText ++ "." ++ padded 6 clock.microsecond

end Clock

def Date.text (date : Date) : String :=
  padded 4 date.year ++ "-" ++ padded 2 date.month ++ "-" ++ padded 2 date.day

/-- An offset with its sign, hours and minutes, and finer parts where it has any. -/
def offsetText (offset : Int) : String :=
  let clock := Clock.ofMicros offset.natAbs
  let sign := if offset < 0 then "-" else "+"
  if clock.microsecond != 0 then sign ++ clock.text
  else if clock.second != 0 then sign ++ clock.secondsText
  else sign ++ padded 2 clock.hour ++ ":" ++ padded 2 clock.minute

namespace Moment

def offsetSuffix (moment : Moment) : String :=
  match moment.offset with
  | none => ""
  | some offset => offsetText offset

/-- The text of a moment to the millisecond, with its offset. -/
def millisText (moment : Moment) : String :=
  moment.date.text ++ "T" ++ moment.clock.millisText ++ moment.offsetSuffix

/-- The text of a moment with a blank between date and time. -/
def text (moment : Moment) : String :=
  moment.date.text ++ " " ++ moment.clock.text ++ moment.offsetSuffix

/-- Microseconds from the start of year 1 in UTC. A moment without offset counts as UTC. -/
def instant (moment : Moment) : Int :=
  (moment.date.number * microsPerDay + moment.clock.micros : Nat) - moment.offset.getD 0

/-- The moment in UTC at an instant, if that lies in years 1 to 9999. -/
def ofInstant? (instant : Int) : Option Moment :=
  if 0 ≤ instant && instant < (dayCount * microsPerDay : Nat) then
    let n := instant.toNat
    some ⟨Date.ofNumber (n / microsPerDay), Clock.ofMicros (n % microsPerDay), some 0⟩
  else none

/-- The same moment in UTC. -/
def utc? (moment : Moment) : Option Moment :=
  ofInstant? moment.instant

/-- The moment in UTC some days earlier. -/
def daysBefore? (moment : Moment) (days : Nat) : Option Moment := do
  let utc ← moment.utc?
  ofInstant? (utc.instant - (days * microsPerDay : Nat))

/-- The time stamp of the journal: UTC, cut to the millisecond. -/
def stamp? (moment : Moment) : Option String :=
  moment.utc?.map millisText

/-- The time stamp of snapshots: UTC, cut to the second, the year without leading zeros. -/
def snapshotStamp? (moment : Moment) : Option String :=
  moment.utc?.map fun utc =>
    toString utc.date.year ++ "-" ++ padded 2 utc.date.month ++ "-" ++ padded 2 utc.date.day ++
      " " ++ utc.clock.secondsText

end Moment

end Marginalia.Time
