/-!
# The calendar

Days of the proleptic Gregorian calendar, years 1 to 9999, counted from 0 for the first of
January of year 1. A cycle of 400 years has 146097 days, and its first day is a Monday.
-/

namespace Marginalia.Time

structure Date where
  year : Nat
  month : Nat
  day : Nat
  deriving DecidableEq, Repr

def isLeap (year : Nat) : Bool :=
  year % 4 == 0 && (year % 100 != 0 || year % 400 == 0)

def daysInMonth (year month : Nat) : Nat :=
  if month == 2 then (if isLeap year then 29 else 28)
  else if month == 4 || month == 6 || month == 9 || month == 11 then 30
  else 31

/-- The days of a year before the first of a month. -/
def daysBeforeMonth (year month : Nat) : Nat :=
  (List.range (month - 1)).foldl (fun days m => days + daysInMonth year (m + 1)) 0

/-- The days before the first of January of a year. -/
def daysBeforeYear (year : Nat) : Nat :=
  (year - 1) * 365 + (year - 1) / 4 - (year - 1) / 100 + (year - 1) / 400

def lastYear : Nat := 9999

/-- The number of days in years 1 to 9999. -/
def dayCount : Nat := daysBeforeYear (lastYear + 1)

namespace Date

def valid (date : Date) : Bool :=
  1 ≤ date.year && date.year ≤ lastYear && 1 ≤ date.month && date.month ≤ 12 &&
    1 ≤ date.day && date.day ≤ daysInMonth date.year date.month

/-- The number of a day. -/
def number (date : Date) : Nat :=
  daysBeforeYear date.year + daysBeforeMonth date.year date.month + (date.day - 1)

/-- The month and day at an offset into a year, with `months` months after the one that is tried. -/
def ofDayOfYear (year : Nat) : (months : Nat) → (offset : Nat) → Date
  | 0, offset => ⟨year, 12, offset + 1⟩
  | months + 1, offset =>
    let month := 12 - (months + 1)
    if offset < daysInMonth year month then ⟨year, month, offset + 1⟩
    else ofDayOfYear year months (offset - daysInMonth year month)

/-- The day with a number. The last day of a leap cycle belongs to the fourth year, which the
two bounds of 3 see to. -/
def ofNumber (n : Nat) : Date :=
  let inEra := n % 146097
  let century := min (inEra / 36524) 3
  let inCentury := inEra - century * 36524
  let inCycle := inCentury % 1461
  let yearOfCycle := min (inCycle / 365) 3
  let year := n / 146097 * 400 + century * 100 + inCentury / 1461 * 4 + yearOfCycle + 1
  ofDayOfYear year 11 (inCycle - yearOfCycle * 365)

end Date

/-- The day of the week of a numbered day, Monday being 0. -/
def weekday (n : Nat) : Nat := n % 7

/-- The number of the Monday that starts the first week of a year: the week that holds the
year's first Thursday. Before year 2 that Monday can lie before the first day, so the number
is an integer. -/
def firstMonday (year : Nat) : Int :=
  let first := daysBeforeYear year
  let monday : Int := (first : Int) - weekday first
  if 3 < weekday first then monday + 7 else monday

/-- Whether a year has 53 weeks: it starts on a Thursday, or on a Wednesday and is a leap year. -/
def hasLongWeeks (year : Nat) : Bool :=
  let start := weekday (daysBeforeYear year)
  start == 3 || (start == 2 && isLeap year)

end Marginalia.Time
