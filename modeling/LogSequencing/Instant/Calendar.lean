/-!
# The Gregorian calendar

Days are counted from 1 January 1970. The count is by years that begin in March, so that the leap
day is the last of its year, and by eras of 400 years, which all have the same length.
-/

set_option autoImplicit false
set_option relaxedAutoImplicit false

namespace LogSequencing

structure Date where
  year : Int
  /-- From 1 to 12. -/
  month : Nat
  /-- From 1. -/
  day : Nat
deriving DecidableEq, Repr

namespace Date

def isLeapYear (year : Int) : Bool := year % 4 = 0 && (year % 100 ≠ 0 || year % 400 = 0)

def daysInMonth (year : Int) (month : Nat) : Nat :=
  if month = 2 then
    if isLeapYear year then 29 else 28
  else if month = 4 ∨ month = 6 ∨ month = 9 ∨ month = 11 then
    30
  else
    31

def isValid (d : Date) : Bool :=
  decide (1 ≤ d.month) && decide (d.month ≤ 12) && decide (1 ≤ d.day) &&
    decide (d.day ≤ daysInMonth d.year d.month)

/-- The days of one era of 400 years. -/
def eraDays : Int := 146097

/-- The number of days from 1 March of the year 0 to 1 January 1970. -/
def epochDay : Int := 719468

/-- Days of the months before `month` in a year that begins in March; March is month 0. -/
def daysBeforeMonth (month : Nat) : Nat := (153 * month + 2) / 5

/-- Days from 1 January 1970 to this date. -/
def toDays (d : Date) : Int :=
  let year := if d.month ≤ 2 then d.year - 1 else d.year
  let yearOfEra := year % 400
  let dayOfYear := daysBeforeMonth ((d.month + 9) % 12) + d.day - 1
  let dayOfEra := yearOfEra * 365 + yearOfEra / 4 - yearOfEra / 100 + dayOfYear
  year / 400 * eraDays + dayOfEra - epochDay

/-- The date so many days after 1 January 1970. -/
def ofDays (days : Int) : Date :=
  let days := days + epochDay
  let dayOfEra := (days % eraDays).toNat
  let yearOfEra := (dayOfEra - dayOfEra / 1460 + dayOfEra / 36524 - dayOfEra / 146096) / 365
  let dayOfYear := dayOfEra - (365 * yearOfEra + yearOfEra / 4 - yearOfEra / 100)
  let month := (5 * dayOfYear + 2) / 153
  let year := days / eraDays * 400 + yearOfEra
  { year := if 10 ≤ month then year + 1 else year
    month := (month + 2) % 12 + 1
    day := dayOfYear - daysBeforeMonth month + 1 }

end Date

end LogSequencing
