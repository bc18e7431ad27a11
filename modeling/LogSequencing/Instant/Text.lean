import LogSequencing.Instant
import LogSequencing.Instant.Calendar
import LogSequencing.Text.Blank
import LogSequencing.Text.Decimal

/-!
# Instants as text

Instants are written as RFC 3339 prescribes, in UTC: `2001-02-03T04:05:06Z`, with three, six or
nine digits of a fraction where it needs them, and a sign before a year outside 0 to 9999.

Reading is more liberal (`Instant.ofText?`). Blanks may stand before each part, numbers may lack
their leading zeros, a blank or a small letter may stand for `T` and `Z`, and the distance from UTC
is `Z`, `UTC` or a sign with hours and minutes. Digits past the ninth of a fraction are dropped. The
second 60 is a leap second.
-/

set_option autoImplicit false
set_option relaxedAutoImplicit false

namespace LogSequencing

/-- The time of day. -/
structure TimeOfDay where
  hour : Nat
  minute : Nat
  /-- Up to 60, which is a leap second. -/
  second : Nat
  nanosecond : Nat
deriving DecidableEq, Repr

namespace Instant

/-! ### Writing -/

def yearText (year : Int) : List Char :=
  if 0 ≤ year ∧ year ≤ 9999 then
    Decimal.padded 4 year.toNat
  else
    (if year < 0 then '-' else '+') :: Decimal.padded 4 year.natAbs

/-- As many digits of a fraction as it needs, in groups of three. -/
def fractionText (nanosecond : Nat) : List Char :=
  if nanosecond = 0 then []
  else if nanosecond % 1000000 = 0 then '.' :: Decimal.padded 3 (nanosecond / 1000000)
  else if nanosecond % 1000 = 0 then '.' :: Decimal.padded 6 (nanosecond / 1000)
  else '.' :: Decimal.padded 9 nanosecond

def timeOfDay (t : Instant) : TimeOfDay :=
  let seconds := (t.seconds % 86400).toNat
  let isLeap := 1000000000 ≤ t.nanoseconds
  { hour := seconds / 3600
    minute := seconds / 60 % 60
    second := if isLeap then seconds % 60 + 1 else seconds % 60
    nanosecond := if isLeap then t.nanoseconds - 1000000000 else t.nanoseconds }

def text (t : Instant) : String :=
  let date := Date.ofDays (t.seconds / 86400)
  let time := t.timeOfDay
  String.ofList
    (yearText date.year ++ '-' :: Decimal.padded 2 date.month ++ '-' :: Decimal.padded 2 date.day ++
      'T' :: Decimal.padded 2 time.hour ++ ':' :: Decimal.padded 2 time.minute ++
      ':' :: Decimal.padded 2 time.second ++ fractionText time.nanosecond ++ ['Z'])

/-! ### Reading -/

/-- A number of one digit or more, at most `limit` of them, and what follows it. -/
def numberAndRest? (limit : Nat) (text : List Char) : Option (Nat × List Char) :=
  match (text.takeWhile Char.isDigit).take limit with
  | [] => none
  | digits => some (Nat.ofDigitChars 10 digits 0, text.drop digits.length)

/-- A number with blanks before it. -/
def fieldAndRest? (limit : Nat) (text : List Char) : Option (Nat × List Char) :=
  numberAndRest? limit (dropBlanks text)

/-- A year has up to four digits, or a sign and any number of them. -/
def yearAndRest? (text : List Char) : Option (Int × List Char) :=
  match dropBlanks text with
  | '-' :: rest => (numberAndRest? rest.length rest).map fun (year, rest) ↦ (-year, rest)
  | '+' :: rest => (numberAndRest? rest.length rest).map fun (year, rest) ↦ (year, rest)
  | text => (numberAndRest? 4 text).map fun (year, rest) ↦ (year, rest)

/-- What follows a mark that may have blanks before it. -/
def dropMark? (mark : Char) (text : List Char) : Option (List Char) :=
  match dropBlanks text with
  | c :: rest => if c = mark then some rest else none
  | [] => none

def dateAndRest? (text : List Char) : Option (Date × List Char) := do
  let (year, rest) ← yearAndRest? text
  let (month, rest) ← fieldAndRest? 2 (← dropMark? '-' rest)
  let (day, rest) ← fieldAndRest? 2 (← dropMark? '-' rest)
  return (⟨year, month, day⟩, rest)

/-- The nanoseconds of a fraction, and what follows its digits. -/
def fractionAndRest? : List Char → Option (Nat × List Char)
  | '.' :: rest => do
    let digits := (rest.takeWhile Char.isDigit).take 9
    if digits.isEmpty then
      none
    else
      return (Nat.ofDigitChars 10 (digits.rightpad 9 '0') 0, rest.dropWhile Char.isDigit)
  | rest => some (0, rest)

def timeAndRest? (text : List Char) : Option (TimeOfDay × List Char) := do
  let (hour, rest) ← fieldAndRest? 2 text
  let (minute, rest) ← fieldAndRest? 2 (← dropMark? ':' rest)
  let (second, rest) ← fieldAndRest? 2 (← dropMark? ':' rest)
  let (nanosecond, rest) ← fractionAndRest? rest
  return (⟨hour, minute, second, nanosecond⟩, rest)

def twoDigitsAndRest? : List Char → Option (Nat × List Char)
  | a :: b :: rest =>
    if a.isDigit && b.isDigit then some (Nat.ofDigitChars 10 [a, b] 0, rest) else none
  | _ => none

/-- Minutes east of UTC as hours and minutes with colons or blanks between them. -/
def hoursMinutesAndRest? (text : List Char) : Option (Nat × List Char) := do
  let (hours, rest) ← twoDigitsAndRest? text
  let (minutes, rest) ← twoDigitsAndRest? (rest.dropWhile fun c ↦ c = ':' || isBlank c)
  if minutes < 60 then return (60 * hours + minutes, rest) else none

/-- Seconds east of UTC. -/
def distanceAndRest? (text : List Char) : Option (Int × List Char) :=
  match dropBlanks text with
  | [] => none
  | first :: rest =>
    if (first :: rest.take 2).map Char.toUpper = ['U', 'T', 'C'] then
      some (0, rest.drop 2)
    else if first = 'Z' || first = 'z' then
      some (0, rest)
    else if first = '+' then
      (hoursMinutesAndRest? rest).map fun (minutes, rest) ↦ (60 * minutes, rest)
    else if first = '-' || first = '\u2212' then
      (hoursMinutesAndRest? rest).map fun (minutes, rest) ↦ (-60 * minutes, rest)
    else
      none

/-- The instant of a date and a time at a place so many seconds east of UTC. -/
def ofLocal? (date : Date) (time : TimeOfDay) (distance : Int) : Option Instant :=
  let isLeap := time.second = 60
  let second := if isLeap then 59 else time.second
  let seconds := date.toDays * 86400 + (3600 * time.hour + 60 * time.minute + second : Nat)
  let localInstant : Instant :=
    ⟨seconds, if isLeap then time.nanosecond + 1000000000 else time.nanosecond⟩
  let instant : Instant := { localInstant with seconds := seconds - distance }
  if date.isValid ∧ time.hour < 24 ∧ time.minute < 60 ∧ time.second ≤ 60 ∧
      distance.natAbs < 86400 ∧ localInstant.isRepresentable ∧ instant.isRepresentable then
    some instant
  else
    none

def ofText? (text : String) : Option Instant := do
  let (date, rest) ← dateAndRest? text.toList
  let separator :: rest := rest | none
  guard (separator = 't' || separator = 'T' || separator = ' ')
  let (time, rest) ← timeAndRest? rest
  let (distance, rest) ← distanceAndRest? rest
  guard (dropBlanks rest).isEmpty
  ofLocal? date time distance

end Instant

end LogSequencing
