/-!
# Calendar

Conversion between day numbers and dates of the proleptic Gregorian calendar.

## Main Definitions

* `CivilDate` — year, month and day
* `CivilDate.dayNumber` — days since 1 January 1970
* `CivilDate.ofDayNumber` — the date of a day number
* `CivilDate.isValid` — whether month and day exist

## Design Notes

Years are counted from 1 March, so that a leap day is the last day of its year, and grouped in
eras of 400 years, which all have 146097 days. Within an era everything is a natural number
below that bound, and both conversions are a few divisions by constants.
-/

namespace ArithService

/-- A date. Month and day count from one. -/
structure CivilDate where
  year : Int
  month : Nat
  day : Nat
deriving DecidableEq, Repr

/-- The number of days in 400 years. -/
def daysPerEra : Int := 146097

/-- The day number of 1 March of year 0, negated. -/
def epochShift : Int := 719468

/-- Whether a year has a leap day. -/
def isLeapYear (year : Int) : Bool :=
  year % 4 = 0 && (year % 100 ≠ 0 || year % 400 = 0)

/-- The number of days in a month. -/
def daysInMonth (year : Int) (month : Nat) : Nat :=
  if month = 2 then if isLeapYear year then 29 else 28
  else if month = 4 ∨ month = 6 ∨ month = 9 ∨ month = 11 then 30
  else 31

namespace CivilDate

/-- Whether the month exists and has the day. -/
def isValid (d : CivilDate) : Bool :=
  1 ≤ d.month && d.month ≤ 12 && 1 ≤ d.day && d.day ≤ daysInMonth d.year d.month

/-- Days from 1 January 1970 to a date. -/
def dayNumber (d : CivilDate) : Int :=
  let year := if d.month ≤ 2 then d.year - 1 else d.year
  let era := year / 400
  let yearOfEra := year % 400
  let monthFromMarch : Int := ((d.month + 9) % 12 : Nat)
  let dayOfYear := (153 * monthFromMarch + 2) / 5 + d.day - 1
  let dayOfEra := yearOfEra * 365 + yearOfEra / 4 - yearOfEra / 100 + dayOfYear
  era * daysPerEra + dayOfEra - epochShift

/-- The date a number of days after 1 January 1970. -/
def ofDayNumber (days : Int) : CivilDate :=
  let shifted := days + epochShift
  let era := shifted / daysPerEra
  let dayOfEra := shifted % daysPerEra
  let yearOfEra :=
    (dayOfEra - dayOfEra / 1460 + dayOfEra / 36524 - dayOfEra / 146096) / 365
  let dayOfYear := dayOfEra - (365 * yearOfEra + yearOfEra / 4 - yearOfEra / 100)
  let monthFromMarch := (5 * dayOfYear + 2) / 153
  let day := dayOfYear - (153 * monthFromMarch + 2) / 5 + 1
  let month := if monthFromMarch < 10 then monthFromMarch + 3 else monthFromMarch - 9
  let year := yearOfEra + era * 400
  ⟨if month ≤ 2 then year + 1 else year, month.toNat, day.toNat⟩

end CivilDate

end ArithService
