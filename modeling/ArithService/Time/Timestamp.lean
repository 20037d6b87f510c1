import ArithService.Time.Instant

/-!
# Timestamp text

The RFC 3339 text of instants, as stored and as sent.

## Main Definitions

* `Instant.text` — the stored form, always with nine fraction digits
* `Instant.shortText` — the form in JSON documents, with as few fraction digits as needed

## Design Notes

Fixed width makes the order of stored texts the order of the instants, for years of four
digits. Other years carry a sign. A leap second is written as second 60.
-/

namespace ArithService.Instant

/-- The date of an instant. -/
def date (t : Instant) : CivilDate := CivilDate.ofDayNumber (t.seconds / 86400)

/-- The second of the day of an instant, leap seconds left out. -/
def secondOfDay (t : Instant) : Nat := (t.seconds % 86400).toNat

/-- A year: four digits, with a sign where more are needed or the year is negative. -/
def yearText (year : Int) : String :=
  if 0 ≤ year ∧ year ≤ 9999 then padded 4 year.toNat
  else (if year < 0 then "-" else "+") ++ padded 4 year.natAbs

/-- Date and time of day up to the second. -/
def secondText (t : Instant) : String :=
  let d := t.date
  let s := t.secondOfDay
  yearText d.year ++ "-" ++ padded 2 d.month ++ "-" ++ padded 2 d.day ++ "T" ++
    padded 2 (s / 3600) ++ ":" ++ padded 2 (s / 60 % 60) ++ ":" ++
    padded 2 (s % 60 + t.nanos / 1000000000)

/-- The stored form of an instant. -/
def text (t : Instant) : String :=
  t.secondText ++ "." ++ padded 9 (t.nanos % 1000000000) ++ "Z"

/-- The fraction of a second with the fewest of 0, 3, 6 or 9 digits that loses nothing. -/
def fractionText (nanos : Nat) : String :=
  if nanos = 0 then ""
  else if nanos % 1000000 = 0 then "." ++ padded 3 (nanos / 1000000)
  else if nanos % 1000 = 0 then "." ++ padded 6 (nanos / 1000)
  else "." ++ padded 9 nanos

/-- The form of an instant in JSON documents. -/
def shortText (t : Instant) : String :=
  t.secondText ++ fractionText (t.nanos % 1000000000) ++ "Z"

end ArithService.Instant
