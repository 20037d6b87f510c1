import ArithService.Time.Calendar
import ArithService.Time.Span

/-!
# Instants

Points of time in UTC, to the nanosecond, with room for leap seconds.

## Main Definitions

* `Instant` — seconds since 1 January 1970 and nanoseconds
* `Instant.earliest`, `Instant.latest` — the ends of the supported range
* `Instant.add?` — moving by a span of time, within the range
* `Instant.ofNanoseconds`, `Instant.nanoseconds` — conversion from and to one count

## Design Notes

A leap second is written as the last second of a minute with between one and two thousand
million nanoseconds. Instants are ordered by their seconds and then by their nanoseconds.
-/

namespace ArithService

/-- A point of time in UTC. -/
structure Instant where
  /-- Whole seconds since 1 January 1970. -/
  seconds : Int
  /-- Nanoseconds within the second; from `10 ^ 9` on, within a leap second after it. -/
  nanos : Nat
deriving DecidableEq, Repr

namespace Instant

/-- The first supported instant. -/
def earliest : Instant := ⟨(⟨-262143, 1, 1⟩ : CivilDate).dayNumber * 86400, 0⟩

/-- The last supported instant that is not in a leap second. -/
def latest : Instant :=
  ⟨(⟨262142, 12, 31⟩ : CivilDate).dayNumber * 86400 + 86399, 999999999⟩

/-- Whether an instant is not after another. -/
def atMost (a b : Instant) : Bool :=
  a.seconds < b.seconds || (a.seconds = b.seconds && a.nanos ≤ b.nanos)

/-- Whether the instant is inside the supported range of dates. -/
def inRange (t : Instant) : Bool :=
  earliest.seconds ≤ t.seconds && t.seconds ≤ latest.seconds

/-- The instant a number of nanoseconds after 1 January 1970. -/
def ofNanoseconds (n : Int) : Instant := ⟨n / 1000000000, (n % 1000000000).toNat⟩

/-- Nanoseconds since 1 January 1970. -/
def nanoseconds (t : Instant) : Int := t.seconds * 1000000000 + t.nanos

/-- Whether the instant lies in a leap second. -/
def isLeap (t : Instant) : Bool := 1000000000 ≤ t.nanos

/-- The instant with its leap second, if any, counted as an ordinary one, seen from a movement
that leaves it: forwards the leap second is over, backwards it has not begun. -/
def leaveLeap (t : Instant) (forwards : Bool) : Instant :=
  ⟨if forwards then t.seconds else t.seconds + 1, t.nanos - 1000000000⟩

/-- Move by a span of time without looking at the range. A movement of less than a second that
does not pass the end of a leap second only changes its nanoseconds. -/
def move (t : Instant) (d : Span) : Instant :=
  if t.isLeap then
    if 0 < d.seconds ∨ (0 < d.nanos ∧ 2000000000 ≤ t.nanos + d.nanos) then
      ofNanoseconds ((t.leaveLeap true).nanoseconds + d.nanoseconds)
    else if d.seconds < 0 then
      ofNanoseconds ((t.leaveLeap false).nanoseconds + d.nanoseconds)
    else ⟨t.seconds, (t.nanos + d.nanos).toNat⟩
  else ofNanoseconds (t.nanoseconds + d.nanoseconds)

/-- Move by a span of time, if the result is in the supported range. -/
def add? (t : Instant) (d : Span) : Option Instant :=
  let moved := t.move d
  if moved.inRange then some moved else none

end Instant

end ArithService
