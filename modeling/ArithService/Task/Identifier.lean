import ArithService.Text.Digits
import ArithService.Time.Instant

/-!
# Task identifiers

Identifiers carry a clock value, so that they sort in the order of creation.

## Main Definitions

* `taskId`, `taskNumber` — the text for a number and back
* `clockNumber` — the clock as a number
* `numberDue` — the number that follows the last one at a clock reading
* `nextNumber` — the same, where numbers have 64 bits

## Design Notes

A number is the clock reading in nanoseconds, or one more than the last number where the clock
has not moved on. The sum is taken in 64 bits with overflow checks, at every call and whichever of
the two is greater: behind the last number of 64 bits the call is broken off, and the last number
stays what it was.
-/

namespace ArithService

/-- The beginning of every task identifier. -/
def taskIdStem : String := "task_"

/-- The identifier with a number. -/
def taskId (number : Int) : String := taskIdStem ++ toString number

/-- The number in a task identifier. -/
def taskNumber (id : String) : Option Int :=
  let cs := id.toList
  let stem := taskIdStem.toList
  if cs.take stem.length = stem then
    (readInt64 (String.ofList (cs.drop stem.length))).toOption
  else none

/-- The number last given out before any task, seen from the newest stored identifier. -/
def lastNumber (newest : Option String) : Int := (newest.bind taskNumber).getD 0

/-- The clock in nanoseconds; past the range of 64 bits, the number before the largest. -/
def clockNumber (now : Instant) : Int :=
  let n := now.nanoseconds
  if -0x8000000000000000 ≤ n ∧ n ≤ 0x7fffffffffffffff then n else 0x7ffffffffffffffe

/-- The number that should follow the last one: the clock, or one more than the last. -/
def numberDue (last : Int) (now : Instant) : Int := max (clockNumber now) (last + 1)

/-- The next number. There is none where one more than the last number needs more than 64 bits. -/
def nextNumber (last : Int) (now : Instant) : Option Int :=
  if last + 1 ≤ 0x7fffffffffffffff then some (numberDue last now) else none

end ArithService
