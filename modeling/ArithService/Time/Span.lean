import ArithService.Text.Digits

/-!
# Spans of time

Signed lengths of time, to the nanosecond.

## Main Definitions

* `Span` — a length of time
* `Span.ofSeconds` — a whole number of seconds
* `Span.text` — the ISO 8601 form used in messages
-/

namespace ArithService

/-- A signed length of time. -/
structure Span where
  nanoseconds : Int
deriving DecidableEq, Repr

namespace Span

/-- A whole number of seconds. -/
def ofSeconds (n : Int) : Span := ⟨n * 1000000000⟩

/-- The longest span, in either direction: as many milliseconds as fit 63 bits. -/
def longest : Span := ⟨0x7fffffffffffffff * 1000000⟩

/-- Whole seconds, rounded towards zero. -/
def seconds (d : Span) : Int := d.nanoseconds.tdiv 1000000000

/-- What is left after `seconds`, with the sign of the span. -/
def nanos (d : Span) : Int := d.nanoseconds.tmod 1000000000

/-- The digits of a fraction without trailing zeros. -/
def fractionDigits (width n : Nat) : String :=
  String.ofList ((padded width n).toList.reverse.dropWhile (· = '0')).reverse

/-- The ISO 8601 form, in seconds only. -/
def text (d : Span) : String :=
  let sign := if d.nanoseconds < 0 then "-" else ""
  let n := d.nanoseconds.natAbs
  if n = 0 then "P0D"
  else
    let fraction := if n % 1000000000 = 0 then "" else "." ++ fractionDigits 9 (n % 1000000000)
    sign ++ "PT" ++ decimal (n / 1000000000) ++ fraction ++ "S"

end Span

end ArithService
