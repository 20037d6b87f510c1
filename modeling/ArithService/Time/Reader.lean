import ArithService.Text.Whitespace
import ArithService.Time.Timestamp

/-!
# Reading timestamps

Stored timestamps are read leniently: RFC 3339 first, then a plain date and time, and text
that is neither counts as the earliest instant.

## Main Definitions

* `Timestamp.readRfc3339?` — the strict form, with a zone
* `Timestamp.readPlain?` — the form without a zone, as databases print it
* `Instant.ofText` — one after the other

## Design Notes

Readers of parts return what they found together with the rest of the text.
-/

namespace ArithService.Timestamp

/-- Read between `least` and `most` digits. -/
def readNumber (least most : Nat) (cs : List Char) : Option (Nat × List Char) :=
  let digits := (cs.take most).takeWhile isDigit
  if digits.length < least then none
  else some (digitsValue digits, cs.drop digits.length)

/-- Read one given character. -/
def readChar (c : Char) : List Char → Option (List Char)
  | d :: rest => if d = c then some rest else none
  | [] => none

/-- The instant of a date and a time of day, if they exist; second 60 is a leap second. -/
def instantOf? (date : CivilDate) (hour minute second nanos : Nat) : Option Instant :=
  if date.isValid ∧ -262143 ≤ date.year ∧ date.year ≤ 262142 ∧
      hour ≤ 23 ∧ minute ≤ 59 ∧ second ≤ 60 then
    let base := date.dayNumber * 86400 + (hour * 3600 + minute * 60 : Nat)
    if second = 60 then some ⟨base + 59, nanos + 1000000000⟩
    else some ⟨base + second, nanos⟩
  else none

/-- Read a fraction of a second: nine digits count, more are skipped. -/
def readFraction (cs : List Char) : Option (Nat × List Char) :=
  let digits := (cs.take 9).takeWhile isDigit
  if digits = [] then none
  else some (digitsValue digits * Nat.pow 10 (9 - digits.length),
    (cs.drop digits.length).dropWhile isDigit)

/-- Read a zone: `Z`, or a signed offset of hours and minutes, in seconds. -/
def readZone (cs : List Char) : Option (Int × List Char) :=
  match cs with
  | [] => none
  | c :: rest =>
    if c = 'Z' ∨ c = 'z' then some (0, rest)
    else if c = '+' ∨ c = '-' ∨ c = '\u2212' then do
      let (hours, rest) ← readNumber 2 2 rest
      let rest ← readChar ':' rest
      let (minutes, rest) ← readNumber 2 2 rest
      if hours ≤ 23 ∧ minutes ≤ 59 then
        let offset : Int := (hours * 3600 + minutes * 60 : Nat)
        some (if c = '+' then offset else -offset, rest)
      else none
    else none

/-- Read a number and two more with the same character in between, as in dates and times. -/
def readTriple {α : Type} (first : List Char → Option (α × List Char))
    (next : List Char → Option (Nat × List Char)) (c : Char) (cs : List Char) :
    Option ((α × Nat × Nat) × List Char) := do
  let (a, cs) ← first cs
  let cs ← readChar c cs
  let (m, cs) ← next cs
  let cs ← readChar c cs
  let (n, cs) ← next cs
  return ((a, m, n), cs)

/-- Read what stands between date and time of day. -/
def readSeparator : List Char → Option (List Char)
  | c :: rest => if c = 'T' ∨ c = 't' ∨ c = ' ' then some rest else none
  | [] => none

/-- Read the fraction of a second, if there is a point in front of it. -/
def readOptionalFraction : List Char → Option (Nat × List Char)
  | '.' :: rest => readFraction rest
  | cs => some (0, cs)

/-- Read an RFC 3339 timestamp with a year of four digits. -/
def readRfc3339? (text : String) : Option Instant := do
  let ((year, month, day), cs) ← readTriple (readNumber 4 4) (readNumber 2 2) '-' text.toList
  let cs ← readSeparator cs
  let ((hour, minute, second), cs) ← readTriple (readNumber 2 2) (readNumber 2 2) ':' cs
  let (nanos, cs) ← readOptionalFraction cs
  let (offset, cs) ← readZone cs
  let local_ ← instantOf? ⟨year, month, day⟩ hour minute second nanos
  if cs = [] then some { local_ with seconds := local_.seconds - offset } else none

/-- Read a year: up to four digits, or any number of digits after a sign. -/
def readYear (cs : List Char) : Option (Int × List Char) :=
  match trimLeft cs with
  | '-' :: rest => (readNumber 1 rest.length rest).map fun (n, rest) => (-(n : Int), rest)
  | '+' :: rest => (readNumber 1 rest.length rest).map fun (n, rest) => ((n : Int), rest)
  | cs => (readNumber 1 4 cs).map fun (n, rest) => ((n : Int), rest)

/-- Read a field of one or two digits after optional white space. -/
def readField (cs : List Char) : Option (Nat × List Char) := readNumber 1 2 (trimLeft cs)

/-- Read a date and a time of day without fraction and zone. -/
def readPlain? (text : String) : Option Instant := do
  let ((year, month, day), cs) ← readTriple readYear readField '-' text.toList
  let ((hour, minute, second), cs) ← readTriple readField readField ':' cs
  if cs = [] then instantOf? ⟨year, month, day⟩ hour minute second 0 else none

end ArithService.Timestamp

namespace ArithService

/-- The instant a stored text stands for. -/
def Instant.ofText (text : String) : Instant :=
  match Timestamp.readRfc3339? text with
  | some t => t
  | none => (Timestamp.readPlain? text).getD earliest

end ArithService
