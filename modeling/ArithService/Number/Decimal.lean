import ArithService.Number.Binary64
import ArithService.Text.Digits

/-!
# Decimal text of doubles

Reading decimal literals with correct rounding, and printing the shortest decimal that reads
back as the same number.

## Main Definitions

* `Binary64.ofDecimal` — the double nearest to `digits * 10 ^ (-scale)`
* `Binary64.ofLiteral?` — the double a run of digits with at most one dot stands for
* `Binary64.shortest` — the shortest decimal that rounds to a given code
* `Binary64.jsonText` — the text of a finite number in a JSON document

## Design Notes

A decimal is a natural number and a power of ten, so reading is one call of `codeOfRatio`.
Printing tries one significant digit, then two, and so on, and keeps the candidate nearest to
the exact value among those that read back to the same code; seventeen digits always do.
-/

namespace ArithService

/-- A positive decimal number `digits * 10 ^ exponent`. -/
structure Decimal where
  digits : Nat
  exponent : Int
deriving DecidableEq, Repr

/-- A decimal without trailing zeros in its digits. -/
def Decimal.normalize : Nat → Decimal → Decimal
  | 0, d => d
  | fuel + 1, d =>
    if d.digits ≠ 0 ∧ d.digits % 10 = 0 then
      Decimal.normalize fuel ⟨d.digits / 10, d.exponent + 1⟩
    else d

/-- The text of a decimal number. Plain notation is used for values from `0.00001` up to but
not including `1e16`, scientific notation with a signed exponent elsewhere. -/
def Decimal.text (d : Decimal) : String :=
  let digits := decimal d.digits
  let count := digits.length
  let position := (count : Int) + d.exponent
  if 0 ≤ d.exponent ∧ position ≤ 16 then
    digits ++ String.ofList (List.replicate d.exponent.toNat '0') ++ ".0"
  else if 0 < position ∧ position ≤ 16 then
    let whole := position.toNat
    String.ofList (digits.toList.take whole) ++ "." ++ String.ofList (digits.toList.drop whole)
  else if -5 < position ∧ position ≤ 0 then
    "0." ++ String.ofList (List.replicate position.natAbs '0') ++ digits
  else
    let power := position - 1
    let sign := if power < 0 then "-" else "+"
    let mantissa :=
      if count = 1 then digits
      else String.ofList (digits.toList.take 1) ++ "." ++ String.ofList (digits.toList.drop 1)
    mantissa ++ "e" ++ sign ++ decimal power.natAbs

namespace Binary64

/-- The code nearest to a decimal number. -/
def codeOfDecimal (d : Decimal) : Nat :=
  if d.exponent < 0 then codeOfRatio (d.digits * unitsPerOne) (Nat.pow 10 d.exponent.natAbs)
  else codeOfRatio (d.digits * Nat.pow 10 d.exponent.toNat * unitsPerOne) 1

/-- The double nearest to a decimal number with the given sign. -/
def ofDecimal (negative : Bool) (d : Decimal) : Binary64 := ofCode negative (codeOfDecimal d)

/-- The number a run of digits with at most one dot and at least one digit stands for. -/
def ofLiteral? (text : List Char) : Option Binary64 :=
  let whole := text.takeWhile isDigit
  match text.dropWhile isDigit with
  | [] => if whole = [] then none else some (ofDecimal false ⟨digitsValue whole, 0⟩)
  | dot :: fraction =>
    if dot = '.' ∧ fraction.all isDigit ∧ (whole ≠ [] ∨ fraction ≠ []) then
      some (ofDecimal false ⟨digitsValue (whole ++ fraction), -(fraction.length : Int)⟩)
    else none

/-! ### Shortest decimal text -/

/-- The number of decimal digits of a natural number; zero has one. -/
def digitCount (n : Nat) : Nat := (decimal n).length

/-- The position `p` with `10 ^ (p - 1) ≤ value < 10 ^ p` for a positive number of units. -/
def decimalPosition (units : Nat) : Int :=
  if unitsPerOne ≤ units then digitCount (units / unitsPerOne)
  else
    -- the first power of ten that lifts the value to one or more
    let below := unitsPerOne / units
    let guess := digitCount below - 1
    if unitsPerOne ≤ units * Nat.pow 10 guess then 1 - (guess : Int) else -(guess : Int)

/-- The two decimals with `count` significant digits around a number of units, the nearer
first; on a tie the one with even digits comes first. -/
def neighbours (units count : Nat) : List Decimal :=
  let exponent := decimalPosition units - count
  let numerator := if exponent < 0 then units * Nat.pow 10 exponent.natAbs else units
  let denominator := if exponent < 0 then unitsPerOne else unitsPerOne * Nat.pow 10 exponent.toNat
  let low := numerator / denominator
  let twice := 2 * (numerator % denominator)
  if twice < denominator ∨ (twice = denominator ∧ low % 2 = 0) then
    [⟨low, exponent⟩, ⟨low + 1, exponent⟩]
  else [⟨low + 1, exponent⟩, ⟨low, exponent⟩]

/-- Search for the shortest decimal that rounds to `code`, trying `count` digits first. -/
def shortestFrom (code : Nat) : Nat → Nat → Decimal
  | 0, count => (neighbours (codeUnits code) count).headD ⟨0, 0⟩
  | more + 1, count =>
    match (neighbours (codeUnits code) count).find? (fun d => codeOfDecimal d == code) with
    | some d => d
    | none => shortestFrom code more (count + 1)

/-- The shortest decimal that rounds to a positive finite code, the nearest one among several
of that length. -/
def shortest (code : Nat) : Decimal := Decimal.normalize 20 (shortestFrom code 16 1)

/-- The text of a number in a JSON document; numbers that are not finite have none and are
written as `null`. -/
def jsonText : Binary64 → String
  | .nan => "null"
  | .number negative code =>
    if code.val = infinityCode then "null"
    else
      let sign := if negative then "-" else ""
      sign ++ if code.val = 0 then "0.0" else (shortest code.val).text

end Binary64

end ArithService
