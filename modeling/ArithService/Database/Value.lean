import ArithService.Number.Decimal

/-!
# Values in statements

Values as they are written in a statement, and what a column of a given kind keeps of them.

## Main Definitions

* `SqlValue` — a value
* `SqlValue.asText`, `SqlValue.asReal`, `SqlValue.asInteger?` — the value in a column of texts,
  of numbers, or of whole numbers

## Design Notes

A column of texts keeps a number as text with at most fifteen significant digits. The other
columns keep the number that a text spells out, if it spells out one.
-/

namespace ArithService

/-- A value in a statement. -/
inductive SqlValue where
  | null
  | integer (n : Int)
  | real (x : Binary64)
  | text (s : String)
deriving DecidableEq, Repr

/-! ### Numbers as text -/

/-- A decimal number with a decimal point and at least one digit on either side of it. Outside
`0.0001` to `1e15` it has an exponent of at least two digits. -/
def Decimal.pointText (d : Decimal) : String :=
  let digits := (decimal d.digits).toList
  let power := (digits.length : Int) + d.exponent - 1
  let fraction (cs : List Char) : String := "." ++ String.ofList (if cs = [] then ['0'] else cs)
  if power < -4 ∨ 14 < power then
    String.ofList (digits.take 1) ++ fraction (digits.drop 1) ++ "e" ++
      (if power < 0 then "-" else "+") ++ padded 2 power.natAbs
  else if power < 0 then
    "0" ++ fraction (List.replicate (power.natAbs - 1) '0' ++ digits)
  else
    let whole := power.toNat + 1
    String.ofList (digits.take whole ++ List.replicate (whole - digits.length) '0') ++
      fraction (digits.drop whole)

/-- The text that a column of texts keeps of a number, rounded to fifteen significant digits. -/
def Binary64.columnText : Binary64 → Option String
  | .nan => none
  | .number negative code =>
    if code.val = 0 then some "0.0"
    else
      let sign := if negative then "-" else ""
      if code.val = infinityCode then some (sign ++ "Inf")
      else
        match Binary64.neighbours (codeUnits code.val) 15 with
        | nearest :: _ => some (sign ++ (Decimal.normalize 20 nearest).pointText)
        | [] => none

/-! ### Numbers in text -/

/-- Whether a character may stand around a number in a text. -/
def isNumberSpace (c : Char) : Bool := c = ' ' || (9 ≤ c.toNat && c.toNat ≤ 13)

/-- A sign and what follows it. -/
def splitSign : List Char → Bool × List Char
  | '-' :: rest => (true, rest)
  | '+' :: rest => (false, rest)
  | cs => (false, cs)

/-- The power of ten in an exponent, if there is an exponent at all. -/
def readExponent? : List Char → Option Int
  | [] => some 0
  | e :: rest =>
    let (negative, digits) := splitSign rest
    if (e = 'e' ∨ e = 'E') ∧ digits ≠ [] ∧ digits.all isDigit then
      some (if negative then -(digitsValue digits : Int) else digitsValue digits)
    else none

/-- The number that a text spells out. Exponents far out of range are cut. -/
def readNumeral? (text : String) : Option Binary64 :=
  let cs := (text.toList.dropWhile isNumberSpace).reverse.dropWhile isNumberSpace
  let (negative, cs) := splitSign cs.reverse
  let whole := cs.takeWhile isDigit
  let (fraction, rest) :=
    match cs.drop whole.length with
    | '.' :: rest => (rest.takeWhile isDigit, rest.dropWhile isDigit)
    | rest => ([], rest)
  if whole = [] ∧ fraction = [] then none
  else
    match readExponent? rest with
    | none => none
    | some power =>
      let power := max (-10000) (min 10000 power)
      some (.ofDecimal negative ⟨digitsValue (whole ++ fraction), power - fraction.length⟩)

/-- The whole number that a double is, if it is one. -/
def Binary64.toInt? : Binary64 → Option Int
  | .nan => none
  | .number negative code =>
    let units := codeUnits code.val
    if code.val = infinityCode ∨ units % unitsPerOne ≠ 0 then none
    else
      let n : Int := (units / unitsPerOne : Nat)
      some (if negative then -n else n)

/-! ### Columns -/

namespace SqlValue

/-- What a column of texts keeps. -/
def asText : SqlValue → Option String
  | null => none
  | integer n => some (toString n)
  | real x => x.columnText
  | text s => some s

/-- What a column of numbers keeps. -/
def asReal : SqlValue → Option Binary64
  | null => none
  | integer n => some (.ofInt n)
  | real x => some x
  | text s => readNumeral? s

/-- What a column of whole numbers keeps, if it is a whole number. -/
def asInteger? : SqlValue → Option Int
  | null => none
  | integer n => some n
  | real x => x.toInt?
  | text s => (readNumeral? s).bind Binary64.toInt?

end SqlValue

end ArithService
