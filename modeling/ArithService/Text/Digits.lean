/-!
# Decimal digits

Reading and writing whole numbers in decimal.

## Main Definitions

* `digitsValue` — the number a list of digits stands for
* `padded` — a number with leading zeros up to a width
* `readInteger` — signed decimal text within given bounds, with the reason for a refusal
-/

namespace ArithService

/-- Whether a character is one of `0` to `9`. -/
def isDigit (c : Char) : Bool := '0' ≤ c && c ≤ '9'

/-- The value of a digit. -/
def digitValue (c : Char) : Nat := c.toNat - '0'.toNat

/-- The number a list of digits stands for, most significant first. -/
def digitsValue (digits : List Char) : Nat :=
  digits.foldl (fun total c => 10 * total + digitValue c) 0

/-- The decimal digits of a number, most significant first. -/
def decimal (n : Nat) : String := toString n

/-- A number written with at least `width` digits. -/
def padded (width n : Nat) : String :=
  let digits := (decimal n).toList
  String.ofList (List.replicate (width - digits.length) '0' ++ digits)

/-- Why a text is not an integer of the wanted range. -/
inductive IntegerError where
  | empty
  | invalidDigit
  | tooLarge
  | tooSmall
deriving DecidableEq, Repr

/-- The reason in words. -/
def IntegerError.message : IntegerError → String
  | .empty => "cannot parse integer from empty string"
  | .invalidDigit => "invalid digit found in string"
  | .tooLarge => "number too large to fit in target type"
  | .tooSmall => "number too small to fit in target type"

/-- Read a run of digits with the given sign, starting from the total so far. The first
character that is no digit, or whose digit leaves the bounds, decides the refusal. -/
def readDigits (negative : Bool) (low high : Int) :
    List Char → Int → Except IntegerError Int
  | [], total => .ok total
  | c :: rest, total =>
    if isDigit c then
      let next := if negative then 10 * total - digitValue c else 10 * total + digitValue c
      if high < next then .error .tooLarge
      else if next < low then .error .tooSmall
      else readDigits negative low high rest next
    else .error .invalidDigit

/-- Read a decimal integer between `low` and `high`. One leading `+` is accepted, and one
leading `-` where negative numbers are in range. -/
def readInteger (low high : Int) (text : String) : Except IntegerError Int :=
  match text.toList with
  | [] => .error .empty
  | ['+'] => .error .invalidDigit
  | ['-'] => .error .invalidDigit
  | '+' :: digits => readDigits false low high digits 0
  | '-' :: digits =>
    if low < 0 then readDigits true low high digits 0 else .error .invalidDigit
  | digits => readDigits false low high digits 0

/-- Read an integer of 64 bits with sign. -/
def readInt64 (text : String) : Except IntegerError Int :=
  readInteger (-0x8000000000000000) 0x7fffffffffffffff text

/-- Read a natural number below `2 ^ bits`. -/
def readUnsigned (bits : Nat) (text : String) : Except IntegerError Int :=
  readInteger 0 (Nat.pow 2 bits - 1 : Nat) text

end ArithService
