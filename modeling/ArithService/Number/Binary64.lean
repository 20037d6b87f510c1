/-!
# Binary floating-point numbers

The double-precision numbers the service computes with, as exact data: a sign and a
magnitude code, or the single value `nan`.

## Main Definitions

* `Binary64` — a double, with all NaNs identified and the two zeros kept apart
* `Binary64.codeUnits` — the magnitude of a code, counted in units of `2 ^ (-1074)`
* `Binary64.codeOfRatio` — the code nearest to a ratio of units, ties to the even code
* `Binary64.toBits`, `Binary64.ofBits` — the 64-bit interchange pattern

## Design Notes

A magnitude code is the pattern of a double without its sign bit. Codes are ordered as the
magnitudes they stand for, the code after the largest finite one is infinity, and every
finite magnitude is a whole number of units `2 ^ (-1074)`. Rounding is therefore arithmetic
on natural numbers: find the binade of the exact value, divide by its spacing, and round the
quotient to the nearest even integer. A quotient that reaches the next binade carries into
the exponent bits by itself.
-/

namespace ArithService

/-- The number of stored fraction bits, as a power of two. -/
def Binary64.binade : Nat := 0x10000000000000

/-- The code of infinity: all exponent bits set and no fraction. -/
def Binary64.infinityCode : Nat := 0x7ff0000000000000

/-- A double-precision number. All NaNs are one value; zeros and infinities are signed. -/
inductive Binary64 where
  /-- The result of an operation that has no value. -/
  | nan
  /-- A number with the given sign whose magnitude has the given code. -/
  | number (negative : Bool) (code : Fin (Binary64.infinityCode + 1))
deriving DecidableEq, Repr

namespace Binary64

instance : Inhabited Binary64 := ⟨.nan⟩

/-- A number from a sign and a code; codes past infinity are read as infinity. -/
def ofCode (negative : Bool) (code : Nat) : Binary64 :=
  .number negative ⟨min code infinityCode, Nat.lt_succ_of_le (Nat.min_le_right _ _)⟩

/-- Positive zero. -/
def zero : Binary64 := ofCode false 0

/-- The infinity of the given sign. -/
def infinity (negative : Bool) : Binary64 := ofCode negative infinityCode

/-- Whether the number is neither infinite nor a NaN. -/
def isFinite : Binary64 → Bool
  | .nan => false
  | .number _ code => code.val < infinityCode

/-- Whether the number is one of the two zeros. -/
def isZero : Binary64 → Bool
  | .nan => false
  | .number _ code => code.val = 0

/-- The magnitude of a finite code in units of `2 ^ (-1074)`. -/
def codeUnits (code : Nat) : Nat :=
  if code < binade then code
  else (binade + code % binade) * Nat.pow 2 (code / binade - 1)

/-- The integer nearest to `numerator / denominator`, ties to the even one. -/
def divideToEven (numerator denominator : Nat) : Nat :=
  let quotient := numerator / denominator
  let remainder := numerator % denominator
  if 2 * remainder < denominator ∨ (2 * remainder = denominator ∧ quotient % 2 = 0) then
    quotient
  else
    quotient + 1

/-- The code nearest to `numerator / denominator` units, ties to the even code. Magnitudes
from halfway between the largest finite number and the next power of two give infinity. -/
def codeOfRatio (numerator denominator : Nat) : Nat :=
  let shift := Nat.log2 (numerator / denominator) - 52
  min infinityCode (shift * binade + divideToEven numerator (denominator * Nat.pow 2 shift))

/-- The number nearest to a signed ratio of units. -/
def ofRatio (negative : Bool) (numerator denominator : Nat) : Binary64 :=
  ofCode negative (codeOfRatio numerator denominator)

/-- How many units make one: finite numbers are multiples of `1 / unitsPerOne`. -/
def unitsPerOne : Nat := Nat.pow 2 1074

/-- The number nearest to a natural number. -/
def ofNat (n : Nat) : Binary64 := ofRatio false (n * unitsPerOne) 1

/-- The number nearest to an integer. -/
def ofInt (n : Int) : Binary64 := ofRatio (decide (n < 0)) (n.natAbs * unitsPerOne) 1

/-- The 64-bit pattern of a number; the NaN has its quiet pattern. -/
def toBits : Binary64 → UInt64
  | .nan => 0x7ff8000000000000
  | .number negative code =>
    UInt64.ofNat (code.val + if negative then 0x8000000000000000 else 0)

/-- The number with the given pattern. -/
def ofBits (bits : UInt64) : Binary64 :=
  let negative := bits.toNat ≥ 0x8000000000000000
  let code := bits.toNat % 0x8000000000000000
  if infinityCode < code then .nan else ofCode negative code

/-- Whether two numbers are equal as numbers: zeros are equal, a NaN equals nothing. -/
def sameNumber : Binary64 → Binary64 → Bool
  | .number s a, .number t b => (a.val = 0 && b.val = 0) || (s = t && a = b)
  | _, _ => false

end Binary64

end ArithService
