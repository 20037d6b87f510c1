import ArithService.Number.Binary64

/-!
# Arithmetic on doubles

The four operations, each computed exactly and then rounded once.

## Main Definitions

* `Binary64.add`, `Binary64.sub`, `Binary64.mul`, `Binary64.div`

## Design Notes

Finite operands are turned into whole numbers of units, so a sum is an integer sum, a product
a product over `unitsPerOne`, and a quotient a ratio. Signs of zero results follow the
round-to-nearest rules: an exact zero sum is positive unless both operands are negative.
-/

namespace ArithService.Binary64

/-- The signed value of a finite number, in units. -/
def signedUnits (negative : Bool) (code : Nat) : Int :=
  if negative then -(codeUnits code : Int) else codeUnits code

/-- The number with the sign flipped. -/
def neg : Binary64 → Binary64
  | .nan => .nan
  | .number negative code => .number (!negative) code

/-- The sum of two finite numbers, rounded once. -/
def addFinite (s : Bool) (a : Nat) (t : Bool) (b : Nat) : Binary64 :=
  let total := signedUnits s a + signedUnits t b
  if total = 0 then ofCode (s && t) 0
  else ofRatio (decide (total < 0)) total.natAbs 1

/-- Addition. -/
def add : Binary64 → Binary64 → Binary64
  | .number s a, .number t b =>
    if a.val = infinityCode then
      if b.val = infinityCode ∧ s ≠ t then .nan else infinity s
    else if b.val = infinityCode then infinity t
    else addFinite s a.val t b.val
  | _, _ => .nan

/-- Subtraction. -/
def sub (x y : Binary64) : Binary64 := add x (neg y)

/-- Multiplication. -/
def mul : Binary64 → Binary64 → Binary64
  | .number s a, .number t b =>
    if a.val = infinityCode ∨ b.val = infinityCode then
      if a.val = 0 ∨ b.val = 0 then .nan else infinity (s != t)
    else ofRatio (s != t) (codeUnits a.val * codeUnits b.val) unitsPerOne
  | _, _ => .nan

/-- Division. -/
def div : Binary64 → Binary64 → Binary64
  | .number s a, .number t b =>
    if a.val = infinityCode then
      if b.val = infinityCode then .nan else infinity (s != t)
    else if b.val = infinityCode then ofCode (s != t) 0
    else if b.val = 0 then
      if a.val = 0 then .nan else infinity (s != t)
    else ofRatio (s != t) (codeUnits a.val * unitsPerOne) (codeUnits b.val)
  | _, _ => .nan

end ArithService.Binary64
