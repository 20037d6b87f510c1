import ArithService.Expression.Error
import ArithService.Number.Arithmetic

/-!
# Operators

The four binary operators of the expression language.

## Main Definitions

* `Operator` — addition, subtraction, multiplication, division
* `Operator.ofChar?`, `Operator.symbol` — the correspondence with characters
* `Operator.ofText` — reading an operator as sent to a worker
* `Operator.precedence` — binding strength
* `Operator.apply` — the operation on doubles, refusing results that are not finite
-/

namespace ArithService

/-- A binary operator. -/
inductive Operator where
  | add
  | sub
  | mul
  | div
deriving DecidableEq, Repr

namespace Operator

/-- The operator written with a character. -/
def ofChar? (c : Char) : Option Operator :=
  if c = '+' then some .add
  else if c = '-' then some .sub
  else if c = '*' then some .mul
  else if c = '/' then some .div
  else none

/-- The character an operator is written with. -/
def symbol : Operator → Char
  | .add => '+'
  | .sub => '-'
  | .mul => '*'
  | .div => '/'

/-- The one-character text of an operator. -/
def text (o : Operator) : String := String.singleton o.symbol

/-- Read an operator from a text, which has to be exactly its symbol. -/
def ofText (text : String) : Except ExpressionError Operator :=
  match text.toList with
  | [c] =>
    match ofChar? c with
    | some o => .ok o
    | none => .error (.unknownOperator text)
  | _ => .error (.unknownOperator text)

/-- Binding strength: products bind more tightly than sums. -/
def precedence : Operator → Nat
  | .add => 1
  | .sub => 1
  | .mul => 2
  | .div => 2

/-- The operation itself on doubles, without any check. -/
def compute : Operator → Binary64 → Binary64 → Binary64
  | .add => Binary64.add
  | .sub => Binary64.sub
  | .mul => Binary64.mul
  | .div => Binary64.div

/-- Apply an operator. Dividing by either zero and results that are not finite are errors. -/
def apply (o : Operator) (a b : Binary64) : Except ExpressionError Binary64 :=
  if o = .div ∧ b.isZero then .error .divisionByZero
  else if (o.compute a b).isFinite then .ok (o.compute a b)
  else .error .overflow

end Operator

end ArithService
