import ArithService.Expression.Evaluate

/-!
# Units of work

What a worker is asked to do for a submitted expression.

## Main Definitions

* `Work` — one operation on two literals, or a whole expression
* `Work.compute` — its value
* `Work.ofText` — the work of a submitted text, refused where the text has no value
-/

namespace ArithService

/-- A unit of work. -/
inductive Work where
  /-- One operation; the operands keep their source text. -/
  | binary (left : String) (o : Operator) (right : String)
  /-- A whole expression. -/
  | expression (text : String)
deriving DecidableEq, Repr

/-- The value of a unit of work. -/
def Work.compute : Work → Except ExpressionError Binary64
  | .binary left o right => evaluateBinary left o.text right
  | .expression text => evaluate text

/-- The work a postfix sequence amounts to: a single operation on two literals is sent as
such, everything else as the whole text. -/
def classify (text : String) : Postfix → Work
  | [.number left, .number right, .operator o] => .binary left o right
  | _ => .expression text

/-- Validate and convert a submitted text. The result is evaluated once, so that a text
without a value is refused before anybody works on it. -/
def Work.ofText (text : String) : Except ExpressionError Work :=
  match checkCharacters text with
  | .error e => .error e
  | .ok () =>
    match toPostfix (removeWhiteSpace text) with
    | .error e => .error e
    | .ok tokens =>
      match evaluatePostfix tokens with
      | .error e => .error e
      | .ok _ => .ok (classify (removeWhiteSpace text) tokens)

end ArithService
