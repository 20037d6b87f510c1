import ArithService.Expression.Postfix
import ArithService.Number.Decimal
import ArithService.Text.Whitespace

/-!
# Evaluation

Validation of submitted texts and evaluation of postfix sequences with a stack of values.

## Main Definitions

* `checkCharacters` — refuse blank texts and foreign characters
* `readOperand` — the value of an operand
* `evaluatePostfix` — run a postfix sequence
* `evaluate` — evaluate an infix text
* `evaluateChecked` — check the characters, then evaluate
-/

namespace ArithService

/-- Whether a character may occur in a submitted expression. -/
def isExpressionChar (c : Char) : Bool :=
  isDigit c || isWhiteSpace c || c = '(' || c = ')' || c = '+' || c = '-' || c = '*' ||
    c = '/' || c = '.'

/-- Refuse blank texts, and otherwise the first character outside the language. -/
def checkCharacters (text : String) : Except ExpressionError Unit :=
  if isBlank text then .error .empty
  else
    match text.toList.find? (fun c => !isExpressionChar c) with
    | some c => .error (.invalidCharacter c)
    | none => .ok ()

/-- The value of an operand: digits with at most one dot, in the finite range, with white
space allowed around them. The error names the operand as it was given. -/
def readOperand (text : String) : Except ExpressionError Binary64 :=
  match Binary64.ofLiteral? (trimChars text.toList) with
  | some value => if value.isFinite then .ok value else .error (.invalidNumber text)
  | none => .error (.invalidNumber text)

/-- Run one token on the stack of values, top first. -/
def evaluateToken (stack : List Binary64) : Token → Except ExpressionError (List Binary64)
  | .number text =>
    match readOperand text with
    | .ok value => .ok (value :: stack)
    | .error e => .error e
  | .operator o =>
    match stack with
    | b :: a :: rest =>
      match o.apply a b with
      | .ok value => .ok (value :: rest)
      | .error e => .error e
    | _ => .error .invalidExpression

/-- Evaluate a postfix sequence, which has to leave exactly one value. -/
def evaluatePostfix (tokens : Postfix) : Except ExpressionError Binary64 :=
  match tokens.foldlM evaluateToken [] with
  | .ok [value] => .ok value
  | .ok _ => .error .invalidExpression
  | .error e => .error e

/-- Evaluate an infix text, ignoring all white space. -/
def evaluate (text : String) : Except ExpressionError Binary64 :=
  match toPostfix (removeWhiteSpace text) with
  | .ok tokens => evaluatePostfix tokens
  | .error e => .error e

/-- Validate a text and evaluate it. -/
def evaluateChecked (text : String) : Except ExpressionError Binary64 :=
  match checkCharacters text with
  | .ok () => evaluate text
  | .error e => .error e

/-- The operation on two operands given as texts, in the order left operand, right operand,
operator. -/
def evaluateBinary (left operation right : String) : Except ExpressionError Binary64 :=
  match readOperand left with
  | .error e => .error e
  | .ok a =>
    match readOperand right with
    | .error e => .error e
    | .ok b =>
      match Operator.ofText operation with
      | .error e => .error e
      | .ok o => o.apply a b

end ArithService
