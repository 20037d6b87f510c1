import ArithService.Expression.Operator
import ArithService.Text.Digits

/-!
# From infix to postfix

Conversion of an infix text without white space to a sequence of postfix tokens, in one scan
with an operator stack.

## Main Definitions

* `Token`, `Postfix` — numbers as written and operators, operands before their operator
* `Scan` — the state of the scan between two characters
* `Scan.step` — reading one character
* `toPostfix` — the whole conversion

## Design Notes

The scan is a fold of `Scan.step` over the characters, so every intermediate state can be
named. A number is collected in `Scan.run` and emitted when the first other character, or the
end of the text, is met.
-/

namespace ArithService

/-- A postfix token. A number keeps its source text until it is evaluated. -/
inductive Token where
  | number (text : String)
  | operator (o : Operator)
deriving DecidableEq, Repr

/-- The text of a token. -/
def Token.text : Token → String
  | .number text => text
  | .operator o => o.text

/-- A sequence of tokens, operands before their operator. -/
abbrev Postfix := List Token

/-- The tokens of a sequence, separated by single spaces. -/
def postfixText (tokens : Postfix) : String := " ".intercalate (tokens.map Token.text)

/-- An entry of the operator stack. -/
inductive Pending where
  /-- An opening parenthesis that has not been closed. -/
  | group
  /-- An operator still waiting for its right operand. -/
  | operator (o : Operator)
deriving DecidableEq, Repr

/-- The state of the conversion between two characters. -/
structure Scan where
  /-- The characters of the number being read, latest first. -/
  run : List Char := []
  /-- The tokens emitted so far, latest first. -/
  output : List Token := []
  /-- The operator stack, top first. -/
  stack : List Pending := []
deriving DecidableEq, Repr

/-- Whether a character belongs to a number. -/
def isOperandChar (c : Char) : Bool := isDigit c || c = '.'

namespace Scan

/-- Emit the number being read, if there is one. -/
def flush (s : Scan) : Scan :=
  if s.run = [] then s
  else { s with run := [], output := .number (String.ofList s.run.reverse) :: s.output }

/-- Move operators that bind at least as tightly as `o` from the stack to the output, down to
the first parenthesis or weaker operator. -/
def displace (o : Operator) : List Pending → List Token → List Pending × List Token
  | .operator top :: stack, output =>
    if top.precedence < o.precedence then (.operator top :: stack, output)
    else displace o stack (.operator top :: output)
  | stack, output => (stack, output)

/-- Move operators to the output down to the matching opening parenthesis, and drop it. -/
def closeGroup : List Pending → List Token → Option (List Pending × List Token)
  | [], _ => none
  | .group :: stack, output => some (stack, output)
  | .operator o :: stack, output => closeGroup stack (.operator o :: output)

/-- Move all remaining operators to the output; an open parenthesis is an error. -/
def drain : List Pending → List Token → Except ExpressionError (List Token)
  | [], output => .ok output
  | .group :: _, _ => .error .mismatchedParentheses
  | .operator o :: stack, output => drain stack (.operator o :: output)

/-- Read a character that is not part of a number, after the number before it is emitted. -/
def punctuation (s : Scan) (c : Char) : Except ExpressionError Scan :=
  if c = '(' then .ok { s with stack := .group :: s.stack }
  else if c = ')' then
    match closeGroup s.stack s.output with
    | some (stack, output) => .ok { s with stack := stack, output := output }
    | none => .error .mismatchedParentheses
  else
    match Operator.ofChar? c with
    | some o =>
      let (stack, output) := displace o s.stack s.output
      .ok { s with stack := .operator o :: stack, output := output }
    | none => .error (.invalidCharacter c)

/-- Read one character. -/
def step (s : Scan) (c : Char) : Except ExpressionError Scan :=
  if isOperandChar c then .ok { s with run := c :: s.run }
  else punctuation s.flush c

/-- End of the text: emit the last number and all waiting operators. -/
def finish (s : Scan) : Except ExpressionError Postfix :=
  match drain s.flush.stack s.flush.output with
  | .ok output => .ok output.reverse
  | .error e => .error e

end Scan

/-- Convert an infix text to postfix. White space is a foreign character here. -/
def toPostfix (text : String) : Except ExpressionError Postfix :=
  match text.toList.foldlM Scan.step {} with
  | .ok s => s.finish
  | .error e => .error e

end ArithService
