/-!
# Evaluation errors

## Main Definitions

* `ExpressionError` — everything that can be wrong with an expression
* `ExpressionError.message` — its text
* `ExpressionError.isValidation` — whether the characters were refused before any evaluation
-/

namespace ArithService

/-- What is wrong with an expression. -/
inductive ExpressionError where
  /-- There is nothing but white space. -/
  | empty
  /-- A character outside the language. -/
  | invalidCharacter (c : Char)
  /-- A parenthesis without its partner. -/
  | mismatchedParentheses
  /-- A run of digits and dots that is no number, or is too large. -/
  | invalidNumber (text : String)
  /-- Operands and operators do not fit together. -/
  | invalidExpression
  | divisionByZero
  /-- A result that is not finite. -/
  | overflow
  | unknownOperator (text : String)
deriving DecidableEq, Repr

/-- The text of an evaluation error. -/
def ExpressionError.message : ExpressionError → String
  | .empty => "Expression is empty"
  | .invalidCharacter c => "Invalid character: '" ++ String.singleton c ++ "'"
  | .mismatchedParentheses => "Mismatched parentheses"
  | .invalidNumber text => "Invalid number: " ++ text
  | .invalidExpression => "Invalid expression"
  | .divisionByZero => "Division by zero"
  | .overflow => "Result out of range"
  | .unknownOperator text => "Unknown operation: " ++ text

/-- Whether the error is a failure of validation rather than of evaluation. -/
def ExpressionError.isValidation : ExpressionError → Bool
  | .empty => true
  | .invalidCharacter _ => true
  | _ => false

end ArithService
