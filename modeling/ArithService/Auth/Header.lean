import ArithService.Text.Whitespace

/-!
# Tokens in headers

## Main Definitions

* `headerToken` — the token in the value of an `Authorization` header

## Design Notes

The scheme name counts only where the value ends after it or white space follows. Without it
the whole value is the token.
-/

namespace ArithService

/-- The scheme that may stand before a token. -/
def bearerScheme : List Char := "Bearer".toList

/-- What follows the scheme in a value, if it begins with one. -/
def afterBearer? (value : List Char) : Option (List Char) :=
  if value.take bearerScheme.length = bearerScheme then
    match value.drop bearerScheme.length with
    | [] => some []
    | c :: rest => if isWhiteSpace c then some (c :: rest) else none
  else none

/-- The token in a header value, bare or after the scheme. -/
def headerToken (value : String) : Option String :=
  let value := trimChars value.toList
  let token :=
    match afterBearer? value with
    | some rest => trimChars rest
    | none => value
  if token = [] then none else some (String.ofList token)

end ArithService
