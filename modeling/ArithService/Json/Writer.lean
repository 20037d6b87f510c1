import ArithService.Number.Decimal

/-!
# Writing JSON

Compact JSON text, member by member.

## Main Definitions

* `jsonString` — a string literal
* `jsonObject`, `jsonArray` — composition of texts that are JSON already
-/

namespace ArithService

/-- A hexadecimal digit, in lower case. -/
def hexDigit (n : Nat) : Char :=
  if n < 10 then Char.ofNat ('0'.toNat + n) else Char.ofNat ('a'.toNat + (n - 10))

/-- A character inside a string literal. Quotes, backslashes and control characters are
escaped, with the short form where there is one. -/
def escapeChar (c : Char) : List Char :=
  if c = '"' then ['\\', '"']
  else if c = '\\' then ['\\', '\\']
  else if c = '\n' then ['\\', 'n']
  else if c = '\r' then ['\\', 'r']
  else if c = '\t' then ['\\', 't']
  else if c.toNat = 8 then ['\\', 'b']
  else if c.toNat = 12 then ['\\', 'f']
  else if c.toNat < 32 then
    ['\\', 'u', '0', '0', hexDigit (c.toNat / 16), hexDigit (c.toNat % 16)]
  else [c]

/-- A string literal. -/
def jsonString (text : String) : String :=
  String.ofList ('"' :: (text.toList.flatMap escapeChar ++ ['"']))

/-- An object from its members; the values are JSON texts. -/
def jsonObject (members : List (String × String)) : String :=
  "\x7b" ++ ",".intercalate (members.map fun (name, value) => jsonString name ++ ":" ++ value)
    ++ "\x7d"

/-- An array from its elements, which are JSON texts. -/
def jsonArray (elements : List String) : String := "[" ++ ",".intercalate elements ++ "]"

end ArithService
