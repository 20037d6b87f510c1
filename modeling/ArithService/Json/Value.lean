import ArithService.Text.Digits

/-!
# JSON values

Documents as they were written, and records read from them.

## Main Definitions

* `JsonValue` — a document
* `JsonValue.fields?` — the values of the named fields of a record
* `JsonValue.text?`, `JsonValue.int64?` — values of simple types

## Design Notes

Strings may be written with escapes that stand for half a character, or with bytes that are no
well-formed UTF-8; such a string has no text. Numbers keep their literal, so that no precision is lost before their type is known.
-/

namespace ArithService

/-- A JSON document. -/
inductive JsonValue where
  | null
  | bool (value : Bool)
  | number (literal : List Char)
  /-- A string; without a text if it holds half a character or bytes that are ill-formed. -/
  | string (text : Option String)
  | array (elements : List JsonValue)
  /-- An object with its members in order, repeated names included. -/
  | object (members : List (Option String × JsonValue))
deriving Inhabited

namespace JsonValue

/-- The text of a string. -/
def text? : JsonValue → Option String
  | .string text => text
  | _ => none

/-- The text of a string, where `null` stands for no text. -/
def optionalText? : JsonValue → Option (Option String)
  | .null => some none
  | .string (some text) => some (some text)
  | _ => none

/-- The value of a whole number without fraction and exponent, in the range of 64 bits with
sign. A negative zero is no whole number. -/
def int64? : JsonValue → Option Int
  | .number ('-' :: digits) =>
    if digits.all isDigit && digits != ['0'] && digitsValue digits ≤ 0x8000000000000000 then
      some (-(digitsValue digits : Int))
    else none
  | .number digits =>
    if digits.all isDigit && digitsValue digits < 0x8000000000000000 then
      some (digitsValue digits : Int)
    else none
  | _ => none

/-- The values of the members with a name. -/
def membersNamed (name : String) (members : List (Option String × JsonValue)) :
    List JsonValue :=
  (members.filter fun m => m.1 = some name).map (·.2)

/-- The values of the named fields of a record, in the order of the names. A record is an
object, where fields may be absent but not repeated and every name has to be a text, or an
array of the fields in order, where fields may be absent at the end. -/
def fields? (names : List String) : JsonValue → Option (List (Option JsonValue))
  | .object members =>
    if members.all (fun m => m.1.isSome) &&
        names.all (fun name => (membersNamed name members).length ≤ 1) then
      some (names.map fun name => (membersNamed name members).head?)
    else none
  | .array elements =>
    if elements.length ≤ names.length then
      some ((elements.map some) ++ List.replicate (names.length - elements.length) none)
    else none
  | _ => none

end JsonValue

end ArithService
