import ArithService.Json.Value
import ArithService.Text.Bytes
import ArithService.Text.Digits

/-!
# Reading JSON

## Main Definitions

* `readString` — a string literal after its opening quote
* `readNumberLiteral` — a number literal
* `readValue` — a value
* `JsonValue.ofBytes?` — a whole document

## Design Notes

**Bytes.** A document is read byte by byte, and every byte is shown as the character with its
number: all tokens are ASCII, where this makes no difference. Only the bytes of a string make up a
text, and only there they have to be well-formed UTF-8. A string that is not looked at may hold
any bytes.

**Readers.** Every reader returns what it found together with what is left. Readers of nested
structures are bounded by a count that the length of the document makes large enough: every
value, element and member takes at least one byte.
-/

namespace ArithService

/-- Whether a character may stand between tokens. -/
def isJsonSpace (c : Char) : Bool := c = ' ' || c = '\n' || c = '\r' || c = '\t'

/-- The characters from the next token on. -/
def skipSpace (cs : List Char) : List Char := cs.dropWhile isJsonSpace

/-! ### Strings -/

/-- The value of a hexadecimal digit. -/
def hexValue? (c : Char) : Option Nat :=
  if isDigit c then some (digitValue c)
  else if 'a' ≤ c ∧ c ≤ 'f' then some (c.toNat - 'a'.toNat + 10)
  else if 'A' ≤ c ∧ c ≤ 'F' then some (c.toNat - 'A'.toNat + 10)
  else none

/-- Read four hexadecimal digits. -/
def readUnit (cs : List Char) : Option (Nat × List Char) :=
  match (cs.take 4).mapM hexValue? with
  | some [a, b, c, d] => some (((16 * a + b) * 16 + c) * 16 + d, cs.drop 4)
  | _ => none

/-- The character that a short escape stands for. -/
def shortEscape? (c : Char) : Option Char :=
  if c = '"' then some '"'
  else if c = '\\' then some '\\'
  else if c = '/' then some '/'
  else if c = 'b' then some '\x08'
  else if c = 'f' then some '\x0c'
  else if c = 'n' then some '\n'
  else if c = 'r' then some '\r'
  else if c = 't' then some '\t'
  else none

/-- Read the second half of a character written as two units, given the first half. -/
def readSecondHalf (high : Nat) (cs : List Char) : Option (Char × List Char) :=
  match cs with
  | '\\' :: 'u' :: rest =>
    match readUnit rest with
    | some (low, rest) =>
      if 0xdc00 ≤ low ∧ low ≤ 0xdfff then
        some (Char.ofNat (0x10000 + (high - 0xd800) * 0x400 + (low - 0xdc00)), rest)
      else none
    | none => none
  | _ => none

/-- Read an escape after its backslash: the character it stands for, or nothing where it
stands for half a character. -/
def readEscape (cs : List Char) : Option (Option Char × List Char) :=
  match cs with
  | [] => none
  | 'u' :: rest =>
    match readUnit rest with
    | none => none
    | some (unit, rest) =>
      if 0xd800 ≤ unit ∧ unit ≤ 0xdbff then
        match readSecondHalf unit rest with
        | some (c, rest) => some (some c, rest)
        | none => some (none, rest)
      else if 0xdc00 ≤ unit ∧ unit ≤ 0xdfff then some (none, rest)
      else some (some (Char.ofNat unit), rest)
  | c :: rest => (shortEscape? c).map fun c => (some c, rest)

/-- Read a string after its opening quote and the bytes in `before`, latest first; these are missing
where half a character was met. There is a text if the bytes are well-formed. -/
def readStringOnto : Nat → Option Bytes → List Char → Option (Option String × List Char)
  | 0, _, _ => none
  | _ + 1, _, [] => none
  | fuel + 1, before, c :: rest =>
    if c = '"' then some (before.bind fun bs => textOfBytes? bs.reverse, rest)
    else if c = '\\' then
      match readEscape rest with
      | some (some c, rest) =>
        readStringOnto fuel (before.map ((String.utf8EncodeChar c).reverse ++ ·)) rest
      | some (none, rest) => readStringOnto fuel none rest
      | none => none
    else if c.toNat < 0x20 then none
    else readStringOnto fuel (before.map (UInt8.ofNat c.toNat :: ·)) rest

/-- Read a string after its opening quote. -/
def readString (cs : List Char) : Option (Option String × List Char) :=
  readStringOnto (cs.length + 1) (some []) cs

/-! ### Numbers -/

/-- Read at least one digit. -/
def readDigitRun (cs : List Char) : Option (List Char × List Char) :=
  let digits := cs.takeWhile isDigit
  if digits = [] then none else some (digits, cs.drop digits.length)

/-- Read a whole number: a zero, or digits that do not begin with one. -/
def readWhole (cs : List Char) : Option (List Char × List Char) :=
  match readDigitRun cs with
  | some (digits, rest) =>
    if digits.head? = some '0' ∧ digits.length ≠ 1 then none else some (digits, rest)
  | none => none

/-- Read a fraction, if there is one. -/
def readFractionPart (cs : List Char) : Option (List Char × List Char) :=
  match cs with
  | '.' :: rest => (readDigitRun rest).map fun (digits, rest) => ('.' :: digits, rest)
  | _ => some ([], cs)

/-- Read an exponent, if there is one. -/
def readExponentPart (cs : List Char) : Option (List Char × List Char) :=
  match cs with
  | c :: rest =>
    if c = 'e' ∨ c = 'E' then
      let (sign, rest) :=
        match rest with
        | '+' :: rest => (['+'], rest)
        | '-' :: rest => (['-'], rest)
        | rest => ([], rest)
      (readDigitRun rest).map fun (digits, rest) => (c :: sign ++ digits, rest)
    else some ([], cs)
  | [] => some ([], [])

/-- Read a number. -/
def readNumberLiteral (cs : List Char) : Option (List Char × List Char) := do
  let (sign, cs) :=
    match cs with
    | '-' :: rest => (['-'], rest)
    | cs => ([], cs)
  let (whole, cs) ← readWhole cs
  let (fraction, cs) ← readFractionPart cs
  let (exponent, cs) ← readExponentPart cs
  return (sign ++ whole ++ fraction ++ exponent, cs)

/-! ### Values -/

/-- Read a given word. -/
def readWord (word : String) (value : JsonValue) (cs : List Char) :
    Option (JsonValue × List Char) :=
  let letters := word.toList
  if cs.take letters.length = letters then some (value, cs.drop letters.length) else none

mutual

/-- Read a value. -/
def readValue : Nat → List Char → Option (JsonValue × List Char)
  | 0, _ => none
  | fuel + 1, cs =>
    match skipSpace cs with
    | [] => none
    | c :: rest =>
      if c = '"' then (readString rest).map fun (text, rest) => (.string text, rest)
      else if c = '[' then
        match skipSpace rest with
        | ']' :: rest => some (.array [], rest)
        | rest => readElements fuel [] rest
      else if c = '\x7b' then
        match skipSpace rest with
        | '\x7d' :: rest => some (.object [], rest)
        | rest => readMembers fuel [] rest
      else if c = 't' then readWord "true" (.bool true) (c :: rest)
      else if c = 'f' then readWord "false" (.bool false) (c :: rest)
      else if c = 'n' then readWord "null" .null (c :: rest)
      else (readNumberLiteral (c :: rest)).map fun (literal, rest) => (.number literal, rest)

/-- Read the elements of an array after those already read, latest first, up to its end. -/
def readElements : Nat → List JsonValue → List Char → Option (JsonValue × List Char)
  | 0, _, _ => none
  | fuel + 1, before, cs =>
    match readValue fuel cs with
    | none => none
    | some (value, rest) =>
      match skipSpace rest with
      | ',' :: rest => readElements fuel (value :: before) rest
      | ']' :: rest => some (.array (value :: before).reverse, rest)
      | _ => none

/-- Read the members of an object after those already read, latest first, up to its end. -/
def readMembers : Nat → List (Option String × JsonValue) → List Char →
    Option (JsonValue × List Char)
  | 0, _, _ => none
  | fuel + 1, before, cs =>
    match skipSpace cs with
    | '"' :: rest =>
      match readString rest with
      | none => none
      | some (name, rest) =>
        match skipSpace rest with
        | ':' :: rest =>
          match readValue fuel rest with
          | none => none
          | some (value, rest) =>
            match skipSpace rest with
            | ',' :: rest => readMembers fuel ((name, value) :: before) rest
            | '\x7d' :: rest => some (.object ((name, value) :: before).reverse, rest)
            | _ => none
        | _ => none
    | _ => none

end

/-- The document that bytes are, with space allowed around it. -/
def JsonValue.ofBytes? (bs : Bytes) : Option JsonValue :=
  let cs := byteChars bs
  match readValue (2 * cs.length + 2) cs with
  | some (value, rest) => if skipSpace rest = [] then some value else none
  | none => none

end ArithService
