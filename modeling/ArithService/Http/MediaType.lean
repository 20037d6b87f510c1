/-!
# Media types

What a request says about the kind of its body.

## Main Definitions

* `MediaType`, `MediaType.ofText?` — a media type, and its reader
* `MediaType.isJson` — whether a body of that type is a JSON document

## Design Notes

Parameters have to be well-formed, but nothing is made of them. A subtype with a structured
suffix counts as JSON by the suffix or by what stands before it.
-/

namespace ArithService

/-- A media type without its parameters, in lower case. -/
structure MediaType where
  main : List Char
  /-- The subtype up to its last plus sign. -/
  sub : List Char
  /-- What follows the last plus sign of the subtype. -/
  suffix : Option (List Char)
deriving DecidableEq, Repr

/-- Whether a character may occur in a name of a media type or of a parameter. -/
def isTokenChar (c : Char) : Bool := c.isAlphanum || "!#$%&'+-.^_`|~".toList.contains c

/-- Whether a character may occur between quotation marks. -/
def isQuotedChar (c : Char) : Bool := 32 ≤ c.toNat && c.toNat ≠ 127

/-- What follows the closing quotation mark of a quoted value. -/
def afterQuoted? : List Char → Option (List Char)
  | [] => none
  | '"' :: rest => some rest
  | '\\' :: c :: rest => if isQuotedChar c || c = '\t' then afterQuoted? rest else none
  | c :: rest => if isQuotedChar c then afterQuoted? rest else none

/-- Whether a text is a list of parameters, for a number of them that is large enough. -/
def areParameters : Nat → List Char → Bool
  | 0, cs => cs = []
  | fuel + 1, cs =>
    let cs := cs.dropWhile (· = ' ')
    let name := cs.takeWhile isTokenChar
    if cs = [] then true
    else if name = [] then false
    else
      match cs.drop name.length with
      | '=' :: '"' :: rest =>
        match (afterQuoted? rest).map (·.dropWhile (· = ' ')) with
        | some (';' :: rest) => areParameters fuel rest
        | some [] => true
        | _ => false
      | '=' :: rest =>
        let value := rest.takeWhile isTokenChar
        match rest.drop value.length with
        | ';' :: rest => value ≠ [] && areParameters fuel rest
        | [] => true
        | _ => false
      | _ => false

namespace MediaType

/-- A media type with the given names. The subtype is split at its last plus sign, unless that
is its first character. -/
def ofNames (main sub : List Char) : MediaType :=
  let suffix := (sub.reverse.takeWhile (· ≠ '+')).reverse
  let base := sub.take (sub.length - suffix.length - 1)
  if base = [] then ⟨main, sub, none⟩ else ⟨main, base, some suffix⟩

/-- Read a media type. Letter case does not count. -/
def ofText? (text : String) : Option MediaType :=
  let cs := text.toList.map Char.toLower
  let main := cs.takeWhile isTokenChar
  match cs.drop main.length with
  | '/' :: rest =>
    let sub := rest.takeWhile isTokenChar
    if main = [] ∨ sub = [] then none
    else
      match rest.drop sub.length with
      | [] => some (ofNames main sub)
      | ';' :: parameters =>
        if areParameters parameters.length parameters then some (ofNames main sub) else none
      | _ => none
  | _ => none

/-- Whether bodies of a type are JSON documents. -/
def isJson (m : MediaType) : Bool :=
  m.main = "application".toList &&
    (m.sub = "json".toList || m.suffix = some "json".toList)

end MediaType

end ArithService
