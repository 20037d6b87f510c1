/-!
# Request targets

The path and query part of an address, as sent in a request.

## Main Definitions

* `isPathChar`, `isQueryChar` — the characters allowed there
* `Target`, `Target.ofText?` — a target with path and query apart

## Design Notes

Characters outside ASCII are allowed. A fragment is dropped without being looked at.
-/

namespace ArithService

/-- Whether a character may occur in a path. -/
def isPathChar (c : Char) : Bool :=
  let n := c.toNat
  n = 0x21 || (0x24 ≤ n && n ≤ 0x3b) || n = 0x3d || (0x40 ≤ n && n ≤ 0x5f) ||
    (0x61 ≤ n && n ≤ 0x7a) || n = 0x7c || n = 0x7e || 0x7f ≤ n ||
    c = '"' || c = '\x7b' || c = '\x7d'

/-- Whether a character may occur in a query. -/
def isQueryChar (c : Char) : Bool :=
  let n := c.toNat
  n = 0x21 || (0x24 ≤ n && n ≤ 0x3b) || n = 0x3d || 0x3f ≤ n

/-- A request target. -/
structure Target where
  path : String
  query : Option String
deriving DecidableEq, Repr

/-- Read a target, if all its characters are allowed. -/
def Target.ofText? (text : String) : Option Target :=
  let cs := text.toList
  let path := cs.takeWhile fun c => c ≠ '?' ∧ c ≠ '#'
  let rest := cs.drop path.length
  let query := (rest.drop 1).takeWhile (· ≠ '#')
  if path.all isPathChar then
    if rest.head? = some '?' then
      if query.all isQueryChar then some ⟨String.ofList path, some (String.ofList query)⟩
      else none
    else some ⟨String.ofList path, none⟩
  else none

end ArithService
