import ArithService.Http.Target

/-!
# Addresses of resources

Full addresses, with or without scheme and authority.

## Main Definitions

* `isAuthority` — whether a run of characters is a user, host and port
* `uriPath?` — the path of an address, if the address is well-formed

## Design Notes

An address is a scheme, an authority and a target. Without a scheme it is either a target
that begins with a slash or an authority and nothing else. The authority is scanned from left
to right; what was counted is forgotten where an `@` shows that it was user information and
where a bracket closes a numeric host.
-/

namespace ArithService

/-- The longest address, in bytes. -/
def longestUri : Nat := 65534

/-- Whether a character may occur in a scheme. -/
def isSchemeChar (c : Char) : Bool :=
  c.isAlphanum || c = '+' || c = '-' || c = '.' || c = '~'

/-- Whether a character may occur in an authority, apart from the percent sign. -/
def isAuthorityChar (c : Char) : Bool :=
  c.isAlphanum || "!$&'()*+,-.:;=@[]_~".toList.contains c

/-- What is known about an authority after some of its characters. -/
structure AuthorityScan where
  colons : Nat := 0
  opened : Bool := false
  closed : Bool := false
  percent : Bool := false
  /-- Whether the latest character is an `@`. -/
  atSign : Bool := false
deriving DecidableEq, Repr

namespace AuthorityScan

/-- Take one character of an authority into account. -/
def step (s : AuthorityScan) (c : Char) : Option AuthorityScan :=
  let s := { s with atSign := false }
  if c = ':' then
    if s.colons < 8 then some { s with colons := s.colons + 1 } else none
  else if c = '[' then
    if s.percent || s.opened then none else some { s with opened := true }
  else if c = ']' then
    if !s.opened || s.closed then none
    else some { s with closed := true, colons := 0, percent := false }
  else if c = '@' then some { s with colons := 0, percent := false, atSign := true }
  else if c = '%' then some { s with percent := true }
  else if isAuthorityChar c then some s
  else none

/-- Whether an authority may end here. -/
def complete (s : AuthorityScan) : Bool :=
  s.opened = s.closed && s.colons ≤ 1 && !s.atSign && !s.percent

end AuthorityScan

/-- Whether a run of characters is an authority; the empty run is. -/
def isAuthority (cs : List Char) : Bool :=
  match cs.foldlM AuthorityScan.step {} with
  | some s => s.complete
  | none => false

/-- What follows the scheme of an address, and whether there is a scheme; nothing for a scheme
that is too long. -/
def afterScheme (cs : List Char) : Option (Bool × List Char) :=
  let scheme := cs.takeWhile isSchemeChar
  let rest := cs.drop scheme.length
  if 3 < cs.length ∧ rest.take 3 = [':', '/', '/'] then
    if scheme.length ≤ 64 then some (true, rest.drop 3) else none
  else some (false, cs)

/-- The path of an address, if the address is well-formed. With a scheme it is at least a
slash; an authority by itself has the empty path. -/
def uriPath? (text : String) : Option String :=
  let cs := text.toList
  if longestUri < text.utf8ByteSize then none
  else
    match cs with
    | [] => none
    | ['*'] => some "*"
    | '/' :: _ => (Target.ofText? text).map (·.path)
    | _ =>
      match afterScheme cs with
      | none => none
      | some (hasScheme, rest) =>
        let authority := rest.takeWhile fun c => c ≠ '/' ∧ c ≠ '?' ∧ c ≠ '#'
        let target := rest.drop authority.length
        if isAuthority authority then
          if hasScheme then
            if authority = [] then none
            else
              (Target.ofText? (String.ofList target)).map fun t =>
                if t.path = "" then "/" else t.path
          else if target = [] then some ""
          else none
        else none

end ArithService
