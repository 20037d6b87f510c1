import ArithService.Text.Digits
import ArithService.Text.Whitespace

/-!
# Listen addresses

Socket addresses as text: an IP address and a port.

## Main Definitions

* `HostAddress`, `SocketAddress` — addresses and their canonical text
* `SocketAddress.ofText?` — the strict form `ip:port`
* `Resolver` — how a machine finds the addresses that a text stands for
* `Resolver.ofLookup` — the resolver of a machine that looks up hosts in a given way
* `numericHosts` — looking up hosts without a network
* `SocketAddress.ofListenText` — the setting of a listener, where `:port` means all interfaces

## Design Notes

**Hosts.** Which addresses the name of a host has is up to the machine, so a resolver is an argument
of everything that reads an address. It may fail in its own words, and it may find nothing. Text
that is not in the strict form is split at its last colon, and the port is read before the host is
looked up. Without a network a host is a numeric address in the older, lenient spelling.

**Readers** of parts return the rest of the text.
-/

namespace ArithService

/-- An IP address. -/
inductive HostAddress where
  | v4 (octets : List Nat)
  | v6 (groups : List Nat) (scope : Nat)
deriving DecidableEq, Repr

/-- An IP address and a port. -/
structure SocketAddress where
  host : HostAddress
  port : Nat
deriving DecidableEq, Repr

/-- Why a text is no address to listen on. -/
inductive AddressError where
  /-- It cannot be resolved, for a reason that the machine gives. -/
  | unresolved (reason : String)
  /-- It is resolved, but no address is found. -/
  | noAddress
deriving DecidableEq, Repr

/-- What is wrong with a text, in words. -/
def AddressError.message (text : String) : AddressError → String
  | .unresolved reason => text ++ ": " ++ reason
  | .noAddress => text ++ " resolved to no address"

/-! ### Writing -/

/-- A dotted address. -/
def dottedText (octets : List Nat) : String := ".".intercalate (octets.map decimal)

/-- A group in hexadecimal, without leading zeros. -/
def groupText (group : Nat) : String := String.ofList (Nat.toDigits 16 group)

/-- Groups separated by colons. -/
def groupsText (groups : List Nat) : String := ":".intercalate (groups.map groupText)

/-- The start and length of the first longest run of zero groups, when reading continues at
`position` with a run of `current` zeros just behind it. -/
def longestZeroRun (position current : Nat) (best : Nat × Nat) : List Nat → Nat × Nat
  | [] => best
  | 0 :: groups =>
    let current := current + 1
    let best := if best.2 < current then (position + 1 - current, current) else best
    longestZeroRun (position + 1) current best groups
  | _ :: groups => longestZeroRun (position + 1) 0 best groups

/-- Eight groups: a mapped dotted address keeps its dots, and the first longest run of at
least two zero groups is left out. -/
def sixText (groups : List Nat) : String :=
  match groups with
  | [0, 0, 0, 0, 0, 0xffff, high, low] =>
    "::ffff:" ++ dottedText [high / 256, high % 256, low / 256, low % 256]
  | _ =>
    let (start, length) := longestZeroRun 0 0 (0, 0) groups
    if 1 < length then
      groupsText (groups.take start) ++ "::" ++ groupsText (groups.drop (start + length))
    else groupsText groups

/-- The text of a socket address. -/
def SocketAddress.text (a : SocketAddress) : String :=
  match a.host with
  | .v4 octets => dottedText octets ++ ":" ++ decimal a.port
  | .v6 groups scope =>
    let zone := if scope = 0 then "" else "%" ++ decimal scope
    "[" ++ sixText groups ++ zone ++ "]:" ++ decimal a.port

namespace AddressText

/-! ### Reading strict addresses -/

/-- The value of a digit in a base up to sixteen. -/
def digitIn? (base : Nat) (c : Char) : Option Nat :=
  let value :=
    if isDigit c then c.toNat - '0'.toNat
    else if 'a' ≤ c ∧ c ≤ 'f' then c.toNat - 'a'.toNat + 10
    else if 'A' ≤ c ∧ c ≤ 'F' then c.toNat - 'A'.toNat + 10
    else base
  if value < base then some value else none

/-- The number a list of digits in a base stands for. -/
def valueIn (base : Nat) (digits : List Char) : Nat :=
  digits.foldl (fun total c => base * total + (digitIn? base c).getD 0) 0

/-- Read a run of one to `most` digits that stands for a number below `bound`. -/
def readNumber (base most bound : Nat) (zeros : Bool) (cs : List Char) :
    Option (Nat × List Char) :=
  let digits := cs.takeWhile fun c => (digitIn? base c).isSome
  let value := valueIn base digits
  if digits = [] ∨ most < digits.length ∨ bound ≤ value then none
  else if !zeros && digits.length ≠ 1 && digits.head? = some '0' then none
  else some (value, cs.drop digits.length)

/-- Read one given character. -/
def expect (c : Char) : List Char → Option (List Char)
  | d :: rest => if d = c then some rest else none
  | [] => none

/-- Read an octet without superfluous zeros. -/
def readOctet (cs : List Char) : Option (Nat × List Char) := readNumber 10 3 256 false cs

/-- Read four octets separated by dots. -/
def readFour (cs : List Char) : Option (List Nat × List Char) := do
  let (a, cs) ← readOctet cs
  let (b, cs) ← readOctet (← expect '.' cs)
  let (c, cs) ← readOctet (← expect '.' cs)
  let (d, cs) ← readOctet (← expect '.' cs)
  return ([a, b, c, d], cs)

/-- Skip the colon before every group but the first. -/
def separator (first : Bool) (cs : List Char) : Option (List Char) :=
  if first then some cs else expect ':' cs

/-- Read up to `room` groups. A dotted address may stand for the last two; the truth value
says whether it did. -/
def readGroups (first : Bool) : Nat → List Char → List Nat × Bool × List Char
  | 0, cs => ([], false, cs)
  | room + 1, cs =>
    match (if 0 < room then (separator first cs).bind readFour else none) with
    | some ([a, b, c, d], rest) => ([256 * a + b, 256 * c + d], true, rest)
    | _ =>
      match (separator first cs).bind (readNumber 16 4 0x10000 true) with
      | some (group, rest) =>
        let (groups, dotted, rest) := readGroups false room rest
        (group :: groups, dotted, rest)
      | none => ([], false, cs)

/-- Read eight groups, where one run of zeros may be left out between two colons. -/
def readSix (cs : List Char) : Option (List Nat × List Char) := do
  let (head, dotted, cs) := readGroups true 8 cs
  if head.length = 8 then return (head, cs)
  if dotted then none
  let cs ← expect ':' (← expect ':' cs)
  let (tail, _, cs) := readGroups true (7 - head.length) cs
  return (head ++ List.replicate (8 - head.length - tail.length) 0 ++ tail, cs)

/-- Read the number of a network interface after a percent sign, if there is one. -/
def readScope (cs : List Char) : Option (Nat × List Char) :=
  match cs with
  | '%' :: rest => readNumber 10 rest.length 0x100000000 true rest
  | _ => some (0, cs)

/-- Read a port after a colon. -/
def readPort (cs : List Char) : Option (Nat × List Char) := do
  let cs ← expect ':' cs
  readNumber 10 cs.length 0x10000 true cs

/-! ### Reading lenient hosts -/

/-- A part of a host: decimal, octal after a zero, hexadecimal after `0x`. -/
def partValue? (part : List Char) : Option Nat :=
  let (base, digits) :=
    match part with
    | '0' :: 'x' :: digits => (16, digits)
    | '0' :: 'X' :: digits => (16, digits)
    | '0' :: digits => (8, '0' :: digits)
    | digits => (10, digits)
  if digits ≠ [] ∧ digits.all (fun c => (digitIn? base c).isSome) then
    some (valueIn base digits)
  else none

/-- A host of one to four parts, where the last part fills all the octets that are left. -/
def fewParts? (cs : List Char) : Option (List Nat) := do
  let parts ← (cs.splitOn '.').mapM partValue?
  let fixed := parts.dropLast
  let last ← parts.getLast?
  let left := 4 - fixed.length
  if 4 < parts.length ∨ fixed.any (255 < ·) ∨ Nat.pow 256 left ≤ last then none
  return fixed ++ (List.range left).reverse.map fun i => last / Nat.pow 256 i % 256

/-- A numeric host. -/
def host? (cs : List Char) : Option HostAddress :=
  match readSix cs with
  | some (groups, []) => some (.v6 groups 0)
  | _ => (fewParts? cs).map .v4

/-- The parts of a text before and after its last colon. -/
def splitLastColon (cs : List Char) : Option (List Char × List Char) :=
  let after := (cs.reverse.takeWhile (· ≠ ':')).reverse
  if after.length = cs.length then none
  else some (cs.take (cs.length - after.length - 1), after)

end AddressText

open AddressText in
/-- The socket address in strict form. -/
def SocketAddress.ofText? (text : String) : Option SocketAddress :=
  match text.toList with
  | '[' :: cs => do
    let (groups, cs) ← readSix cs
    let (scope, cs) ← readScope cs
    let (port, cs) ← readPort (← expect ']' cs)
    if cs = [] then some ⟨.v6 groups scope, port⟩ else none
  | cs => do
    let (octets, cs) ← readFour cs
    let (port, cs) ← readPort cs
    if cs = [] then some ⟨.v4 octets, port⟩ else none

/-! ### Resolving -/

/-- How a machine finds the addresses that a text stands for: all of them in order, or why there
are none, in its own words. -/
abbrev Resolver := String → Except String (List SocketAddress)

/-- The resolver of a machine that looks up hosts in a given way. A text in strict form is not
looked up. -/
def Resolver.ofLookup (lookup : String → Except String (List HostAddress)) : Resolver :=
  fun text =>
    match SocketAddress.ofText? text with
    | some a => .ok [a]
    | none =>
      match AddressText.splitLastColon text.toList with
      | none => .error "invalid socket address"
      | some (host, port) =>
        match readUnsigned 16 (String.ofList port) with
        | .error _ => .error "invalid port value"
        | .ok port =>
          match lookup (String.ofList host) with
          | .error reason => .error reason
          | .ok hosts => .ok (hosts.map fun host => ⟨host, port.toNat⟩)

/-- Look up a host without a network, where only numeric addresses are known. -/
def numericHosts (host : String) : Except String (List HostAddress) :=
  match AddressText.host? host.toList with
  | some a => .ok [a]
  | none => .error "failed to lookup address information: Name or service not known"

/-- The address of a listener: the first one that the text stands for. A text that begins with its
colon means all interfaces. -/
def SocketAddress.ofListenText (resolve : Resolver) (text : String) :
    Except AddressError SocketAddress :=
  match resolve (if text.toList.head? = some ':' then "0.0.0.0" ++ text else text) with
  | .error reason => .error (.unresolved reason)
  | .ok [] => .error .noAddress
  | .ok (a :: _) => .ok a

end ArithService
