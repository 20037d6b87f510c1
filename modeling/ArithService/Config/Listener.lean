import ArithService.Config.Address

/-!
# Listeners

Where a program can listen for connections.

## Main Definitions

* `SocketAddress.overlaps` — addresses that cannot both have a listener
* `ListenError` — why an address cannot be listened on
* `checkListener` — whether a listener can be added to others

## Design Notes

Port zero stands for a free port that the system picks, so it never meets another listener.
A listener on all interfaces of the newer protocol serves the older one as well.
-/

namespace ArithService

namespace HostAddress

/-- Whether the address stands for all interfaces. -/
def isAny : HostAddress → Bool
  | v4 octets => octets.all (· = 0)
  | v6 groups _ => groups.all (· = 0)

/-- Whether the address is one under which every machine reaches itself. -/
def isLoopback : HostAddress → Bool
  | v4 octets => octets.head? = some 127
  | v6 groups _ => groups = [0, 0, 0, 0, 0, 0, 0, 1]

/-- Whether the first address stands for all interfaces and takes in the second one. -/
def covers (a : HostAddress) : HostAddress → Bool
  | v4 _ => a.isAny
  | v6 .. =>
    match a with
    | v4 _ => false
    | v6 .. => a.isAny

/-- Whether some connection could go to either address. -/
def overlaps (a b : HostAddress) : Bool := a = b || a.covers b || b.covers a

end HostAddress

/-- Whether some connection could go to either address, so that only one of them can have a
listener. -/
def SocketAddress.overlaps (a b : SocketAddress) : Bool :=
  a.port ≠ 0 && a.port = b.port && a.host.overlaps b.host

/-- Why an address cannot be listened on. -/
inductive ListenError where
  /-- Another listener gets the connections. -/
  | inUse
  /-- No interface of the machine has the address. -/
  | elsewhere
deriving DecidableEq, Repr

/-- The reason in words, with the number that the system has for it. -/
def ListenError.message : ListenError → String
  | .inUse => "Address already in use (os error 98)"
  | .elsewhere => "Cannot assign requested address (os error 99)"

/-- Whether a listener can be added to those at the addresses `taken`, on a machine that has
the addresses `hasHost`. -/
def checkListener (hasHost : HostAddress → Bool) (taken : List SocketAddress)
    (a : SocketAddress) : Except ListenError Unit :=
  if !a.host.isAny && !hasHost a.host then .error .elsewhere
  else if taken.any a.overlaps then .error .inUse
  else .ok ()

end ArithService
