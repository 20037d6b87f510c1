import ArithService.Config.Address
import ArithService.Time.Span

/-!
# Settings

Reading single settings from named variables.

## Main Definitions

* `Variables` — a source of variables
* `SettingError` — which variable is wrong, and how
* `readListenAddress`, `readNumber` — settings with a default for unset variables
* `boundedSpan` — a number of units within bounds, as a span of time
-/

namespace ArithService

/-- A source of variables: the value of each one that is set. -/
abbrev Variables := String → Option String

/-- What is wrong with the value of a variable. -/
inductive SettingFault where
  /-- No address to listen on; the text is the value without white space around it. -/
  | address (text : String) (reason : AddressError)
  /-- No number of the wanted range of bits. -/
  | integer (reason : IntegerError)
  /-- A number outside its bounds. -/
  | outOfBounds (low high : Nat)
  /-- A number of units that no span of time can hold. -/
  | outOfRange
deriving DecidableEq, Repr

/-- The fault in words. -/
def SettingFault.message : SettingFault → String
  | .address text reason => reason.message text
  | .integer reason => reason.message
  | .outOfBounds low high => "must be between " ++ decimal low ++ " and " ++ decimal high
  | .outOfRange => "out of range"

/-- A variable with a value that cannot be used. -/
structure SettingError where
  key : String
  fault : SettingFault
deriving DecidableEq, Repr

/-- The text of a configuration error. -/
def SettingError.message (e : SettingError) : String :=
  "Invalid configuration value for " ++ e.key ++ ": " ++ e.fault.message

/-- Read an address to listen on. -/
def readListenAddress (resolve : Resolver) (vars : Variables) (key : String)
    (default : SocketAddress) : Except SettingError SocketAddress :=
  match vars key with
  | none => .ok default
  | some value =>
    match SocketAddress.ofListenText resolve (trim value) with
    | .ok a => .ok a
    | .error reason => .error ⟨key, .address (trim value) reason⟩

/-- Read a number in the way given by `reader`, ignoring white space around it. -/
def readNumber (reader : String → Except IntegerError Int) (vars : Variables) (key : String)
    (default : Int) : Except SettingError Int :=
  match vars key with
  | none => .ok default
  | some value =>
    match reader (trim value) with
    | .ok n => .ok n
    | .error reason => .error ⟨key, .integer reason⟩

/-- Check that a number lies within bounds. -/
def checkBounds (key : String) (low high : Nat) (n : Int) : Except SettingError Unit :=
  if low ≤ n ∧ n ≤ high then .ok () else .error ⟨key, .outOfBounds low high⟩

/-- A number of units of `seconds` seconds, if a span of time can hold it. -/
def Span.ofUnits? (seconds : Nat) (n : Int) : Option Span :=
  let d := Span.ofSeconds (n * seconds)
  if d.nanoseconds.natAbs ≤ Span.longest.nanoseconds.natAbs then some d else none

/-- A number of units between one and `high`, as a span of time. -/
def boundedSpan (key : String) (seconds high : Nat) (n : Int) : Except SettingError Span :=
  match checkBounds key 1 high n with
  | .error e => .error e
  | .ok () =>
    match Span.ofUnits? seconds n with
    | some d => .ok d
    | none => .error ⟨key, .outOfRange⟩

end ArithService
