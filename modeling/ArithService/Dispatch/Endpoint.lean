import ArithService.Http.Uri

/-!
# Endpoints

Which texts a worker can use as the address of its dispatcher.

## Main Definitions

* `isEndpoint` — whether a text is a usable address
* `EndpointError` — why a worker cannot talk to its dispatcher
* `resolveEndpoint` — an address, or the error for an unusable one
-/

namespace ArithService

/-- Whether an address is usable: it only has to be well-formed. -/
def isEndpoint (text : String) : Bool := (uriPath? text).isSome

/-- Why a worker cannot talk to its dispatcher. -/
inductive EndpointError where
  | invalidAddress (address reason : String)
  | connect (address reason : String)
deriving DecidableEq, Repr

/-- The text of a transport error. -/
def EndpointError.message : EndpointError → String
  | .invalidAddress address reason => "Invalid orchestrator address " ++ address ++ ": " ++ reason
  | .connect address reason => "Failed to connect to " ++ address ++ ": " ++ reason

/-- An address that a worker can use. -/
def resolveEndpoint (address : String) : Except EndpointError String :=
  if isEndpoint address then .ok address else .error (.invalidAddress address "invalid URI")

/-- The error for a usable address at which nobody answers. -/
def unreachable (address : String) : EndpointError := .connect address "transport error"

end ArithService
