import ArithService.Config.Setting

/-!
# Worker configuration

## Main Definitions

* `WorkerSettings` — the settings of a worker
* `WorkerSettings.read` — the settings from variables, with defaults
* `endpointOf` — the endpoint a configured address means
-/

namespace ArithService

/-- The settings of a worker. Times are in milliseconds. -/
structure WorkerSettings where
  /-- The endpoint of the dispatcher. -/
  endpoint : String
  connectMillis : Nat
  /-- The wait when there is no task. -/
  idleMillis : Nat
  /-- The wait after a failed call. -/
  retryMillis : Nat
  /-- The wait after each task. -/
  pauseMillis : Nat
deriving DecidableEq, Repr

/-- Whether a text names a scheme somewhere: it holds a colon and two slashes in a row. -/
def hasScheme : List Char → Bool
  | [] => false
  | c :: cs => (c :: cs).take 3 = [':', '/', '/'] || hasScheme cs

/-- The endpoint that an address means: a bare host and port is spoken to in plain HTTP. -/
def endpointOf (address : String) : String :=
  if hasScheme address.toList then address else "http://" ++ address

namespace WorkerSettings

/-- The endpoint of the dispatcher: a blank value counts as unset. -/
def readEndpoint (vars : Variables) : String :=
  match vars "ORCHESTRATOR_ADDRESS" with
  | some value => if isBlank value then "http://localhost:50051" else endpointOf (trim value)
  | none => "http://localhost:50051"

/-- The variables that are read. -/
def variableNames : List String :=
  ["ORCHESTRATOR_ADDRESS", "AGENT_IDLE_MS", "AGENT_RETRY_MS", "AGENT_PAUSE_MS"]

/-- Read the settings from variables. -/
def read (vars : Variables) : Except SettingError WorkerSettings := do
  let idle ← readNumber (readUnsigned 64) vars "AGENT_IDLE_MS" 1000
  let retry ← readNumber (readUnsigned 64) vars "AGENT_RETRY_MS" 5000
  let pause ← readNumber (readUnsigned 64) vars "AGENT_PAUSE_MS" 500
  return {
    endpoint := readEndpoint vars
    connectMillis := 5000
    idleMillis := idle.toNat
    retryMillis := retry.toNat
    pauseMillis := pause.toNat }

end WorkerSettings

end ArithService
