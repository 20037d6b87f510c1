import ArithService.Config.Setting

/-!
# Server configuration

## Main Definitions

* `ServerSettings` — the settings of the server
* `ServerSettings.read` — the settings from variables, with defaults

## Design Notes

All variables are read before any bound is checked. Of several wrong variables, the first one
in this order of steps is reported.
-/

namespace ArithService

/-- The settings of the server. -/
structure ServerSettings where
  httpAddress : SocketAddress
  dispatchAddress : SocketAddress
  /-- The database file; `:memory:` keeps everything in the process. -/
  databasePath : String
  /-- The key that signs tokens. -/
  secret : String
  tokenLifetime : Span
  /-- How long a claimed task may stay in progress before it is handed out again. -/
  taskLease : Span
  /-- Seconds between two sweeps for expired leases. -/
  sweepSeconds : Nat
  /-- Binary logarithm of the rounds of password hashing. -/
  hashCost : Nat
deriving DecidableEq, Repr

namespace ServerSettings

/-- A port on all interfaces. -/
def anyInterface (port : Nat) : SocketAddress := ⟨.v4 [0, 0, 0, 0], port⟩

/-- The signing key of an unconfigured server. -/
def defaultSecret : String := "secret"

/-- The signing key: an empty value counts as unset. -/
def readSecret (vars : Variables) : String :=
  match vars "JWT_SECRET" with
  | some value => if value = "" then defaultSecret else value
  | none => defaultSecret

/-- The longest lifetime of tokens, in hours: one year. -/
def mostTokenHours : Nat := 24 * 365

/-- The longest lease and the longest time between sweeps, in seconds: one week. -/
def mostIntervalSeconds : Nat := 7 * 24 * 60 * 60

/-- The variables that are read. -/
def variableNames : List String :=
  ["SERVER_ADDRESS", "GRPC_ADDRESS", "DB_PATH", "JWT_SECRET", "JWT_TTL_HOURS", "TASK_LEASE_SECS",
    "LEASE_SWEEP_SECS", "BCRYPT_COST"]

/-- Read the settings from variables, on a machine that resolves addresses in a given way. -/
def read (resolve : Resolver) (vars : Variables) : Except SettingError ServerSettings := do
  let httpAddress ← readListenAddress resolve vars "SERVER_ADDRESS" (anyInterface 8080)
  let dispatchAddress ← readListenAddress resolve vars "GRPC_ADDRESS" (anyInterface 50051)
  let tokenHours ← readNumber readInt64 vars "JWT_TTL_HOURS" 24
  let leaseSeconds ← readNumber readInt64 vars "TASK_LEASE_SECS" 60
  let sweepSeconds ← readNumber (readUnsigned 64) vars "LEASE_SWEEP_SECS" 30
  let hashCost ← readNumber (readUnsigned 32) vars "BCRYPT_COST" 12
  let tokenLifetime ← boundedSpan "JWT_TTL_HOURS" 3600 mostTokenHours tokenHours
  let taskLease ← boundedSpan "TASK_LEASE_SECS" 1 mostIntervalSeconds leaseSeconds
  checkBounds "LEASE_SWEEP_SECS" 1 mostIntervalSeconds sweepSeconds
  checkBounds "BCRYPT_COST" 4 31 hashCost
  return {
    httpAddress
    dispatchAddress
    databasePath := (vars "DB_PATH").getD "./calc.db"
    secret := readSecret vars
    tokenLifetime
    taskLease
    sweepSeconds := sweepSeconds.toNat
    hashCost := hashCost.toNat }

end ServerSettings

end ArithService
