import ArithService.Config.Listener
import ArithService.Config.Server
import ArithService.Config.Worker
import ArithService.Database.Medium
import ArithService.Dispatch.Endpoint

/-!
# Startup of the programs

What a user sees of a program that cannot start.

## Main Definitions

* `Exit` — exit code and error output of a run
* `Machine` — what a program finds where it runs
* `serverExit`, `workerExit` — a run that is told to stop as soon as it works

## Design Notes

A run that starts logs to its standard output and ends without an error when it is told to
stop. A run that cannot start names what it was doing and the cause. The server opens its
store before it listens, and listens for clients before it listens for workers.
-/

namespace ArithService

/-- How a run ends. -/
structure Exit where
  code : Nat
  /-- What was written to standard error. -/
  errors : String
deriving DecidableEq, Repr

/-- The end of a run that was told to stop. -/
def Exit.stopped : Exit := ⟨0, ""⟩

/-- The lines of a text, each indented by four spaces. -/
def indented (text : String) : String :=
  String.ofList ("    ".toList ++
    text.toList.flatMap fun c => if c = '\n' then '\n' :: "    ".toList else [c])

/-- The end of a run that failed. -/
def Exit.failed (context cause : String) : Exit :=
  ⟨1, "Error: " ++ context ++ "\n\nCaused by:\n" ++ indented cause ++ "\n"⟩

/-- What a program finds where it runs. -/
structure Machine where
  /-- What is found where a path says that the database is. -/
  medium : String → Medium
  /-- The addresses that a host has, or why there are none. -/
  lookup : String → Except String (List HostAddress)
  /-- Whether the machine has an address. -/
  hasHost : HostAddress → Bool

namespace Machine

/-- Whether a path says that it names a directory. -/
def isDirectoryPath (path : String) : Bool :=
  path.toList.getLast? = some '/' || [".", "..", "/tmp"].contains path

/-- A machine without a network and without databases, on which `/dev/null` is a file. -/
def bare : Machine where
  medium path :=
    if isDirectoryPath path then .directory
    else if path.startsWith "/dev/null/" then .blocked
    else .nothing
  lookup := numericHosts
  hasHost := HostAddress.isLoopback

/-- Open the store at a path; `:memory:` is no file. -/
def openStore (machine : Machine) (path : String) : Except StoreError DatabaseStore :=
  if path = ":memory:" then .ok .empty else ((machine.medium path).open_ path).1

end Machine

/-- A run of the server that is told to stop once it serves. -/
def serverExit (machine : Machine) (vars : Variables) : Exit :=
  match ServerSettings.read (.ofLookup machine.lookup) vars with
  | .error e => .failed "invalid server configuration" e.message
  | .ok settings =>
    match machine.openStore settings.databasePath with
    | .error e => .failed ("failed to open database at " ++ settings.databasePath) e.message
    | .ok _ =>
      match checkListener machine.hasHost [] settings.httpAddress with
      | .error e =>
        .failed ("failed to bind http listener on " ++ settings.httpAddress.text) e.message
      | .ok () =>
        match checkListener machine.hasHost [settings.httpAddress] settings.dispatchAddress with
        | .error e =>
          .failed ("failed to bind grpc listener on " ++ settings.dispatchAddress.text) e.message
        | .ok () => .stopped

/-- A run of a worker that is told to stop while it works or looks for its dispatcher. -/
def workerExit (vars : Variables) : Exit :=
  match WorkerSettings.read vars with
  | .error e => .failed "invalid agent configuration" e.message
  | .ok config =>
    match resolveEndpoint config.endpoint with
    | .ok _ => .stopped
    | .error e => .failed "agent failed" e.message

end ArithService
