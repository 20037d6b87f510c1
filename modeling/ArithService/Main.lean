import ArithService.Startup

/-!
# Programs

The server and the worker as programs of one command line, configured by variables of the
environment.

## Main Definitions

* `environment` — the variables of the process
* `main` — a run of the server, or of the worker if the first argument is `agent`

## Design Notes

A run that can start goes on until its standard input has a line or ends.
-/

namespace ArithService

/-- The variables of the process among the given names. -/
def environment (names : List String) : IO Variables := do
  let found ← names.mapM fun name => do return (name, ← IO.getEnv name)
  return fun name => (found.find? (·.1 = name)).bind (·.2)

/-- Report the end of a run, after waiting for it where the run can start. -/
def finish (exit : Exit) : IO UInt32 := do
  if exit.code = 0 then
    let input ← IO.getStdin
    discard input.getLine
  else
    IO.eprint exit.errors
  return UInt32.ofNat exit.code

/-- Run the program that the first argument names. -/
def runProgram (arguments : List String) : IO UInt32 := do
  if arguments.head? = some "agent" then
    finish (workerExit (← environment WorkerSettings.variableNames))
  else
    finish (serverExit .bare (← environment ServerSettings.variableNames))

end ArithService

/-- A run of the server, or of the worker if the first argument is `agent`. -/
def main (arguments : List String) : IO UInt32 := ArithService.runProgram arguments
