import ArithService.Dispatch.Message
import ArithService.Store.Store

/-!
# Dispatcher and worker

The dispatcher hands pending tasks to workers and takes in their results.

## Main Definitions

* `CallError` — why a call is refused
* `handOut`, `takeIn` — the two calls on a store
* `Dispatcher` — the two calls as a worker sees them
* `Dispatcher.poll` — one round of a worker
* `runRounds` — rounds until there is nothing to do

## Design Notes

A worker only knows the calls, so that its round is the same with every dispatcher. A round
never fails because of a result that is not accepted: the task is then handed out again when
its lease has ended.
-/

namespace ArithService

/-- Why a call is refused. -/
inductive CallError where
  | notFound (text : String)
  | invalidArgument (text : String)
  | internal (text : String)
  | unavailable (text : String)
deriving DecidableEq, Repr

namespace CallError

/-- The text of a refusal. -/
def message : CallError → String
  | notFound text => text
  | invalidArgument text => text
  | internal text => text
  | unavailable text => text

/-- How a storage error is reported to a worker. -/
def ofStore : StoreError → CallError
  | .notFound entity id => .notFound (entity ++ " " ++ id ++ " not found")
  | _ => .internal "storage failure"

end CallError

/-! ### Calls on a store -/

section Calls

variable {σ : Type} [Store σ]

/-- Hand out the oldest pending task under a lease. -/
def handOut (lease : Span) (now : Instant) (s : σ) : Except CallError Assignment × σ :=
  match Store.claim now lease s with
  | (.ok (some t), s) => (.ok (.ofTask t), s)
  | (.ok none, s) => (.ok {}, s)
  | (.error e, s) => (.error (.ofStore e), s)

/-- Take in the result of a task. Only finite results are accepted. -/
def takeIn (now : Instant) (r : ResultReport) (s : σ) : Except CallError Acknowledgement × σ :=
  if r.id = "" then (.error (.invalidArgument "task id is required"), s)
  else if !r.result.isFinite then
    (.error (.invalidArgument "result must be a finite number"), s)
  else
    match Store.complete now r.id r.result s with
    | (.ok (), s) => (.ok ⟨true⟩, s)
    | (.error e, s) => (.error (.ofStore e), s)

end Calls

/-! ### Workers -/

/-- What a round of a worker came to. -/
inductive Round where
  /-- There was nothing to do. -/
  | idle
  /-- A task was computed and handed in, whether or not the result was accepted. -/
  | handled
  /-- A task could not be computed, and nothing was handed in. -/
  | skipped
deriving DecidableEq, Repr

/-- A dispatcher as a worker sees it: the two calls, on a state of its own. -/
structure Dispatcher (σ : Type) where
  next : σ → Except CallError Assignment × σ
  submit : ResultReport → σ → Except CallError Acknowledgement × σ

namespace Dispatcher

variable {σ : Type}

/-- The dispatcher of a store at two readings of the clock, one for each call. -/
def ofStore [Store σ] (lease : Span) (now later : Instant) : Dispatcher σ where
  next := handOut lease now
  submit r := takeIn later r.received

/-- The outcome of a task that was handed out, before its result is handed in. -/
def workOn (d : Dispatcher σ) (m : Assignment) (s : σ) : Round × σ :=
  if m.id = "" then (.idle, s)
  else
    match m.compute with
    | .ok result => (.handled, (d.submit ⟨m.id, result⟩ s).2)
    | .error _ => (.skipped, s)

/-- One round of a worker: ask for a task, compute it, and hand in the result. -/
def poll (d : Dispatcher σ) (s : σ) : Except CallError Round × σ :=
  match d.next s with
  | (.error e, s) => (.error e, s)
  | (.ok m, s) =>
    let (round, s) := d.workOn m s
    (.ok round, s)

end Dispatcher

/-- Rounds of a worker, each with its own dispatcher, until one finds nothing to do or fails. -/
def runRounds {σ : Type} : List (Dispatcher σ) → σ → σ
  | [], s => s
  | d :: rest, s =>
    match d.poll s with
    | (.ok .idle, s) => s
    | (.ok _, s) => runRounds rest s
    | (.error _, s) => s

end ArithService
