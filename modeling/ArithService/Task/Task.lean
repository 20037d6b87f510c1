import ArithService.Expression.Work
import ArithService.Json.Writer
import ArithService.Task.Status
import ArithService.Time.Timestamp

/-!
# Tasks

The record of one submitted expression, from submission to result.

## Main Definitions

* `Task` — the record
* `Task.fresh` — a task as submitted
* `Task.work` — what a worker has to do for it
* `Task.hasEndedLease` — whether its worker is taken to be gone
* `Task.json` — its form in responses
-/

namespace ArithService

/-- One unit of arithmetic work and what became of it. -/
structure Task where
  id : String
  /-- The user who submitted it. -/
  owner : Int
  /-- The text as submitted. -/
  expression : String
  /-- The operands of a single operation; empty otherwise. -/
  arg1 : String
  arg2 : String
  /-- The operator of a single operation; empty for a whole expression. -/
  operation : String
  result : Option Binary64
  status : TaskStatus
  createdAt : Instant
  startedAt : Option Instant
  completedAt : Option Instant
  /-- Until when the claim of the current worker holds. -/
  leaseExpiresAt : Option Instant
deriving DecidableEq, Repr

/-- The columns in which a unit of work is recorded: left operand, right operand, operator. -/
def Work.columns : Work → String × String × String
  | .binary left o right => (left, right, o.text)
  | .expression _ => ("", "", "")

namespace Task

/-- A task that has just been submitted. -/
def fresh (id : String) (owner : Int) (expression : String) (work : Work)
    (createdAt : Instant) : Task :=
  { id, owner, expression
    arg1 := work.columns.1
    arg2 := work.columns.2.1
    operation := work.columns.2.2
    result := none
    status := .pending
    createdAt
    startedAt := none
    completedAt := none
    leaseExpiresAt := none }

/-- The work a task stands for. Without an operator it is the whole expression. -/
def work (t : Task) : Except ExpressionError Work :=
  if t.operation = "" then .ok (.expression t.expression)
  else
    match Operator.ofText t.operation with
    | .ok o => .ok (.binary t.arg1 o t.arg2)
    | .error e => .error e

/-- Whether the task is in progress under a lease that has ended. -/
def hasEndedLease (t : Task) (now : Instant) : Bool :=
  t.status = .inProgress &&
    match t.leaseExpiresAt with
    | some deadline => deadline.atMost now
    | none => false

/-- A member that is left out when there is nothing to say. -/
def optionalMember (name : String) (value : Option String) : List (String × String) :=
  match value with
  | some text => [(name, text)]
  | none => []

/-- A time as a JSON string. -/
def timeJson (t : Instant) : String := jsonString t.shortText

/-- The task as a JSON object. Absent members are left out. -/
def json (t : Task) : String :=
  jsonObject
    ([("id", jsonString t.id), ("user_id", toString t.owner),
      ("expression", jsonString t.expression), ("arg1", jsonString t.arg1),
      ("arg2", jsonString t.arg2), ("operation", jsonString t.operation)] ++
    optionalMember "result" (t.result.map Binary64.jsonText) ++
    [("status", jsonString t.status.text), ("created_at", timeJson t.createdAt)] ++
    optionalMember "started_at" (t.startedAt.map timeJson) ++
    optionalMember "completed_at" (t.completedAt.map timeJson) ++
    optionalMember "lease_expires_at" (t.leaseExpiresAt.map timeJson))

end Task

end ArithService
