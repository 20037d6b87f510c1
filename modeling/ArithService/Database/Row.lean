import ArithService.Database.Fault
import ArithService.Task.Task
import ArithService.Time.Reader

/-!
# Rows

Tasks as rows of a table.

## Main Definitions

* `TaskColumn` — the columns of a table of tasks
* `TaskRow` — a row
* `TaskRow.ofTask` — the row of a new task
* `TaskRow.toTask` — the task in a row
* `TaskRow.before` — the order in which rows are handed out

## Design Notes

Times are stored as text, and the order of rows is the order of these texts. Text is read up
to its first zero character. The numbers of tables keep neither NaN nor the sign of zero.
-/

namespace ArithService

/-- A column of a table of tasks. -/
inductive TaskColumn where
  | id
  | owner
  | expression
  | arg1
  | arg2
  | operation
  | result
  | status
  | createdAt
  | startedAt
  | completedAt
  | leaseExpiresAt
deriving DecidableEq, Repr

namespace TaskColumn

/-- The name of a column. -/
def name : TaskColumn → String
  | id => "id"
  | owner => "user_id"
  | expression => "expression"
  | arg1 => "arg1"
  | arg2 => "arg2"
  | operation => "operation"
  | result => "result"
  | status => "status"
  | createdAt => "created_at"
  | startedAt => "started_at"
  | completedAt => "completed_at"
  | leaseExpiresAt => "lease_expires_at"

/-- All columns, in the order in which they are read. -/
def all : List TaskColumn :=
  [id, owner, expression, arg1, arg2, operation, result, status, createdAt, startedAt,
    completedAt, leaseExpiresAt]

/-- The columns that a new task gives values to. -/
def ofNewTask : List TaskColumn :=
  [id, owner, expression, arg1, arg2, operation, status, createdAt]

/-- The column with a name. Letter case does not count. -/
def ofName? (text : String) : Option TaskColumn :=
  all.find? fun c => c.name.toList = text.toList.map Char.toLower

end TaskColumn

/-- A row of a table of tasks. -/
structure TaskRow where
  id : Option String
  owner : Int
  expression : String
  arg1 : String := ""
  arg2 : String := ""
  operation : String := ""
  result : Option Binary64 := none
  status : String := "pending"
  createdAt : String
  startedAt : Option String := none
  completedAt : Option String := none
  leaseExpiresAt : Option String := none
deriving DecidableEq, Repr

/-- A text as it is read back: up to its first zero character. -/
def textRead (text : String) : String := String.ofList (text.toList.takeWhile (·.toNat ≠ 0))

/-- A number as a table keeps it. -/
def storedNumber : Binary64 → Option Binary64
  | .nan => none
  | x => some (if x.isZero then .zero else x)

namespace TaskRow

/-- The row of a new task. -/
def ofTask (t : Task) : TaskRow where
  id := some t.id
  owner := t.owner
  expression := t.expression
  arg1 := t.arg1
  arg2 := t.arg2
  operation := t.operation
  status := t.status.text
  createdAt := t.createdAt.text

/-- The instant in a stored text. -/
def timeRead (text : String) : Instant := .ofText (textRead text)

/-- The task in a row. -/
def toTask (r : TaskRow) : Except RowFault Task :=
  match TaskStatus.ofText? (textRead r.status) with
  | none => .error (.unknownStatus (TaskStatus.unknownMessage (textRead r.status)))
  | some status =>
    match r.id with
    | none => .error .null
    | some id =>
      .ok {
        id := textRead id
        owner := r.owner
        expression := textRead r.expression
        arg1 := textRead r.arg1
        arg2 := textRead r.arg2
        operation := textRead r.operation
        result := r.result
        status
        createdAt := timeRead r.createdAt
        startedAt := r.startedAt.map timeRead
        completedAt := r.completedAt.map timeRead
        leaseExpiresAt := r.leaseExpiresAt.map timeRead }

/-- Whether an identifier comes before another; a row without one comes first. -/
def idBefore : Option String → Option String → Bool
  | _, none => false
  | none, some _ => true
  | some a, some b => a < b

/-- Whether a row is older than another: by the time of creation, then by identifier. -/
def before (a b : TaskRow) : Bool :=
  a.createdAt < b.createdAt || (a.createdAt = b.createdAt && idBefore a.id b.id)

/-- Whether a row is in progress under a lease that has ended by a time. -/
def hasEndedLease (at_ : String) (r : TaskRow) : Bool :=
  r.status = "in_progress" &&
    match r.leaseExpiresAt with
    | some deadline => deadline ≤ at_
    | none => false

/-- A row as it was before it was claimed. -/
def released (r : TaskRow) : TaskRow :=
  { r with status := TaskStatus.pending.text, startedAt := none, leaseExpiresAt := none }

/-- A row as it is handed out. -/
def claimed (now deadline : String) (r : TaskRow) : TaskRow :=
  { r with status := TaskStatus.inProgress.text, startedAt := some now,
           leaseExpiresAt := some deadline }

/-- A row with its result. -/
def completed (now : String) (result : Binary64) (r : TaskRow) : TaskRow :=
  { r with status := TaskStatus.completed.text, result := storedNumber result,
           completedAt := some now, leaseExpiresAt := none }

end TaskRow

end ArithService
