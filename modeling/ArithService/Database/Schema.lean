import ArithService.Database.Row
import ArithService.Store.Store

/-!
# Schema

The tables of a database, and the statements that create them.

## Main Definitions

* `Database` — users, tasks and migration records, with indexes and triggers
* `SchemaStatement` — creating tables and indexes and adding a column
* `SchemaStatement.run` — its effect

## Design Notes

A trigger fires before a row changes and before constraints are checked. Creating what is
there already has no effect, except for a column, which cannot be added twice.
-/

namespace ArithService

/-! ### Tables -/

/-- A row of a table of users without rules. -/
structure LooseUser where
  id : Option Int
  login : Option String
  passwordHash : Option String
deriving DecidableEq, Repr

/-- A table of users. -/
inductive UserTable where
  /-- Logins are unique, and users are numbered; `lastId` is the highest number ever given. -/
  | numbered (lastId : Int) (rows : List User)
  /-- Neither logins nor numbers have to be there. -/
  | loose (rows : List LooseUser)
deriving DecidableEq, Repr

/-- What stands under the name of the table of tasks. -/
inductive TaskTable where
  | absent
  | table (columns : List TaskColumn) (rows : List TaskRow)
  /-- A view of a single column `id` whose value cannot be computed. -/
  | brokenView
deriving DecidableEq, Repr

/-- A column of a table of migration records. -/
structure MigrationColumn where
  name : String
  /-- Whether a record has to give it a value. -/
  required : Bool
  /-- Whether its values are distinct. -/
  distinct : Bool
deriving DecidableEq, Repr

/-- A table of migration records: versions and names. -/
structure MigrationTable where
  columns : List MigrationColumn
  rows : List (Int × String)
deriving DecidableEq, Repr

/-- An index on tasks. -/
inductive TaskIndex where
  | byStatus
  | byOwner
  | byStatusAndCreation
deriving DecidableEq, Repr

/-- The name of an index. -/
def TaskIndex.name : TaskIndex → String
  | .byStatus => "idx_tasks_status"
  | .byOwner => "idx_tasks_user"
  | .byStatusAndCreation => "idx_tasks_status_created"

/-- The columns of an index. -/
def TaskIndex.columns : TaskIndex → List TaskColumn
  | .byStatus => [.status]
  | .byOwner => [.owner]
  | .byStatusAndCreation => [.status, .createdAt]

/-- The name of a table. -/
inductive TableName where
  | users
  | tasks
  | migrations
deriving DecidableEq, Repr

/-- A table's name as text. -/
def TableName.text : TableName → String
  | .users => "users"
  | .tasks => "tasks"
  | .migrations => "_migrations"

/-- A change of a row that a trigger can wait for. -/
inductive RowEvent where
  | insert
  | update
deriving DecidableEq, Repr

/-- What a trigger does to the change. -/
inductive TriggerAction where
  /-- The whole statement fails. -/
  | abort
  /-- The row is left out. -/
  | ignore
deriving DecidableEq, Repr

/-- A trigger on a table. -/
structure Trigger where
  table : TableName
  event : RowEvent
  action : TriggerAction
deriving DecidableEq, Repr

/-- A database. -/
structure Database where
  users : Option UserTable := none
  tasks : TaskTable := .absent
  migrations : Option MigrationTable := none
  indexes : List TaskIndex := []
  /-- The triggers, latest first. -/
  triggers : List Trigger := []
deriving DecidableEq, Repr

namespace Database

/-- What happens to a change of a row: the latest trigger decides. -/
def triggered (db : Database) (table : TableName) (event : RowEvent) : Option TriggerAction :=
  (db.triggers.find? fun t => t.table = table && t.event = event).map (·.action)

/-- The triggers on other tables. -/
def triggersExcept (db : Database) (table : TableName) : List Trigger :=
  db.triggers.filter (·.table ≠ table)

end Database

/-! ### Statements -/

/-- A statement that extends the schema. -/
inductive SchemaStatement where
  | createUsers
  | createTasks
  | createIndex (index : TaskIndex)
  | addLease
deriving DecidableEq, Repr

/-- The columns of tasks in the first version of the schema. -/
def firstTaskColumns : List TaskColumn :=
  [.id, .owner, .expression, .arg1, .arg2, .operation, .result, .status, .createdAt, .startedAt,
    .completedAt]

/-- The effect of a statement that extends the schema. -/
def SchemaStatement.run (db : Database) : SchemaStatement → Except SqlFault Database
  | .createUsers =>
    match db.users with
    | some _ => .ok db
    | none => .ok { db with users := some (.numbered 0 []) }
  | .createTasks =>
    match db.tasks with
    | .absent => .ok { db with tasks := .table firstTaskColumns [] }
    | _ => .ok db
  | .createIndex index =>
    match db.tasks with
    | .absent => .error (.noTable "main.tasks")
    | .brokenView => .error .viewIndex
    | .table columns _ =>
      if db.indexes.contains index then .ok db
      else
        match index.columns.find? (!columns.contains ·) with
        | some c => .error (.noColumn c.name)
        | none => .ok { db with indexes := db.indexes ++ [index] }
  | .addLease =>
    match db.tasks with
    | .absent => .error (.noTable "tasks")
    | .brokenView => .error .viewColumn
    | .table columns rows =>
      if columns.contains .leaseExpiresAt then
        .error (.duplicateColumn TaskColumn.leaseExpiresAt.name)
      else
        .ok { db with
          tasks := .table (columns ++ [.leaseExpiresAt])
            (rows.map fun r => { r with leaseExpiresAt := none }) }

end ArithService
