import ArithService.Database.Migration
import ArithService.Database.Query
import ArithService.Database.Value

/-!
# Maintenance

Changes that are made to a database by hand, behind the back of a store.

## Main Definitions

* `MaintenanceAction` — a change
* `MaintenanceAction.run` — its effect
* `SchemaSummary`, `Database.summary` — what a database consists of

## Design Notes

A change may be several statements. Each statement takes effect by itself, so that a change
that fails may have been made in part.
-/

namespace ArithService

namespace Database

/-! ### Rows -/

/-- The columns that have to have a value, with the value they have by themselves. -/
def requiredColumns : List (TaskColumn × Option String) :=
  [(.expression, none), (.arg1, some ""), (.arg2, some ""), (.operation, some ""),
    (.status, some TaskStatus.pending.text), (.createdAt, none)]

/-- The text of a column in a row given by hand. -/
def givenText (row : List (TaskColumn × SqlValue)) (c : TaskColumn) (default : Option String) :
    Option String :=
  match row.find? (·.1 = c) with
  | some (_, v) => v.asText
  | none => default

/-- The row that the given values make. -/
def rowOfValues (existing : List TaskColumn) (row : List (TaskColumn × SqlValue)) :
    Except SqlFault TaskRow :=
  match requiredColumns.find? fun (c, d) => existing.contains c && (givenText row c d).isNone with
  | some (c, _) => .error (.missingValue ("tasks." ++ c.name))
  | none =>
    let text (c : TaskColumn) (d : String) : String := (givenText row c (some d)).getD d
    let optional (c : TaskColumn) : Option String := givenText row c none
    let owner :=
      match row.find? (·.1 = .owner) with
      | some (_, v) => v
      | none => .null
    match owner, owner.asInteger? with
    | .null, _ => .error (.missingValue "tasks.user_id")
    | _, none => .error .foreignKey
    | _, some owner =>
      .ok {
        id := optional .id
        owner
        expression := text .expression ""
        arg1 := text .arg1 ""
        arg2 := text .arg2 ""
        operation := text .operation ""
        result :=
          match row.find? (·.1 = .result) with
          | some (_, v) => v.asReal.bind storedNumber
          | none => none
        status := text .status TaskStatus.pending.text
        createdAt := text .createdAt ""
        startedAt := optional .startedAt
        completedAt := optional .completedAt
        leaseExpiresAt := optional .leaseExpiresAt }

/-- The columns of the tasks. -/
def taskColumns (db : Database) : List TaskColumn :=
  match db.tasks with
  | .absent => []
  | .table columns _ => columns
  | .brokenView => [.id]

/-- Insert a task of which some columns are given by name. A row that a trigger leaves out does
not have to be complete. -/
def insertValues (db : Database) (row : List (String × SqlValue)) : Except SqlFault Database :=
  match row.find? fun (name, _) => (TaskColumn.ofName? name).isNone with
  | some (name, _) => .error (.noTargetColumn TableName.tasks.text name)
  | none =>
    let row := row.filterMap fun (name, v) => (TaskColumn.ofName? name).map (·, v)
    let columns := row.map (·.1)
    match rowOfValues db.taskColumns row with
    | .ok r => db.insertTask columns r
    | .error f =>
      if db.triggered .tasks .insert = some .ignore then
        db.insertTask columns { id := none, owner := 0, expression := "", createdAt := "" }
      else .error f

/-! ### Tables -/

/-- Drop the table of tasks, with its indexes and triggers. -/
def dropTasks (db : Database) : Except SqlFault Database :=
  match db.tasks with
  | .table _ _ =>
    .ok { db with tasks := .absent, indexes := [], triggers := db.triggersExcept .tasks }
  | _ => .error (.noTable TableName.tasks.text)

/-- Put a view in the place of the table of tasks. -/
def breakTasks (db : Database) : Except SqlFault Database :=
  match db.dropTasks with
  | .ok db => .ok { db with tasks := .brokenView }
  | .error f => .error f

/-- The owners of the tasks. -/
def owners (db : Database) : List Int :=
  match db.tasks with
  | .table _ rows => rows.map (·.owner)
  | _ => []

/-- The numbers of the users. -/
def userIds (db : Database) : List Int :=
  match db.users with
  | none => []
  | some (.numbered _ rows) => rows.map (·.id)
  | some (.loose rows) => rows.filterMap (·.id)

/-- Drop the table of users, with its triggers. No user may own a task. -/
def dropUsers (db : Database) : Except SqlFault Database :=
  match db.users with
  | none => .error (.noTable TableName.users.text)
  | some _ =>
    if db.owners.any db.userIds.contains then .error .foreignKey
    else .ok { db with users := none, triggers := db.triggersExcept .users }

/-- Put users without rules in the place of the table of users. Their numbers are unique. -/
def replaceUsers (rows : List LooseUser) (db : Database) : Except SqlFault Database :=
  match db.dropUsers with
  | .error f => .error f
  | .ok db =>
    if (rows.filterMap (·.id)).Nodup then .ok { db with users := some (.loose rows) }
    else .error (.notUnique "users.id")

/-- Drop a column of the tasks that is not part of a key or of an index. -/
def dropColumn (name : String) (db : Database) : Except SqlFault Database :=
  match db.tasks, TaskColumn.ofName? name with
  | .table columns rows, some c =>
    if !columns.contains c then .error (.noColumn name)
    else if c = .id ∨ c = .owner ∨ db.indexes.any (·.columns.contains c) then
      .error (.neededColumn name)
    else .ok { db with tasks := .table (columns.filter (· ≠ c)) rows }
  | .table _ _, none => .error (.noColumn name)
  | _, _ => .error (.noTable TableName.tasks.text)

/-- Drop an index. -/
def dropIndex (index : TaskIndex) (db : Database) : Except SqlFault Database :=
  if db.indexes.contains index then
    .ok { db with indexes := db.indexes.filter (· ≠ index) }
  else .error (.noIndex index.name)

/-- Forget a recorded version. -/
def forgetVersion (version : Int) (db : Database) : Except SqlFault Database :=
  match db.migrations with
  | none => .error (.noTable TableName.migrations.text)
  | some t =>
    if t.columns.any (·.name = "version") then
      .ok { db with migrations := some { t with rows := t.rows.filter (·.1 ≠ version) } }
    else .error (.noColumn "version")

/-- Put an empty table with the given columns in the place of the migration records. -/
def replaceMigrations (columns : List MigrationColumn) (db : Database) :
    Except SqlFault Database :=
  match db.migrations with
  | none => .error (.noTable TableName.migrations.text)
  | some _ =>
    .ok { db with
      migrations := some ⟨columns, []⟩, triggers := db.triggersExcept .migrations }

/-- Add a trigger to a table. -/
def addTrigger (t : Trigger) (db : Database) : Except SqlFault Database :=
  let isTable :=
    match t.table with
    | .users => db.users.isSome
    | .migrations => db.migrations.isSome
    | .tasks =>
      match db.tasks with
      | .table _ _ => true
      | _ => false
  if isTable then .ok { db with triggers := t :: db.triggers }
  else .error (.noTable ("main." ++ t.table.text))

end Database

/-! ### Definitions of columns -/

/-- The words of a text. -/
def words (cs : List Char) : List String :=
  ((cs.splitBy fun a b => isWhiteSpace a = isWhiteSpace b).filter fun w =>
    !w.all isWhiteSpace).map String.ofList

/-- Whether a list contains another one as a run. -/
def hasRun (run : List String) : List String → Bool
  | [] => run = []
  | w :: ws => (w :: ws).take run.length = run || hasRun run ws

/-- The column that a definition describes: a name, a type and constraints. -/
def MigrationColumn.ofDefinition? (definition : String) : Option MigrationColumn :=
  match words (definition.toList.map Char.toLower) with
  | [] => none
  | name :: rest =>
    let isNumber := hasRun ["integer", "primary", "key"] rest
    some {
      name
      required := hasRun ["not", "null"] rest && !rest.contains "default" && !isNumber
      distinct := hasRun ["primary", "key"] rest || rest.contains "unique" }

/-! ### Actions -/

/-- A change made by hand. -/
inductive MaintenanceAction where
  | insertTask (row : List (String × SqlValue))
  /-- Undo the latest version of the schema. -/
  | downgrade
  | forgetVersion (version : Int)
  | addVersion (version : Int) (name : String)
  | dropTasks
  | dropUsers
  | dropColumn (name : String)
  | breakTasks
  | replaceUsers (rows : List LooseUser)
  | replaceMigrations (columns : List MigrationColumn)
  | addTrigger (t : Trigger)
deriving DecidableEq, Repr

namespace MaintenanceAction

/-- The statements of a change. -/
def statements : MaintenanceAction → List (Database → Except SqlFault Database)
  | insertTask row => [(·.insertValues row)]
  | downgrade =>
    [Database.dropIndex .byStatusAndCreation,
      Database.dropColumn TaskColumn.leaseExpiresAt.name, Database.forgetVersion 2]
  | forgetVersion version => [Database.forgetVersion version]
  | addVersion version name => [Database.recordVersion true version name]
  | dropTasks => [Database.dropTasks]
  | dropUsers => [Database.dropUsers]
  | dropColumn name => [Database.dropColumn name]
  | breakTasks => [Database.breakTasks]
  | replaceUsers rows => [Database.replaceUsers rows]
  | replaceMigrations columns => [Database.replaceMigrations columns]
  | addTrigger t => [Database.addTrigger t]

/-- Carry out statements up to the first one that fails. -/
def runStatements :
    List (Database → Except SqlFault Database) → Database → Except SqlFault Unit × Database
  | [], db => (.ok (), db)
  | statement :: rest, db =>
    match statement db with
    | .ok db => runStatements rest db
    | .error f => (.error f, db)

/-- The effect of a change. -/
def run (a : MaintenanceAction) (db : Database) : Except SqlFault Unit × Database :=
  runStatements a.statements db

end MaintenanceAction

/-! ### Summary -/

/-- What a database consists of. -/
structure SchemaSummary where
  /-- The recorded versions with their names, in order. -/
  versions : List (Int × String)
  /-- Kind and name of tables, views, indexes and triggers, in order. -/
  objects : List String
  /-- The columns of the tasks. -/
  columns : List String
deriving DecidableEq, Repr

/-- The name of a trigger. -/
def Trigger.name (t : Trigger) : String :=
  let event :=
    match t.event with
    | .insert => "insert"
    | .update => "update"
  "refuse_" ++ t.table.text ++ "_" ++ event

namespace Database

/-- Kind and name of everything in a database. -/
def objects (db : Database) : List String :=
  let tables :=
    (if db.users.isSome then ["table:users"] else []) ++
      (if db.migrations.isSome then ["table:_migrations"] else []) ++
      (match db.tasks with
        | .absent => []
        | .table _ _ => ["table:tasks"]
        | .brokenView => ["view:tasks"])
  let all :=
    tables ++ db.indexes.map (fun i => "index:" ++ i.name) ++
      db.triggers.map (fun t => "trigger:" ++ t.name)
  all.mergeSort fun a b => a ≤ b

/-- What a database consists of. -/
def summary (db : Database) : Except SqlFault SchemaSummary :=
  match db.migrations with
  | none => .error (.noTable TableName.migrations.text)
  | some t =>
    match ["version", "name"].find? fun c => !t.columns.any (·.name = c) with
    | some missing => .error (.noColumn missing)
    | none =>
      .ok {
        versions := t.rows.mergeSort fun a b => a.1 ≤ b.1
        objects := db.objects
        columns := db.taskColumns.map TaskColumn.name }

end Database

end ArithService
