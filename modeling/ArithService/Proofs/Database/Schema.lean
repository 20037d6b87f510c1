import Mathlib
import ArithService.Database.Migration

/-!
# Schemas and rows

An upgrade does not look at rows, and keeps them. So what it does to the schema can be computed on
databases without rows, and what becomes of the rows need not be looked at for each schema.

## Main Definitions

* `Database.schema` — a database without its rows
* `Database.userTable`, `Database.taskRows` — the rows, as its columns show them
* `Database.SameRows` — two databases with the same rows

## Main Results

* `MigrationStep.run_schema`, `Database.upgrade_schema` — an upgrade of the schema is the schema of
  the upgrade
* `MigrationStep.sameRows`, `Database.sameRows_upgrade` — an upgrade keeps the rows
* `Database.eq_of_schema` — where the tasks have all columns, schema and rows are all there is

## Design Notes

A table of tasks without a column for leases shows none, whatever the rows carry. A table that is
not there has no rows, so creating it keeps the rows too.
-/

namespace ArithService

/-! ### Schema and rows -/

/-- A table of users without its rows. -/
def UserTable.emptied : UserTable → UserTable
  | .numbered _ _ => .numbered 0 []
  | .loose _ => .loose []

/-- A table of tasks without its rows. -/
def TaskTable.emptied : TaskTable → TaskTable
  | .table columns _ => .table columns []
  | other => other

/-- The rows of a table of tasks, as its columns show them. -/
def TaskTable.rows : TaskTable → List TaskRow
  | .table columns rows =>
    if columns.contains .leaseExpiresAt then rows
    else rows.map fun r => { r with leaseExpiresAt := none }
  | _ => []

namespace Database

/-- A database without its rows. -/
def schema (db : Database) : Database :=
  { db with users := db.users.map .emptied, tasks := db.tasks.emptied }

/-- The users; where there is no table, those of a new one. -/
def userTable (db : Database) : UserTable := db.users.getD (.numbered 0 [])

/-- The tasks; where there is no table, there are none. -/
def taskRows (db : Database) : List TaskRow := db.tasks.rows

/-- Whether two databases have the same rows. -/
structure SameRows (a b : Database) : Prop where
  users : a.userTable = b.userTable
  tasks : a.taskRows = b.taskRows

theorem SameRows.refl (db : Database) : SameRows db db := ⟨rfl, rfl⟩

theorem SameRows.trans {a b c : Database} (h : SameRows a b) (hnext : SameRows b c) :
    SameRows a c :=
  ⟨h.users.trans hnext.users, h.tasks.trans hnext.tasks⟩

theorem SameRows.symm {a b : Database} (h : SameRows a b) : SameRows b a :=
  ⟨h.users.symm, h.tasks.symm⟩

@[simp] theorem schema_migrations (db : Database) : db.schema.migrations = db.migrations := rfl

@[simp] theorem schema_indexes (db : Database) : db.schema.indexes = db.indexes := rfl

@[simp] theorem schema_triggered (db : Database) (table : TableName) (event : RowEvent) :
    db.schema.triggered table event = db.triggered table event := rfl

@[simp] theorem schema_recordedVersion (db : Database) :
    db.schema.recordedVersion = db.recordedVersion := rfl

/-- **Schema and rows are all there is**, where the tasks have all columns. Where the column for
leases is missing, rows could differ in what it does not show. -/
theorem eq_of_schema {a b : Database} (husers : a.schema.users.isSome)
    (htasks : a.schema.tasks = .table TaskColumn.all []) (hschema : a.schema = b.schema)
    (hrows : SameRows a b) : a = b := by
  obtain ⟨aUsers, aTasks, aMigrations, aIndexes, aTriggers⟩ := a
  obtain ⟨bUsers, bTasks, bMigrations, bIndexes, bTriggers⟩ := b
  obtain ⟨huserRows, htaskRows⟩ := hrows
  simp only [schema, Database.mk.injEq] at hschema husers htasks
  obtain ⟨huserSchema, htaskSchema, rfl, rfl, rfl⟩ := hschema
  have hsameUsers : aUsers = bUsers := by
    cases aUsers with
    | none => simp at husers
    | some u =>
      cases bUsers with
      | none => simp at huserSchema
      | some v => simpa [userTable] using huserRows
  have hsameTasks : aTasks = bTasks := by
    cases aTasks with
    | absent => cases htasks
    | brokenView => cases htasks
    | table aColumns aRows =>
      cases bTasks with
      | absent => cases htaskSchema
      | brokenView => cases htaskSchema
      | table bColumns bRows =>
        simp only [TaskTable.emptied, TaskTable.table.injEq, and_true] at htasks htaskSchema
        obtain rfl := htasks
        obtain rfl := htaskSchema
        simpa [taskRows, TaskTable.rows, TaskColumn.all] using htaskRows
  rw [hsameUsers, hsameTasks]

end Database

/-! ### Statements -/

/-- A statement does to the schema what it does to the database: none of them looks at a row, and
none fails because of one. -/
theorem SchemaStatement.run_schema (statement : SchemaStatement) (db : Database) :
    statement.run db.schema = (statement.run db).map Database.schema := by
  obtain ⟨users, tasks, migrations, indexes, triggers⟩ := db
  cases statement with
  | createUsers =>
    cases users with
    | none => rfl
    | some table => rfl
  | createTasks => cases tasks <;> rfl
  | createIndex index =>
    cases tasks with
    | absent => rfl
    | brokenView => rfl
    | table columns rows =>
      by_cases hthere : indexes.contains index = true
      · simp only [SchemaStatement.run, Database.schema, TaskTable.emptied, hthere, if_true]
        rfl
      · simp only [SchemaStatement.run, Database.schema, TaskTable.emptied, hthere]
        cases index.columns.find? (!columns.contains ·) <;> rfl
  | addLease =>
    cases tasks with
    | absent => rfl
    | brokenView => rfl
    | table columns rows =>
      by_cases hthere : columns.contains .leaseExpiresAt = true
      · simp only [SchemaStatement.run, Database.schema, TaskTable.emptied, hthere, if_true]
        rfl
      · simp only [SchemaStatement.run, Database.schema, TaskTable.emptied, hthere]
        rfl

/-- A statement keeps the rows, as its columns show them. A column that is added shows nothing in
any row. -/
theorem SchemaStatement.sameRows {statement : SchemaStatement} {db after : Database}
    (h : statement.run db = .ok after) : Database.SameRows after db := by
  obtain ⟨users, tasks, migrations, indexes, triggers⟩ := db
  cases statement with
  | createUsers =>
    cases users with
    | none =>
      obtain rfl := Except.ok.inj h
      exact ⟨rfl, rfl⟩
    | some table =>
      obtain rfl := Except.ok.inj h
      exact .refl _
  | createTasks =>
    cases tasks with
    | absent =>
      obtain rfl := Except.ok.inj h
      exact ⟨rfl, rfl⟩
    | brokenView =>
      obtain rfl := Except.ok.inj h
      exact .refl _
    | table columns rows =>
      obtain rfl := Except.ok.inj h
      exact .refl _
  | createIndex index =>
    cases tasks with
    | absent => cases h
    | brokenView => cases h
    | table columns rows =>
      simp only [SchemaStatement.run] at h
      split_ifs at h
      · obtain rfl := Except.ok.inj h
        exact .refl _
      · split at h
        · cases h
        · obtain rfl := Except.ok.inj h
          exact ⟨rfl, rfl⟩
  | addLease =>
    cases tasks with
    | absent => cases h
    | brokenView => cases h
    | table columns rows =>
      simp only [SchemaStatement.run] at h
      split_ifs at h with hlease
      obtain rfl := Except.ok.inj h
      have hadded : (columns ++ [TaskColumn.leaseExpiresAt]).contains .leaseExpiresAt = true := by
        simp
      refine ⟨rfl, ?_⟩
      simp only [Database.taskRows, TaskTable.rows, hadded, hlease, if_true]
      rfl

/-! ### Steps -/

/-- Recording a version does to the schema what it does to the database, and changes no table but
that of the records. -/
theorem Database.recordVersion_schema (strict : Bool) (version : Int) (name : String)
    (db : Database) :
    db.schema.recordVersion strict version name =
      (db.recordVersion strict version name).map Database.schema := by
  simp only [recordVersion, schema_migrations, schema_triggered]
  cases db.migrations with
  | none => rfl
  | some t =>
    dsimp only
    split
    · rfl
    · split
      · rfl
      · rfl
      · split
        · split_ifs <;> rfl
        · split
          · split_ifs <;> rfl
          · rfl

theorem Database.sameRows_recordVersion {strict : Bool} {version : Int} {name : String}
    {db after : Database} (h : db.recordVersion strict version name = .ok after) :
    SameRows after db := by
  unfold recordVersion at h
  split at h
  · cases h
  · split at h
    · cases h
    · split at h
      · cases h
      · obtain rfl := Except.ok.inj h
        exact .refl _
      · dsimp only at h
        split at h
        · split_ifs at h
          obtain rfl := Except.ok.inj h
          exact .refl _
        · split at h
          · split_ifs at h
            obtain rfl := Except.ok.inj h
            exact .refl _
          · obtain rfl := Except.ok.inj h
            exact ⟨rfl, rfl⟩

/-- A step does to the schema what it does to the database. -/
theorem MigrationStep.run_schema (step : MigrationStep) (db : Database) :
    step.run db.schema = (step.run db).map Database.schema := by
  cases step with
  | statement m statement =>
    simp only [MigrationStep.run, statement.run_schema]
    cases statement.run db <;> rfl
  | record m =>
    simp only [MigrationStep.run, Database.recordVersion_schema]
    cases db.recordVersion false m.version m.name <;> rfl

/-- A step keeps the rows. -/
theorem MigrationStep.sameRows {step : MigrationStep} {db after : Database}
    (h : step.run db = .ok after) : Database.SameRows after db := by
  cases step with
  | statement m statement =>
    simp only [MigrationStep.run] at h
    split at h
    next hrun =>
      obtain rfl := Except.ok.inj h
      exact SchemaStatement.sameRows hrun
    next => cases h
  | record m =>
    simp only [MigrationStep.run] at h
    split at h
    next hrecord =>
      obtain rfl := Except.ok.inj h
      exact Database.sameRows_recordVersion hrecord
    next => cases h

/-! ### Runs -/

/-- Steps do to the schema what they do to the database, up to the first one that fails. So where
they fail can be computed without rows. -/
theorem runSteps_schema (steps : List MigrationStep) (db : Database) :
    runSteps steps db.schema = ((runSteps steps db).1, (runSteps steps db).2.schema) := by
  induction steps generalizing db with
  | nil => rfl
  | cons step rest ih =>
    simp only [runSteps, step.run_schema]
    cases step.run db with
    | ok after => exact ih after
    | error e => rfl

/-- Steps keep the rows, also where one fails. -/
theorem sameRows_runSteps (steps : List MigrationStep) (db : Database) :
    Database.SameRows (runSteps steps db).2 db := by
  induction steps generalizing db with
  | nil => exact .refl db
  | cons step rest ih =>
    simp only [runSteps]
    cases hstep : step.run db with
    | ok after => exact (ih after).trans (MigrationStep.sameRows hstep)
    | error e => exact .refl db

namespace Database

theorem schema_withMigrationTable (db : Database) :
    db.schema.withMigrationTable = db.withMigrationTable.schema := by
  simp only [withMigrationTable, schema_migrations]
  cases db.migrations <;> rfl

theorem sameRows_withMigrationTable (db : Database) : SameRows db.withMigrationTable db := by
  unfold withMigrationTable
  split
  · exact .refl db
  · exact ⟨rfl, rfl⟩

/-- **An upgrade does to the schema what it does to the database.** There are few schemas, so what
upgrades do to them can be computed once and for all rows. -/
theorem upgrade_schema (db : Database) :
    db.schema.upgrade = (db.upgrade.1, db.upgrade.2.schema) := by
  simp only [upgrade, schema_withMigrationTable, schema_recordedVersion]
  cases db.withMigrationTable.recordedVersion with
  | error f => rfl
  | ok version => exact runSteps_schema _ _

/-- **An upgrade keeps the rows**, also where it fails. -/
theorem sameRows_upgrade (db : Database) : SameRows db.upgrade.2 db := by
  simp only [upgrade]
  cases db.withMigrationTable.recordedVersion with
  | error f => exact sameRows_withMigrationTable db
  | ok version => exact (sameRows_runSteps _ _).trans (sameRows_withMigrationTable db)

end Database

end ArithService
