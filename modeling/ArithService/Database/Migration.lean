import ArithService.Database.Schema

/-!
# Migrations

Bringing a database up to date, version by version.

## Main Definitions

* `Migration`, `migrations` — the versions of the schema
* `MigrationStep` — one step of an upgrade
* `upgradeSteps` — the steps from a version on
* `Database.upgrade` — a whole upgrade

## Design Notes

An upgrade looks up the highest recorded version and then carries out and records every later
version in order. Each step takes effect by itself; the first one that fails ends the upgrade,
and what came before it stays.
-/

namespace ArithService

/-- A version of the schema. -/
structure Migration where
  version : Int
  name : String
  statements : List SchemaStatement
deriving DecidableEq, Repr

/-- The versions of the schema, in order. -/
def migrations : List Migration :=
  [⟨1, "initial_schema",
      [.createUsers, .createTasks, .createIndex .byStatus, .createIndex .byOwner]⟩,
    ⟨2, "task_leases", [.addLease, .createIndex .byStatusAndCreation]⟩]

/-- The columns of migration records. -/
def migrationColumns : List MigrationColumn :=
  [⟨"version", false, true⟩, ⟨"name", true, false⟩, ⟨"applied_at", false, false⟩]

namespace Database

/-- The database with a table of migration records. -/
def withMigrationTable (db : Database) : Database :=
  match db.migrations with
  | some _ => db
  | none => { db with migrations := some ⟨migrationColumns, []⟩ }

/-- The highest recorded version; zero if there is none. -/
def recordedVersion (db : Database) : Except SqlFault Int :=
  match db.migrations with
  | none => .error (.noTable TableName.migrations.text)
  | some t =>
    if t.columns.any (·.name = "version") then
      match (t.rows.map (·.1)).max? with
      | some version => .ok version
      | none => .ok 0
    else .error (.noColumn "version")

/-- Record a version. A record that breaks a rule of the table is refused where `strict`, and
otherwise left out. -/
def recordVersion (strict : Bool) (version : Int) (name : String) (db : Database) :
    Except SqlFault Database :=
  match db.migrations with
  | none => .error (.noTable TableName.migrations.text)
  | some t =>
    match ["version", "name"].find? fun c => !t.columns.any (·.name = c) with
    | some missing => .error (.noTargetColumn TableName.migrations.text missing)
    | none =>
      match db.triggered .migrations .insert with
      | some .abort => .error .refused
      | some .ignore => .ok db
      | none =>
        let unfilled := t.columns.find? fun c =>
          c.required && c.name ≠ "version" && c.name ≠ "name"
        let isTaken (c : MigrationColumn) : Bool :=
          c.distinct && t.rows.any fun r =>
            (c.name = "version" && r.1 = version) || (c.name = "name" && r.2 = name)
        match unfilled with
        | some c =>
          if strict then .error (.missingValue (TableName.migrations.text ++ "." ++ c.name))
          else .ok db
        | none =>
          match t.columns.find? isTaken with
          | some c =>
            if strict then .error (.notUnique (TableName.migrations.text ++ "." ++ c.name))
            else .ok db
          | none =>
            .ok { db with migrations := some { t with rows := t.rows ++ [(version, name)] } }

end Database

/-- One step of an upgrade. -/
inductive MigrationStep where
  | statement (m : Migration) (s : SchemaStatement)
  | record (m : Migration)
deriving DecidableEq, Repr

/-- The effect of a step. -/
def MigrationStep.run (db : Database) : MigrationStep → Except StoreError Database
  | .statement m s =>
    match s.run db with
    | .ok db => .ok db
    | .error f =>
      .error (.migration ("Migration V" ++ toString m.version ++ " (" ++ m.name ++ ") failed: " ++
        f.message))
  | .record m =>
    match db.recordVersion false m.version m.name with
    | .ok db => .ok db
    | .error f =>
      .error (.migration ("Failed to record V" ++ toString m.version ++ ": " ++ f.message))

/-- The steps of a migration. -/
def Migration.steps (m : Migration) : List MigrationStep :=
  m.statements.map (.statement m) ++ [.record m]

/-- The steps of an upgrade from a recorded version. -/
def upgradeSteps (version : Int) : List MigrationStep :=
  (migrations.filter (version < ·.version)).flatMap Migration.steps

/-- Carry out steps in order up to the first one that fails. -/
def runSteps : List MigrationStep → Database → Except StoreError Unit × Database
  | [], db => (.ok (), db)
  | step :: rest, db =>
    match step.run db with
    | .ok db => runSteps rest db
    | .error e => (.error e, db)

/-- Bring a database up to date. -/
def Database.upgrade (db : Database) : Except StoreError Unit × Database :=
  let db := db.withMigrationTable
  match db.recordedVersion with
  | .error f => (.error (.migration ("Failed to query migration version: " ++ f.message)), db)
  | .ok version => runSteps (upgradeSteps version) db

end ArithService
