import Mathlib
import ArithService.Proofs.Database.Interruption
import ArithService.Proofs.Database.Store

/-!
# Upgrades lose nothing

A database of any version, whatever its rows are and whatever else is recorded in it, is brought up
to date by the migrations above its version. No row is lost, and from then on neither an upgrade
nor opening the database again changes anything.

## Main Definitions

* `Database.records` — the recorded versions, with their names
* `Database.IsAtVersion` — a database of a version
* `UpgradesTo` — what an upgrade makes of a database of a version
* `Upkeep`, `DatabaseStore.keepUp` — upgrades and openings that follow

## Main Results

* `Migration.run_steps` — a migration leads from the schema of the version before to its own
* `runSteps_ladder` — migrations one after the other lead as far as they go
* `supported_databases_upgrade` — what becomes of a database of any version

## Design Notes

Statements that extend the schema do not look at the records, and recording a version does not look
at anything else. So a migration is computed on a schema without records
(`run_statements_schemaOf`), and the records are followed beside it, whatever they are.

A database of a version above the latest one has the schema of the latest one, since there is
nothing else that `Database.schemaOf` counts.
-/

namespace ArithService

/-! ### Versions -/

namespace Database

/-- The recorded versions, with their names. -/
def records (db : Database) : List (Int × String) :=
  match db.migrations with
  | some t => t.rows
  | none => []

/-- A database with other records. -/
def withRecords (db : Database) (t : Option MigrationTable) : Database :=
  { db with migrations := t }

/-- A database of a version: it is the highest one that is recorded, or zero where none is, and
apart from the records the schema is that of the version. -/
structure IsAtVersion (version : Int) (db : Database) : Prop where
  table : ∀ t, db.migrations = some t → t.columns = migrationColumns
  highest : IsGreatest {recorded | ∃ name, (recorded, name) ∈ db.records} version ∨
    db.records = [] ∧ version = 0
  schema : db.schema.withRecords none = (schemaOf version).withRecords none

@[simp] theorem withRecords_migrations (db : Database) (t : Option MigrationTable) :
    (db.withRecords t).migrations = t := rfl

@[simp] theorem withRecords_withRecords (db : Database) (t u : Option MigrationTable) :
    (db.withRecords t).withRecords u = db.withRecords u := rfl

theorem withRecords_self (db : Database) : db.withRecords db.migrations = db := rfl

/-- No record is above the version, so a version above it is a new one. -/
theorem IsAtVersion.le {version : Int} {db : Database} (h : db.IsAtVersion version)
    {r : Int × String} (hr : r ∈ db.records) : r.1 ≤ version := by
  rcases h.highest with hgreatest | ⟨hnone, -⟩
  · exact hgreatest.2 ⟨r.2, hr⟩
  · simp [hnone] at hr

/-- Once there is a table for it, the recorded version is the version. A database without the table
is one without records, and of version zero. -/
theorem IsAtVersion.withMigrationTable {version : Int} {db : Database}
    (h : db.IsAtVersion version) :
    db.withMigrationTable.migrations = some ⟨migrationColumns, db.records⟩ ∧
      db.withMigrationTable.recordedVersion = .ok version := by
  have htable : db.withMigrationTable.migrations = some ⟨migrationColumns, db.records⟩ := by
    unfold Database.withMigrationTable records
    cases hstored : db.migrations with
    | none => rfl
    | some t => rw [hstored, ← h.table t hstored]
  have hcolumn : migrationColumns.any (·.name = "version") = true := by decide
  refine ⟨htable, ?_⟩
  simp only [recordedVersion, htable, hcolumn, if_true]
  rcases h.highest with ⟨⟨name, hmem⟩, hbound⟩ | ⟨hnone, rfl⟩
  · have hmax : (db.records.map (·.1)).max? = some version := by
      refine List.max?_eq_some_iff.2 ⟨List.mem_map.2 ⟨_, hmem, rfl⟩, fun recorded hrecorded => ?_⟩
      obtain ⟨r, hr, rfl⟩ := List.mem_map.1 hrecorded
      exact hbound ⟨r.2, hr⟩
    rw [hmax]
  · rw [hnone]
    rfl

/-- A version that is greater than all recorded ones is recorded behind them. The table of records
refuses a version that it has already, which does not come up here. -/
theorem recordVersion_new {db : Database} {rows : List (Int × String)} {version : Int}
    (htable : db.migrations = some ⟨migrationColumns, rows⟩) (htriggers : db.triggers = [])
    (hnew : ∀ r ∈ rows, r.1 < version) (strict : Bool) (name : String) :
    db.recordVersion strict version name =
      .ok (db.withRecords (some ⟨migrationColumns, rows ++ [(version, name)]⟩)) := by
  have haction : db.triggered .migrations .insert = none := by simp [triggered, htriggers]
  have hfree : rows.any (fun r => decide (r.1 = version)) = false := by
    rw [List.any_eq_false]
    intro r hr
    simpa using ne_of_lt (hnew r hr)
  simp [recordVersion, htable, haction, migrationColumns, hfree, withRecords]

end Database

/-! ### Migrations -/

/-- A statement does not look at the records, so it does on any records what it does on none. -/
theorem SchemaStatement.run_withRecords (statement : SchemaStatement) (db : Database)
    (t : Option MigrationTable) :
    statement.run (db.withRecords t) = (statement.run db).map (·.withRecords t) := by
  obtain ⟨users, tasks, migrations, indexes, triggers⟩ := db
  cases statement with
  | createUsers => cases users <;> rfl
  | createTasks => cases tasks <;> rfl
  | createIndex index =>
    cases tasks with
    | absent => rfl
    | brokenView => rfl
    | table columns rows =>
      by_cases hthere : indexes.contains index = true
      · simp only [SchemaStatement.run, Database.withRecords, hthere, if_true]
        rfl
      · simp only [SchemaStatement.run, Database.withRecords, hthere]
        cases index.columns.find? (!columns.contains ·) <;> rfl
  | addLease =>
    cases tasks with
    | absent => rfl
    | brokenView => rfl
    | table columns rows =>
      by_cases hthere : columns.contains .leaseExpiresAt = true
      · simp only [SchemaStatement.run, Database.withRecords, hthere, if_true]
        rfl
      · simp only [SchemaStatement.run, Database.withRecords, hthere]
        rfl

theorem runSteps_statements_withRecords (m : Migration) (statements : List SchemaStatement)
    (db : Database) (t : Option MigrationTable) :
    runSteps (statements.map (.statement m)) (db.withRecords t) =
      ((runSteps (statements.map (.statement m)) db).1,
        (runSteps (statements.map (.statement m)) db).2.withRecords t) := by
  induction statements generalizing db with
  | nil => rfl
  | cons statement rest ih =>
    simp only [List.map_cons, runSteps, MigrationStep.run, statement.run_withRecords]
    cases statement.run db with
    | ok after => exact ih after
    | error f => rfl

/-- Steps that succeed are followed by the next ones: a failing step would have ended the
upgrade. -/
theorem runSteps_append {first : List MigrationStep} {db middle : Database}
    (hfirst : runSteps first db = (.ok (), middle)) (second : List MigrationStep) :
    runSteps (first ++ second) db = runSteps second middle := by
  induction first generalizing db with
  | nil =>
    obtain ⟨-, rfl⟩ := Prod.mk.inj hfirst
    rfl
  | cons step rest ih =>
    simp only [runSteps, List.cons_append] at hfirst ⊢
    cases hstep : step.run db with
    | ok after =>
      rw [hstep] at hfirst
      exact ih hfirst
    | error e =>
      rw [hstep] at hfirst
      simp at hfirst

open Database in
/-- The statements of a migration make the schema of its version out of that of the version before.
There are two migrations, so this is computed. -/
theorem run_statements_schemaOf : ∀ m ∈ migrations,
    runSteps (m.statements.map (.statement m)) ((schemaOf (m.version - 1)).withRecords none) =
      (.ok (), (schemaOf m.version).withRecords none) := by
  decide +kernel

open Database in
/-- **A migration leads from the schema of the version before to its own**, and is recorded behind
all others. -/
theorem Migration.run_steps {m : Migration} (hm : m ∈ migrations) {db : Database}
    {rows : List (Int × String)} (htable : db.migrations = some ⟨migrationColumns, rows⟩)
    (hnew : ∀ r ∈ rows, r.1 < m.version)
    (hschema : db.schema.withRecords none = (schemaOf (m.version - 1)).withRecords none) :
    ∃ after, runSteps m.steps db = (.ok (), after) ∧
      after.migrations = some ⟨migrationColumns, rows ++ [(m.version, m.name)]⟩ ∧
      after.schema.withRecords none = (schemaOf m.version).withRecords none := by
  have hstart : db.schema =
      ((schemaOf (m.version - 1)).withRecords none).withRecords db.migrations := by
    rw [← hschema, withRecords_withRecords, ← schema_migrations, withRecords_self]
  have hstatements : runSteps (m.statements.map (.statement m)) db.schema =
      (.ok (), (schemaOf m.version).withRecords db.migrations) := by
    rw [hstart, runSteps_statements_withRecords, run_statements_schemaOf m hm,
      withRecords_withRecords]
  have htriggers : ((schemaOf m.version).withRecords db.migrations).triggers = [] := by
    have hnone : ∀ m ∈ ArithService.migrations, (schemaOf m.version).triggers = [] := by
      decide +kernel
    exact hnone m hm
  have hrecord := recordVersion_new ((withRecords_migrations _ _).trans htable) htriggers hnew false
    m.name
  have hrun : runSteps m.steps db.schema = (.ok (), (schemaOf m.version).withRecords
      (some ⟨migrationColumns, rows ++ [(m.version, m.name)]⟩)) := by
    rw [Migration.steps, runSteps_append hstatements]
    simp only [runSteps, MigrationStep.run, hrecord, withRecords_withRecords]
  -- What is computed of the schema holds of the database.
  rw [runSteps_schema] at hrun
  obtain ⟨hanswer, hafter⟩ := Prod.mk.inj hrun
  refine ⟨(runSteps m.steps db).2, Prod.ext hanswer rfl, ?_, ?_⟩
  · rw [← schema_migrations, hafter, withRecords_migrations]
  · rw [hafter, withRecords_withRecords]

/-- Whether migrations follow one another, without a gap, from a version on. -/
def IsLadder (version : Int) : List Migration → Prop
  | [] => True
  | m :: rest => m.version = version + 1 ∧ IsLadder m.version rest

open Database in
/-- **Migrations one after the other lead as far as they go**, each recorded behind the last. -/
theorem runSteps_ladder {ms : List Migration} {version : Int} (hladder : IsLadder version ms)
    (hknown : ∀ m ∈ ms, m ∈ migrations) {db : Database} {rows : List (Int × String)}
    (htable : db.migrations = some ⟨migrationColumns, rows⟩) (hbound : ∀ r ∈ rows, r.1 ≤ version)
    (hschema : db.schema.withRecords none = (schemaOf version).withRecords none) :
    ∃ after, runSteps (ms.flatMap Migration.steps) db = (.ok (), after) ∧
      after.migrations =
        some ⟨migrationColumns, rows ++ ms.map fun m => (m.version, m.name)⟩ ∧
      after.schema.withRecords none = (schemaOf (version + ms.length)).withRecords none := by
  induction ms generalizing version db rows with
  | nil => exact ⟨db, rfl, by simpa using htable, by simpa using hschema⟩
  | cons m rest ih =>
    obtain ⟨hnext, hrest⟩ := hladder
    have hbefore : m.version - 1 = version := by omega
    obtain ⟨middle, hrun, hrecorded, hmiddle⟩ := Migration.run_steps (hknown m (by simp)) htable
      (fun r hr => by have := hbound r hr; omega) (by rwa [hbefore])
    obtain ⟨after, hlater, hall, hend⟩ := ih hrest (fun n hn => hknown n (by simp [hn])) hrecorded
      (fun r hr => by
        rcases List.mem_append.1 hr with hr | hr
        · have := hbound r hr
          omega
        · rw [List.mem_singleton.1 hr]) hmiddle
    refine ⟨after, ?_, ?_, ?_⟩
    · rw [List.flatMap_cons, runSteps_append hrun, hlater]
    · rw [hall, List.map_cons, List.append_assoc, List.singleton_append]
    · rw [hend, List.length_cons]
      congr 2
      push_cast
      omega

/-! ### Upgrades -/

/-- The migrations above a version. -/
def migrationsAbove (version : Int) : List Migration := migrations.filter (version < ·.version)

theorem mem_migrationsAbove {version : Int} {m : Migration} :
    m ∈ migrationsAbove version ↔ m ∈ migrations ∧ version < m.version := by
  simp [migrationsAbove]

/-- The migrations stand in ascending order. -/
theorem pairwise_migrationsAbove (version : Int) :
    (migrationsAbove version).Pairwise (·.version < ·.version) := by
  have hall : migrations.Pairwise (·.version < ·.version) := by decide
  exact hall.filter _

/-- The migrations above a version follow it without a gap, up to the latest version. Versions below
zero count as zero here, as no migration is below the first. -/
theorem isLadder_migrationsAbove (version : Int) :
    IsLadder (max version 0) (migrationsAbove version) ∧
      max version 0 + (migrationsAbove version).length = max version 2 := by
  by_cases hnew : version < 1
  · have hboth : migrationsAbove version = migrations := by
      refine List.filter_eq_self.2 fun m hm => decide_eq_true ?_
      have hfirst : ∀ m ∈ migrations, 1 ≤ m.version := by decide
      exact lt_of_lt_of_le hnew (hfirst m hm)
    have hzero : max version 0 = 0 := by omega
    rw [hboth, hzero]
    refine ⟨⟨rfl, rfl, trivial⟩, ?_⟩
    show (0 : Int) + (2 : Nat) = max version 2
    omega
  · by_cases hfirst : version = 1
    · subst hfirst
      exact ⟨⟨rfl, trivial⟩, rfl⟩
    · have hnone : migrationsAbove version = [] := by
        refine List.filter_eq_nil_iff.2 fun m hm => ?_
        have hlatest : ∀ m ∈ migrations, m.version ≤ 2 := by decide
        have := hlatest m hm
        simp only [decide_eq_true_eq]
        omega
      rw [hnone]
      refine ⟨trivial, ?_⟩
      simp only [List.length_nil]
      omega

namespace Database

theorem schemaOf_max_zero (version : Int) : schemaOf (max version 0) = schemaOf version := by
  rcases le_total version 0 with hnew | hnew
  · rw [max_eq_right hnew, schemaOf, schemaOf, statementsUpTo, statementsUpTo, if_pos hnew,
      if_pos le_rfl]
  · rw [max_eq_left hnew]

/-- Beyond the latest version the schema is that of the latest one. -/
theorem schemaOf_of_two_le {version : Int} (h : 2 ≤ version) : schemaOf version = schemaOf 2 := by
  have hall : ∀ m ∈ ArithService.migrations, m.version ≤ 2 := by decide
  have hfilter : ArithService.migrations.filter (·.version ≤ version) =
      ArithService.migrations.filter (·.version ≤ 2) := by
    refine List.filter_congr fun m hm => ?_
    have := hall m hm
    exact decide_eq_decide.2 ⟨fun _ => this, fun _ => this.trans h⟩
  have hcount : statementsUpTo version = statementsUpTo 2 := by
    rw [statementsUpTo, statementsUpTo, if_neg (by omega), if_neg (by omega), hfilter]
  rw [schemaOf, schemaOf, hcount]

end Database

open Database in
/-- What an upgrade makes of a database of a version. -/
structure UpgradesTo (version : Int) (db after : Database) : Prop where
  /-- The migrations above the version, and no others, are carried out one after the other and
  recorded, in ascending order. -/
  migrations : ∃ applied : List Migration,
    (∀ m, m ∈ applied ↔ m ∈ migrations ∧ version < m.version) ∧
    applied.Pairwise (·.version < ·.version) ∧
    db.upgrade = runSteps (applied.flatMap Migration.steps) db.withMigrationTable ∧
    after.migrations =
      some ⟨migrationColumns, db.records ++ applied.map fun m => (m.version, m.name)⟩
  /-- All users are kept; a new database gets a table without users. -/
  users : after.users = some db.userTable ∧ ∃ lastId users, db.userTable = .numbered lastId users
  /-- The tasks have all columns, and all of them are kept; from before the second version they have
  no leases. -/
  tasks : after.tasks = .table TaskColumn.all ((DatabaseStore.rows db).map fun r =>
    if version < 2 then { r with leaseExpiresAt := none } else r)
  indexes : ∀ index, index ∈ after.indexes
  triggers : after.triggers = []

namespace Database

variable {db after : Database} {version : Int}

/-- The rows of the tasks are those that the columns of the version show. -/
theorem IsAtVersion.taskRows_eq (h : db.IsAtVersion version) :
    db.taskRows = (DatabaseStore.rows db).map fun r =>
      if version < 2 then { r with leaseExpiresAt := none } else r := by
  have htasks : db.tasks.emptied = (schemaOf version).tasks := congrArg Database.tasks h.schema
  by_cases hold : version < 2
  · have hcolumns : (schemaOf version).tasks = .absent ∨
        (schemaOf version).tasks = .table firstTaskColumns [] := by
      rcases lt_or_ge version 1 with hnew | hfirst
      · left
        rw [← schemaOf_max_zero, max_eq_right (by omega)]
        rfl
      · right
        obtain rfl : version = 1 := by omega
        decide +kernel
    simp only [if_pos hold]
    rcases hcolumns with hnone | hfirst
    · rw [hnone] at htasks
      cases hstored : db.tasks with
      | table columns rows => simp [hstored, TaskTable.emptied] at htasks
      | absent => simp [taskRows, DatabaseStore.rows, hstored, TaskTable.rows]
      | brokenView => simp [hstored, TaskTable.emptied] at htasks
    · rw [hfirst] at htasks
      cases hstored : db.tasks with
      | absent => simp [hstored, TaskTable.emptied] at htasks
      | brokenView => simp [hstored, TaskTable.emptied] at htasks
      | table columns rows =>
        rw [hstored, TaskTable.emptied, TaskTable.table.injEq] at htasks
        obtain ⟨rfl, -⟩ := htasks
        simp [taskRows, DatabaseStore.rows, hstored, TaskTable.rows, firstTaskColumns]
  · simp only [if_neg hold, List.map_id']
    rw [schemaOf_of_two_le (by omega)] at htasks
    have hall : (schemaOf 2).tasks = .table TaskColumn.all [] := by decide +kernel
    rw [hall] at htasks
    cases hstored : db.tasks with
    | absent => simp [hstored, TaskTable.emptied] at htasks
    | brokenView => simp [hstored, TaskTable.emptied] at htasks
    | table columns rows =>
      rw [hstored, TaskTable.emptied, TaskTable.table.injEq] at htasks
      obtain ⟨rfl, -⟩ := htasks
      simp [taskRows, DatabaseStore.rows, hstored, TaskTable.rows, TaskColumn.all]


/-- What is left of a database without the records does not depend on whether there is a table for
them. -/
theorem withRecords_schema_withMigrationTable (db : Database) (t : Option MigrationTable) :
    db.withMigrationTable.schema.withRecords t = db.schema.withRecords t := by
  unfold withMigrationTable
  cases db.migrations <;> rfl

theorem upgrade_of_recordedVersion (h : db.withMigrationTable.recordedVersion = .ok version) :
    db.upgrade =
      runSteps ((migrationsAbove version).flatMap Migration.steps) db.withMigrationTable := by
  simp only [upgrade, h]
  rfl

/-- **An upgrade of a database of any version succeeds**, and leads to the latest version. What else
is recorded, and under which names, does not matter. -/
theorem IsAtVersion.upgrade (h : db.IsAtVersion version) :
    ∃ after, db.upgrade = (.ok (), after) ∧
      after.migrations = some ⟨migrationColumns,
        db.records ++ (migrationsAbove version).map fun m => (m.version, m.name)⟩ ∧
      after.schema.withRecords none = (schemaOf 2).withRecords none ∧
      after.IsAtVersion (max version 2) := by
  obtain ⟨htable, hrecorded⟩ := h.withMigrationTable
  obtain ⟨hladder, hend⟩ := isLadder_migrationsAbove version
  obtain ⟨after, hrun, hall, hschema⟩ := runSteps_ladder hladder
    (fun m hm => (mem_migrationsAbove.1 hm).1) htable
    (fun r hr => (h.le hr).trans (le_max_left version 0))
    (by rw [withRecords_schema_withMigrationTable, h.schema, schemaOf_max_zero])
  rw [hend] at hschema
  have hlatest : schemaOf (max version 2) = schemaOf 2 := schemaOf_of_two_le (le_max_right _ _)
  refine ⟨after, (upgrade_of_recordedVersion hrecorded).trans hrun, hall, by rw [hschema, hlatest],
    ?_, .inl ⟨?_, ?_⟩, hschema⟩
  · intro t ht
    rw [hall, Option.some.injEq] at ht
    rw [← ht]
  · simp only [records, hall]
    rcases lt_or_ge version 2 with hold | hnew
    · -- The latest version is one of those that were applied.
      rw [max_eq_right hold.le]
      have hlast : ⟨2, "task_leases", [.addLease, .createIndex .byStatusAndCreation]⟩ ∈
          migrationsAbove version := mem_migrationsAbove.2 ⟨by decide, hold⟩
      exact ⟨"task_leases", List.mem_append_right _ (List.mem_map.2 ⟨_, hlast, rfl⟩)⟩
    · rw [max_eq_left hnew]
      rcases h.highest with ⟨⟨name, hmem⟩, -⟩ | ⟨-, rfl⟩
      · exact ⟨name, List.mem_append_left _ hmem⟩
      · omega
  · rintro recorded ⟨name, hmem⟩
    simp only [records, hall] at hmem
    rcases List.mem_append.1 hmem with hold | happlied
    · exact (h.le hold).trans (le_max_left _ _)
    · obtain ⟨m, hm, heq⟩ := List.mem_map.1 happlied
      have hknown : ∀ m ∈ ArithService.migrations, m.version ≤ 2 := by decide
      obtain ⟨rfl, -⟩ := Prod.mk.inj heq
      exact (hknown m (mem_migrationsAbove.1 hm).1).trans (le_max_right _ _)

/-- **An upgrade of a database that is up to date changes nothing**, which is what makes upgrading
at every start harmless. -/
theorem IsAtVersion.upgrade_self (h : db.IsAtVersion version) (hnew : 2 ≤ version) :
    db.upgrade = (.ok (), db) := by
  obtain ⟨-, hrecorded⟩ := h.withMigrationTable
  have hsome : db.withMigrationTable = db := by
    cases hstored : db.migrations with
    | some t => simp only [Database.withMigrationTable, hstored]
    | none =>
      rcases h.highest with ⟨⟨name, hmem⟩, -⟩ | ⟨-, rfl⟩
      · simp [records, hstored] at hmem
      · omega
  have hnone : migrationsAbove version = [] := by
    refine List.eq_nil_iff_forall_not_mem.2 fun m hm => ?_
    obtain ⟨hknown, hlater⟩ := mem_migrationsAbove.1 hm
    have hall : ∀ m ∈ ArithService.migrations, m.version ≤ 2 := by decide
    have := hall m hknown
    omega
  rw [upgrade_of_recordedVersion hrecorded, hsome, hnone]
  rfl

/-- The tasks and users of a database with the latest schema. Its tables are those of the schema,
with the rows put back. -/
theorem tables_of_schema (h : db.schema.withRecords none = (schemaOf 2).withRecords none) :
    db.tasks = .table TaskColumn.all db.taskRows ∧ db.users = some db.userTable ∧
      (∃ lastId users, db.userTable = .numbered lastId users) ∧
      (∀ index, index ∈ db.indexes) ∧ db.triggers = [] := by
  have hlatest : (schemaOf 2).users = some (.numbered 0 []) ∧
      (schemaOf 2).tasks = .table TaskColumn.all [] ∧
      (schemaOf 2).indexes = [.byStatus, .byOwner, .byStatusAndCreation] ∧
      (schemaOf 2).triggers = [] := by
    decide +kernel
  obtain ⟨husers, htasks, hindexes, htriggers⟩ := hlatest
  have huserSchema : db.users.map UserTable.emptied = some (.numbered 0 []) :=
    (congrArg Database.users h).trans husers
  have htaskSchema : db.tasks.emptied = .table TaskColumn.all [] :=
    (congrArg Database.tasks h).trans htasks
  have hindexSchema : db.indexes = [.byStatus, .byOwner, .byStatusAndCreation] :=
    (congrArg Database.indexes h).trans hindexes
  refine ⟨?_, ?_, ?_, ?_, (congrArg Database.triggers h).trans htriggers⟩
  · cases hstored : db.tasks with
    | absent => simp [hstored, TaskTable.emptied] at htaskSchema
    | brokenView => simp [hstored, TaskTable.emptied] at htaskSchema
    | table columns rows =>
      rw [hstored, TaskTable.emptied, TaskTable.table.injEq] at htaskSchema
      obtain ⟨rfl, -⟩ := htaskSchema
      simp [taskRows, hstored, TaskTable.rows, TaskColumn.all]
  · cases hstored : db.users with
    | none => simp [hstored] at huserSchema
    | some table => simp [userTable, hstored]
  · obtain ⟨table, hstored, hemptied⟩ := Option.map_eq_some_iff.1 huserSchema
    cases table with
    | numbered lastId users => exact ⟨lastId, users, by simp [userTable, hstored]⟩
    | loose users => simp [UserTable.emptied] at hemptied
  · intro index
    rw [hindexSchema]
    cases index <;> simp

/-- What an upgrade makes of a database of any version: the schema is that of the latest one, and
the rows are those from before. -/
theorem IsAtVersion.upgradesTo (h : db.IsAtVersion version)
    (hupgrade : db.upgrade = (.ok (), after)) : UpgradesTo version db after := by
  obtain ⟨result, hresult, hall, hschema, -⟩ := h.upgrade
  obtain rfl : result = after := (Prod.mk.inj (hresult.symm.trans hupgrade)).2
  have hrows : SameRows result db := by simpa only [hupgrade] using sameRows_upgrade db
  obtain ⟨htasks, husers, hnumbered, hindexes, htriggers⟩ := tables_of_schema hschema
  rw [hrows.users] at husers hnumbered
  rw [hrows.tasks, h.taskRows_eq] at htasks
  exact ⟨⟨migrationsAbove version, fun m => mem_migrationsAbove, pairwise_migrationsAbove version,
    upgrade_of_recordedVersion h.withMigrationTable.2, hall⟩, ⟨husers, hnumbered⟩, htasks, hindexes,
    htriggers⟩

end Database

/-! ### Upkeep -/

/-- What may follow an upgrade: one more upgrade, or opening the database again. -/
inductive Upkeep where
  | prepare
  | reopen
deriving DecidableEq, Repr

namespace DatabaseStore

/-- Upgrades and openings, one after the other, up to the first that fails. -/
def keepUp : List Upkeep → DatabaseStore → Except StoreError DatabaseStore
  | [], s => .ok s
  | .prepare :: rest, s =>
    match s.prepare with
    | (.error e, _) => .error e
    | (.ok (), s) => keepUp rest s
  | .reopen :: rest, s =>
    match open_ s.database with
    | (.error e, _) => .error e
    | (.ok s, _) => keepUp rest s

variable {s : DatabaseStore}

/-- Where an upgrade and an opening change nothing, no number of them does. -/
theorem keepUp_self (hupgrade : s.database.upgrade = (.ok (), s.database))
    (hopen : open_ s.database = (.ok s, s.database)) (upkeep : List Upkeep) :
    s.keepUp upkeep = .ok s := by
  induction upkeep with
  | nil => rfl
  | cons step rest ih =>
    cases step with
    | prepare =>
      simp only [keepUp, prepare, hupgrade]
      exact ih
    | reopen =>
      simp only [keepUp, hopen]
      exact ih

/-- A database whose upgrade succeeds is opened. What is read from its tasks besides is the greatest
identifier, and any text will do for one. -/
theorem open_of_upgrade {db after : Database} {rows : List TaskRow}
    (hupgrade : db.upgrade = (.ok (), after)) (htasks : after.tasks = .table TaskColumn.all rows) :
    ∃ lastNumber, open_ db = (.ok ⟨after, lastNumber⟩, after) ∧
      after.newestId.map ArithService.lastNumber = .ok lastNumber := by
  have hnewest : ∃ newest, after.newestId = .ok newest := by
    simp only [Database.newestId, Database.readTasks_eq htasks]
    exact ⟨_, rfl⟩
  obtain ⟨newest, hnewest⟩ := hnewest
  refine ⟨ArithService.lastNumber newest, ?_, by rw [hnewest]; rfl⟩
  simp only [open_, hupgrade, hnewest]

end DatabaseStore

open DatabaseStore in
/-- **A database of any version is opened**, and opened again just as it is. -/
theorem Database.IsAtVersion.exists_open {db : Database} {version : Int}
    (h : db.IsAtVersion version) :
    ∃ s, db.upgrade = (.ok (), s.database) ∧ open_ db = (.ok s, s.database) ∧
      UpgradesTo version db s.database ∧ s.database.upgrade = (.ok (), s.database) ∧
      open_ s.database = (.ok s, s.database) := by
  obtain ⟨after, hupgrade, -, -, hlatest⟩ := h.upgrade
  have hupgrades := h.upgradesTo hupgrade
  have hagain := hlatest.upgrade_self (le_max_right _ _)
  obtain ⟨lastNumber, hopen, hnumber⟩ := open_of_upgrade hupgrade hupgrades.tasks
  obtain ⟨sameNumber, hreopen, hsame⟩ := open_of_upgrade hagain hupgrades.tasks
  obtain rfl : lastNumber = sameNumber := Except.ok.inj (hnumber.symm.trans hsame)
  exact ⟨⟨after, lastNumber⟩, hupgrade, hopen, hupgrades, hagain, hreopen⟩

open Database DatabaseStore in
/-- **Upgrades lose nothing.** A database of any version, with any users and tasks, is opened and
upgraded: the migrations above its version, and no others, are carried out in ascending order and
recorded, the schema is complete, and every user and task is there as before; from before the second
version tasks have no leases. After that, no number of upgrades and openings changes anything. -/
theorem supported_databases_upgrade {db : Database} {version : Int} (h : db.IsAtVersion version) :
    ∃ s, db.upgrade = (.ok (), s.database) ∧ open_ db = (.ok s, s.database) ∧
      UpgradesTo version db s.database ∧ ∀ upkeep, s.keepUp upkeep = .ok s := by
  obtain ⟨s, hupgrade, hopen, hupgrades, hagain, hreopen⟩ := h.exists_open
  exact ⟨s, hupgrade, hopen, hupgrades, keepUp_self hagain hreopen⟩

/-- The database of the first version is one of version one, also with other tasks. -/
theorem isAtVersion_firstVersion (rows : List TaskRow) :
    { firstVersion with tasks := .table firstTaskColumns rows }.IsAtVersion 1 where
  table t ht := by
    obtain rfl : ⟨migrationColumns, [(1, "initial_schema")]⟩ = t := Option.some.inj ht
    rfl
  highest := by
    refine .inl ⟨⟨"initial_schema", List.mem_singleton.2 rfl⟩, ?_⟩
    rintro recorded ⟨name, hmem⟩
    obtain ⟨rfl, -⟩ := Prod.mk.inj (List.mem_singleton.1 hmem)
    exact le_rfl
  schema := by
    have hfirst : firstVersion.schema.withRecords none =
        (Database.schemaOf 1).withRecords none := by
      decide +kernel
    exact hfirst

/-- The task of the database of the first version is there after any upgrades and openings. -/
theorem supported_databases_upgrade_first :
    firstVersion.IsAtVersion 1 ∧ ∃ s, DatabaseStore.open_ firstVersion = (.ok s, s.database) ∧
      s.keepUp [.prepare, .reopen, .reopen] = .ok s ∧
      s.database.tasks = .table TaskColumn.all
        [{ id := some "1", owner := 1, expression := "2+2",
           createdAt := "2024-01-01T00:00:00Z" }] := by
  have hversion : firstVersion.IsAtVersion 1 := isAtVersion_firstVersion _
  obtain ⟨s, -, hopen, hupgrades, hkept⟩ := supported_databases_upgrade hversion
  exact ⟨hversion, s, hopen, hkept _, hupgrades.tasks⟩

end ArithService
