import Mathlib
import ArithService.Proofs.Database.Schema

/-!
# Interrupted upgrades

An upgrade of which a crash has left only the first statements. Statements take effect one by
one, and the next run starts again from the recorded version. All statements can be repeated but
one: where a column for leases was added and a crash came before its version was recorded, every
later run fails, though no row is lost.

## Main Definitions

* `Database.interrupt`, `Database.interruptAll` — runs that are cut off
* `Database.stage` — a new database after the first statements of an upgrade
* `Database.schemaOf` — the schema of a version
* `Database.IsHalfLeased` — the state that no run leaves

## Main Results

* `Database.interrupt_stage` — a run that is cut off leads from stage to stage
* `interrupted_upgrades_resume` — what becomes of a database of any version

## Design Notes

What a run does to the schema is what it does to a database without rows, and that there are just
ten stages is computed. Rows are kept by every statement, so they come in only at the end, where
schema and rows together are the database (`Database.eq_of_schema`).
-/

namespace ArithService

namespace Database

/-! ### Runs that are cut off -/

/-- A run of an upgrade that is cut off after a number of statements. The first one creates the
table of records; looking up the recorded version changes nothing. -/
def interrupt (db : Database) : Nat → Database
  | 0 => db
  | k + 1 =>
    match db.withMigrationTable.recordedVersion with
    | .error _ => db.withMigrationTable
    | .ok version => (runSteps ((upgradeSteps version).take k) db.withMigrationTable).2

/-- Runs that are cut off, one after the other. -/
def interruptAll (db : Database) (cuts : List Nat) : Database := cuts.foldl interrupt db

theorem interrupt_schema (db : Database) (k : Nat) :
    db.schema.interrupt k = (db.interrupt k).schema := by
  cases k with
  | zero => rfl
  | succ k =>
    simp only [interrupt, schema_withMigrationTable, schema_recordedVersion]
    cases db.withMigrationTable.recordedVersion with
    | error f => rfl
    | ok version => exact congrArg Prod.snd (runSteps_schema _ _)

theorem sameRows_interrupt (db : Database) (k : Nat) : SameRows (db.interrupt k) db := by
  cases k with
  | zero => exact .refl db
  | succ k =>
    simp only [interrupt]
    cases db.withMigrationTable.recordedVersion with
    | error f => exact sameRows_withMigrationTable db
    | ok version => exact (sameRows_runSteps _ _).trans (sameRows_withMigrationTable db)

theorem interruptAll_schema (db : Database) (cuts : List Nat) :
    db.schema.interruptAll cuts = (db.interruptAll cuts).schema := by
  induction cuts generalizing db with
  | nil => rfl
  | cons k rest ih =>
    simp only [interruptAll, List.foldl_cons, interrupt_schema]
    exact ih (db.interrupt k)

/-- **Runs that are cut off keep the rows**, however often and wherever. -/
theorem sameRows_interruptAll (db : Database) (cuts : List Nat) :
    SameRows (db.interruptAll cuts) db := by
  induction cuts generalizing db with
  | nil => exact .refl db
  | cons k rest ih => exact (ih (db.interrupt k)).trans (sameRows_interrupt db k)

theorem length_upgradeSteps_le (version : Int) : (upgradeSteps version).length ≤ 8 := by
  have hsteps : (ArithService.migrations.flatMap Migration.steps).length = 8 := by decide
  rw [← hsteps]
  exact (List.Sublist.flatMap List.filter_sublist _).length_le

/-- A run that is cut off after all its statements is a whole one, so that whole runs need no case
of their own. -/
theorem interrupt_eq_upgrade (db : Database) {k : Nat} (hk : 9 ≤ k) :
    db.interrupt k = db.upgrade.2 := by
  obtain ⟨k, rfl⟩ := Nat.exists_eq_add_of_le' (show 1 ≤ k by omega)
  simp only [interrupt, upgrade]
  cases db.withMigrationTable.recordedVersion with
  | error f => rfl
  | ok version =>
    have hall := length_upgradeSteps_le version
    simp only [List.take_of_length_le (show (upgradeSteps version).length ≤ k by omega)]

/-! ### Stages -/

/-- A new database after the first statements of an upgrade. -/
def stage (n : Nat) : Database := interrupt {} n

/-- The stage that a run leads to from another one if it is cut off after `k` statements. Up to
the record of the first version the statements are repeated from the beginning, and from there on
those of the second one; but a run does not get beyond a column that is already there. -/
def cutStage (n k : Nat) : Nat :=
  if n < 6 then max n (min k 9)
  else if n = 6 then max 6 (min (k + 5) 9)
  else n

theorem cutStage_le {n : Nat} (hn : n ≤ 9) (k : Nat) : cutStage n k ≤ 9 := by
  unfold cutStage
  split_ifs <;> omega

/-- **A run that is cut off leads from stage to stage.** There are ten stages, and where a run is
cut off counts up to nine only, so all cases are computed. -/
theorem interrupt_stage {n : Nat} (hn : n ≤ 9) (k : Nat) :
    (stage n).interrupt k = stage (cutStage n k) := by
  have hfew : ∀ n ≤ 9, ∀ k ≤ 9, (stage n).interrupt k = stage (cutStage n k) := by decide +kernel
  rcases le_total k 9 with hk | hk
  · exact hfew n hn k hk
  · have hsame : cutStage n k = cutStage n 9 := by
      unfold cutStage
      split_ifs <;> omega
    rw [interrupt_eq_upgrade _ hk, ← interrupt_eq_upgrade _ le_rfl, hfew n hn 9 le_rfl, hsame]

theorem interruptAll_stage {n : Nat} (hn : n ≤ 9) (cuts : List Nat) :
    (stage n).interruptAll cuts = stage (cuts.foldl cutStage n) ∧ cuts.foldl cutStage n ≤ 9 := by
  induction cuts generalizing n with
  | nil => exact ⟨rfl, hn⟩
  | cons k rest ih =>
    simp only [interruptAll, List.foldl_cons, interrupt_stage hn]
    exact ih (cutStage_le hn k)

/-! ### Versions -/

/-- How many statements of the upgrade of a new database come up to the record of a version. -/
def statementsUpTo (version : Int) : Nat :=
  if version ≤ 0 then 0
  else 1 + ((ArithService.migrations.filter (·.version ≤ version)).flatMap Migration.steps).length

/-- The schema of a version; that of version zero is the schema of a new database. -/
def schemaOf (version : Int) : Database := stage (statementsUpTo version)

/-- Whether the column for leases is there, but not the record of the version that adds it. -/
def IsHalfLeased (db : Database) : Prop :=
  db.tasks.emptied = .table TaskColumn.all [] ∧ db.recordedVersion ≠ .ok 2

instance (db : Database) : Decidable db.IsHalfLeased := inferInstanceAs (Decidable (_ ∧ _))

theorem isHalfLeased_schema (db : Database) : db.schema.IsHalfLeased ↔ db.IsHalfLeased := by
  have htasks : db.schema.tasks.emptied = db.tasks.emptied := by
    simp only [schema]
    cases db.tasks <;> rfl
  simp only [IsHalfLeased, htasks, schema_recordedVersion]

/-- The failure of a run that finds the column for leases. -/
def leaseTwice : StoreError :=
  .migration ("Migration V2 (task_leases) failed: " ++
    (SqlFault.duplicateColumn TaskColumn.leaseExpiresAt.name).message)

/-- An upgrade leads from every stage to the last one, except from those in which the column for
leases is there without its version. -/
theorem upgrade_stage : ∀ n ≤ 9, (stage n).upgrade =
    if (stage n).IsHalfLeased then (.error leaseTwice, stage n) else (.ok (), stage 9) := by
  decide +kernel

/-- These are the two stages behind the statement that adds the column, before the record. -/
theorem isHalfLeased_stage : ∀ n ≤ 9, (stage n).IsHalfLeased ↔ n ∈ [7, 8] := by
  decide +kernel

theorem statementsUpTo_cases (version : Int) :
    statementsUpTo version = 0 ∨ statementsUpTo version = 6 ∨ statementsUpTo version = 9 := by
  unfold statementsUpTo
  split_ifs with hnew
  · exact .inl rfl
  · by_cases hfirst : version = 1
    · subst hfirst
      exact .inr (.inl (by decide))
    · -- From the second version on, all migrations count.
      have hone : (1 : Int) ≤ version := by omega
      have htwo : (2 : Int) ≤ version := by omega
      right
      right
      simp [ArithService.migrations, hone, htwo, Migration.steps]

/-! ### Databases at a stage -/

/-- From the seventh statement on, stage and rows are all there is, since the tasks have all columns
by then. -/
theorem eq_of_stage {a b : Database} {n : Nat} (hn : n ∈ [7, 8, 9]) (ha : a.schema = stage n)
    (hb : b.schema = stage n) (hrows : SameRows a b) : a = b := by
  have hfull : ∀ n ∈ [7, 8, 9],
      (stage n).users.isSome ∧ (stage n).tasks = .table TaskColumn.all [] := by decide +kernel
  obtain ⟨husers, htasks⟩ := hfull n hn
  rw [← ha] at husers htasks
  exact eq_of_schema husers htasks (ha.trans hb.symm) hrows

variable {db : Database} {n : Nat}

theorem isHalfLeased_iff (hn : n ≤ 9) (h : db.schema = stage n) : db.IsHalfLeased ↔ n ∈ [7, 8] := by
  rw [← isHalfLeased_schema, h, isHalfLeased_stage n hn]

/-- An upgrade completes a database at any stage that is not half-leased. -/
theorem upgrade_of_stage (hn : n ≤ 9) (h : db.schema = stage n) (hwhole : ¬ db.IsHalfLeased) :
    ∃ complete, db.upgrade = (.ok (), complete) ∧ complete.schema = stage 9 ∧
      SameRows complete db := by
  have hupgrade := upgrade_stage n hn
  rw [if_neg (by rwa [isHalfLeased_stage n hn, ← isHalfLeased_iff hn h]), ← h,
    upgrade_schema] at hupgrade
  obtain ⟨hanswer, hafter⟩ := Prod.mk.inj hupgrade
  exact ⟨db.upgrade.2, Prod.ext hanswer rfl, hafter, sameRows_upgrade db⟩

/-- An upgrade of a half-leased database fails and changes nothing. -/
theorem upgrade_of_isHalfLeased (hn : n ≤ 9) (h : db.schema = stage n) (hhalf : db.IsHalfLeased) :
    db.upgrade = (.error leaseTwice, db) := by
  have hstage := (isHalfLeased_iff hn h).1 hhalf
  have hupgrade := upgrade_stage n hn
  rw [if_pos ((isHalfLeased_stage n hn).2 hstage), ← h, upgrade_schema] at hupgrade
  obtain ⟨hanswer, hafter⟩ := Prod.mk.inj hupgrade
  have hlate : n ∈ [7, 8, 9] := by
    simp only [List.mem_cons, List.not_mem_nil, or_false] at hstage ⊢
    omega
  exact Prod.ext hanswer (eq_of_stage hlate (hafter.trans h) h (sameRows_upgrade db))

end Database

/-! ### Interruption -/

open Database in
/-- **Interrupted upgrades resume, with one exception.** Whatever is in a database of version
zero, one or two, and wherever its upgrades are cut off, no user and no task is lost. The next
upgrade ends with the same database as one in one go, unless the column for leases is there
without the record of its version: after the seventh statement, which adds the column, and before
the ninth, which records the version. From there on every upgrade fails and changes nothing. -/
theorem interrupted_upgrades_resume {db : Database} {version : Int}
    (hschema : db.schema = schemaOf version) (cuts : List Nat) :
    SameRows (db.interruptAll cuts) db ∧
      ∃ complete, db.upgrade = (.ok (), complete) ∧ complete.schema = schemaOf 2 ∧
        SameRows complete db ∧
        (¬ (db.interruptAll cuts).IsHalfLeased →
          (db.interruptAll cuts).upgrade = (.ok (), complete)) ∧
        ((db.interruptAll cuts).IsHalfLeased →
          (db.interruptAll cuts).upgrade = (.error leaseTwice, db.interruptAll cuts)) ∧
        ((db.interruptAll cuts).IsHalfLeased ↔
          cuts.foldl cutStage (statementsUpTo version) ∈ [7, 8]) := by
  have hstart := statementsUpTo_cases version
  have hfew : statementsUpTo version ≤ 9 := by omega
  have hwhole : ¬ db.IsHalfLeased := by
    rw [isHalfLeased_iff hfew hschema]
    simp only [List.mem_cons, List.not_mem_nil, or_false]
    omega
  obtain ⟨hrun, hlast⟩ := interruptAll_stage hfew cuts
  have hafter : (db.interruptAll cuts).schema =
      stage (cuts.foldl cutStage (statementsUpTo version)) := by
    rw [← interruptAll_schema, hschema, schemaOf, hrun]
  have hrows := sameRows_interruptAll db cuts
  obtain ⟨complete, hupgrade, hcomplete, hkept⟩ := upgrade_of_stage hfew hschema hwhole
  refine ⟨hrows, complete, hupgrade, hcomplete, hkept, ?_,
    upgrade_of_isHalfLeased hlast hafter, isHalfLeased_iff hlast hafter⟩
  intro hafterWhole
  obtain ⟨resumed, hresumed, hsame, hsameRows⟩ := upgrade_of_stage hlast hafter hafterWhole
  rw [hresumed, eq_of_stage (by decide) hsame hcomplete
    (hsameRows.trans (hrows.trans hkept.symm))]

/-- A database of the first version, with a user and a task. -/
def firstVersion : Database where
  users := some (.numbered 1 [⟨1, "alice", "hash"⟩])
  tasks := .table firstTaskColumns
    [{ id := some "1", owner := 1, expression := "2+2", createdAt := "2024-01-01T00:00:00Z" }]
  migrations := some ⟨migrationColumns, [(1, "initial_schema")]⟩
  indexes := [.byStatus, .byOwner]

/-- A crash right after the first statement and one before any statement are made up for. -/
theorem interrupted_upgrades_resume_first :
    firstVersion.schema = Database.schemaOf 1 ∧
      ¬ (firstVersion.interruptAll [1, 0]).IsHalfLeased ∧
      (firstVersion.interruptAll [1, 0]).upgrade = firstVersion.upgrade := by
  have hschema : firstVersion.schema = Database.schemaOf 1 := by decide +kernel
  have hwhole : ¬ (firstVersion.interruptAll [1, 0]).IsHalfLeased := by decide +kernel
  obtain ⟨-, complete, hupgrade, -, -, hresumed, -⟩ := interrupted_upgrades_resume hschema [1, 0]
  exact ⟨hschema, hwhole, (hresumed hwhole).trans hupgrade.symm⟩

/-- A crash right after the column for leases was added, or after the index was created, is not
made up for: the next upgrade fails, although one in one go succeeds. -/
theorem interrupted_upgrade_is_stuck :
    firstVersion.schema = Database.schemaOf 1 ∧ firstVersion.upgrade.1 = .ok () ∧
      (firstVersion.interruptAll [2]).upgrade.1 = .error Database.leaseTwice ∧
      (firstVersion.interruptAll [3]).upgrade.1 = .error Database.leaseTwice ∧
      Database.leaseTwice.message = "Migration failed: Migration V2 (task_leases) failed: " ++
        "SQLite failure: `duplicate column name: lease_expires_at`" := by
  decide +kernel

end ArithService
