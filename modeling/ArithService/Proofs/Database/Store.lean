import Mathlib
import ArithService.Proofs.Database.Rows

/-!
# The store on a database keeps tasks

## Main Definitions

* `DatabaseStore.tasks` — the tasks in the rows
* `DatabaseStore.Readable` — a store on tables in order, with rows that make sense
* `DatabaseStore.Sound` — a store on tables in order, with rows that it has written itself

## Design Notes

On a sound store every statement succeeds but one: a task of an unknown owner is refused. Each
operation is therefore one equation about the rows (`Sound.requeue_eq`,
`Sound.handOut_eq`, `Sound.enqueue_eq`), and what it does to tasks follows from what it does to
rows (`Sound.changeRow`).
-/

namespace ArithService

/-! ### Statements -/

namespace Database

/-- A database with other tasks. -/
def withRows (db : Database) (rows : List TaskRow) : Database :=
  { db with tasks := .table TaskColumn.all rows }

/-- Every column is a column of the table, so no statement on a table in order fails for a missing
one. -/
theorem mem_all (c : TaskColumn) : c ∈ TaskColumn.all := by
  cases c <;> decide

/-- No statement asks for a column that the table does not have. This is the test by which
statements fail, evaluated once for all of them. -/
theorem find?_columns (columns : List TaskColumn) :
    columns.find? (!TaskColumn.all.contains ·) = none := by
  simp [mem_all]

variable {db : Database} {rows : List TaskRow}

/-- On a table in order a query reads the rows as they are, whichever columns it asks for. -/
theorem readTasks_eq (htasks : db.tasks = .table TaskColumn.all rows)
    (columns : List TaskColumn) : db.readTasks columns = .ok rows := by
  simp only [readTasks, htasks, find?_columns]

/-- An update without matching rows changes nothing. It is stated apart because no trigger is needed
to be absent here: triggers run for changed rows only. -/
theorem updateTasks_none (htasks : db.tasks = .table TaskColumn.all rows)
    (columns : List TaskColumn) {matching : TaskRow → Bool} (change : TaskRow → TaskRow)
    (hnone : ∀ r ∈ rows, matching r = false) :
    db.updateTasks columns matching change = .ok ([], db) := by
  have hfilter : rows.filter matching = [] := by simpa using hnone
  simp only [updateTasks, htasks, find?_columns, hfilter, List.map_nil]

/-- Without triggers an update changes the rows that match, and gives them back as they are
afterwards. All that calls do to existing rows goes through this equation. -/
theorem updateTasks_eq (htasks : db.tasks = .table TaskColumn.all rows)
    (htriggers : db.triggers = []) (columns : List TaskColumn) (matching : TaskRow → Bool)
    (change : TaskRow → TaskRow) :
    db.updateTasks columns matching change =
      .ok ((rows.filter matching).map change,
        db.withRows (rows.map fun r => if matching r then change r else r)) := by
  have haction : db.triggered .tasks .update = none := by simp [triggered, htriggers]
  cases hchanged : (rows.filter matching).map change with
  | cons r rest => simp only [updateTasks, htasks, find?_columns, haction, hchanged, withRows]
  | nil =>
    have hnone : ∀ r ∈ rows, matching r = false := by simpa using hchanged
    have hsame : rows.map (fun r => if matching r then change r else r) = rows := by
      conv_rhs => rw [← List.map_id rows]
      exact List.map_congr_left fun r hr => by simp [hnone r hr]
    rw [updateTasks_none htasks columns change hnone, hsame, withRows, ← htasks]

/-- Without triggers a row is inserted at the end, if its identifier is new and its owner is a user.
Both refusals are spelled out, as callers have to show that neither or which one comes up. -/
theorem insertTask_eq (htasks : db.tasks = .table TaskColumn.all rows)
    (htriggers : db.triggers = []) (columns : List TaskColumn) (r : TaskRow) :
    db.insertTask columns r = match db.isUser r.owner with
      | .error f => .error f
      | .ok known =>
        if r.id.isSome && rows.any (·.id = r.id) then .error (.notUnique "tasks.id")
        else if !known then .error .foreignKey
        else .ok (db.withRows (rows ++ [r])) := by
  have haction : db.triggered .tasks .insert = none := by simp [triggered, htriggers]
  cases huser : db.isUser r.owner with
  | error f => simp only [insertTask, htasks, find?_columns, huser]
  | ok known => simp only [insertTask, htasks, find?_columns, huser, haction, withRows]

/-- An upgrade of a database that is up to date changes nothing, so neither a second `prepare` nor a
reopening is seen in its tables. -/
theorem upgrade_eq (hmigrations : db.migrations =
      some ⟨migrationColumns, ArithService.migrations.map fun m => (m.version, m.name)⟩) :
    db.upgrade = (.ok (), db) := by
  have htable : db.withMigrationTable = db := by
    simp only [withMigrationTable, hmigrations]
  have hversion : db.recordedVersion = .ok 2 := by
    simp only [recordedVersion, hmigrations]
    decide
  simp only [upgrade, htable, hversion]
  rfl

end Database

namespace DatabaseStore

/-- The tasks in the rows. -/
def tasks (s : DatabaseStore) : List Task := (rows s.database).map TaskRow.task

/-- A store with other tasks. -/
def withRows (s : DatabaseStore) (rows : List TaskRow) : DatabaseStore :=
  { s with database := s.database.withRows rows }

/-- A store on tables in order and up to date, without triggers, with rows that make sense, no two
of them for the same task. -/
structure Readable (s : DatabaseStore) : Prop where
  triggers : s.database.triggers = []
  migrations : s.database.migrations =
    some ⟨migrationColumns, ArithService.migrations.map fun m => (m.version, m.name)⟩
  table : s.database.tasks = .table TaskColumn.all (rows s.database)
  rows : ∀ r ∈ rows s.database, r.IsReadable
  distinct : (s.tasks.map (·.id)).Nodup

/-- A store on tables in order and up to date, without triggers, with rows that the store has
written itself, in the order of their numbers. -/
structure Sound (last : Int) (s : DatabaseStore) : Prop where
  number : s.lastNumber = last
  number_nonneg : 0 ≤ last
  users : ∃ lastId users, s.database.users = some (.numbered lastId users)
  triggers : s.database.triggers = []
  migrations : s.database.migrations =
    some ⟨migrationColumns, ArithService.migrations.map fun m => (m.version, m.name)⟩
  table : s.database.tasks = .table TaskColumn.all (rows s.database)
  rows : ∀ r ∈ rows s.database, r.IsSound last
  sorted : s.tasks.Pairwise (·.id < ·.id)

theorem sound_empty : Sound 0 empty where
  number := rfl
  number_nonneg := le_rfl
  users := ⟨0, [], rfl⟩
  triggers := rfl
  migrations := rfl
  table := rfl
  rows := by
    have hrows : DatabaseStore.rows empty.database = [] := rfl
    simp [hrows]
  sorted := by
    have htasks : empty.tasks = [] := rfl
    simp [htasks]

/-! ### Looking up -/

variable {last : Int} {s : DatabaseStore}

/-- What the store has written itself makes sense. So lookups are proved of readable stores only,
which restarts and any clock keep, and are there for sound ones. -/
theorem Sound.readable (h : Sound last s) : Readable s where
  triggers := h.triggers
  migrations := h.migrations
  table := h.table
  rows r hr := (h.rows r hr).isReadable
  distinct := List.pairwise_map.2 (h.sorted.imp fun hlt => ne_of_lt hlt)

theorem Sound.sorted_rows (h : Sound last s) :
    (DatabaseStore.rows s.database).Pairwise fun q r => q.task.id < r.task.id := by
  have hsorted := h.sorted
  rwa [tasks, List.pairwise_map] at hsorted

/-- Finding a row is finding its task, where the conditions say the same. Every lookup by a column
is turned into one of tasks by this. -/
theorem find?_task {rs : List TaskRow} {p : TaskRow → Bool} {q : Task → Bool}
    (hsame : ∀ r ∈ rs, p r = q r.task) :
    (rs.map TaskRow.task).find? q = (rs.find? p).map TaskRow.task := by
  rw [List.find?_map]
  exact congrArg _ (List.find?_congr fun r hr => (hsame r hr).symm)

/-- A task is found by its identifier where its row is found by that column, because no identifier
has a zero character that reading would cut it at. -/
theorem Readable.find?_id (h : Readable s) (id : String) :
    s.tasks.find? (·.id = id) =
      ((DatabaseStore.rows s.database).find? (·.id = some id)).map TaskRow.task :=
  find?_task fun r hr => by simp [(h.rows r hr).id_eq]

theorem Sound.find?_status (h : Sound last s) (status : TaskStatus) :
    s.tasks.find? (·.status = status) =
      ((DatabaseStore.rows s.database).find? (·.status = status.text)).map TaskRow.task :=
  find?_task fun r hr => by simp [(h.rows r hr).status_eq_iff]

/-- What a lookup answers depends on the tasks alone: the row that is found is always one that can
be read. -/
theorem Readable.get_eq (h : Readable s) (id : String) :
    s.get id = match s.tasks.find? (·.id = id) with
      | some t => .ok t
      | none => .error (.noTask id) := by
  rw [h.find?_id, DatabaseStore.get, Database.readTasks_eq h.table]
  simp only
  cases hfind : (DatabaseStore.rows s.database).find? (·.id = some id) with
  | none => rfl
  | some r => simp [(h.rows r (List.mem_of_find?_eq_some hfind)).toTask_eq]

/-- Without answers in between: what is known of the task with an identifier is the task in the
rows. -/
theorem Readable.task?_eq (h : Readable s) (id : String) :
    Store.task? id s = s.tasks.find? (·.id = id) := by
  show (s.get id).toOption = _
  rw [h.get_eq]
  cases s.tasks.find? (·.id = id) <;> rfl

theorem Sound.task?_eq (h : Sound last s) (id : String) :
    Store.task? id s = s.tasks.find? (·.id = id) := h.readable.task?_eq id

/-- A new database knows no task, so every task that is found later was recorded by a call. -/
theorem task?_empty (id : String) : Store.task? id empty = none := by
  rw [sound_empty.task?_eq]
  rfl

/-- A lookup finds the task that was asked for, or says that there is none. No third answer is
possible on rows that make sense. -/
theorem Readable.get_cases (h : Readable s) (id : String) :
    (∃ t, Store.get id s = .ok t ∧ t.id = id) ∨ Store.get id s = .error (.noTask id) := by
  show (∃ t, s.get id = .ok t ∧ t.id = id) ∨ s.get id = .error (.noTask id)
  rw [h.get_eq]
  cases hfind : s.tasks.find? (·.id = id) with
  | none => exact .inr rfl
  | some t => exact .inl ⟨t, rfl, by simpa using List.find?_some hfind⟩

/-! ### Changing rows -/

/-- A change of rows that keeps their identifiers keeps those of the tasks, and so their order and
that no two are the same. -/
theorem map_id_withRows {change : TaskRow → TaskRow}
    (hid : ∀ r ∈ rows s.database, (change r).task.id = r.task.id) :
    (s.withRows ((rows s.database).map change)).tasks.map (·.id) = s.tasks.map (·.id) := by
  show (((rows s.database).map change).map TaskRow.task).map (·.id) =
    ((rows s.database).map TaskRow.task).map (·.id)
  rw [List.map_map, List.map_map, List.map_map]
  exact List.map_congr_left fun r hr => hid r hr

/-- A change of rows that keeps them sound and keeps their identifiers keeps the order. Taking back,
handing out and completing are all of this form. -/
theorem Sound.map (h : Sound last s) {change : TaskRow → TaskRow}
    (hsound : ∀ r ∈ DatabaseStore.rows s.database, (change r).IsSound last)
    (hid : ∀ r ∈ DatabaseStore.rows s.database, (change r).task.id = r.task.id) :
    Sound last (s.withRows ((DatabaseStore.rows s.database).map change)) where
  number := h.number
  number_nonneg := h.number_nonneg
  users := h.users
  triggers := h.triggers
  migrations := h.migrations
  table := rfl
  rows r hr := by
    obtain ⟨q, hq, rfl⟩ := List.mem_map.1 hr
    exact hsound q hq
  sorted := by
    -- Order is a property of the list of identifiers, which is the same as before.
    have hsorted : (s.tasks.map (·.id)).Pairwise (· < ·) := List.pairwise_map.2 h.sorted
    rw [← map_id_withRows hid] at hsorted
    exact List.pairwise_map.1 hsorted

/-- A row after leases were taken back at an instant. -/
def requeuedRow (at_ : Instant) (r : TaskRow) : TaskRow :=
  if r.hasEndedLease at_.text then r.released else r

/-- On tables in order and without triggers, taking back leases changes the rows alone. Nothing is
asked of the rows, since deadlines are compared as texts before anything is read. -/
theorem requeue_eq (htable : s.database.tasks = .table TaskColumn.all (rows s.database))
    (htriggers : s.database.triggers = []) (at_ : Instant) :
    s.requeue at_ =
      (.ok ((rows s.database).filter (·.hasEndedLease at_.text)).length,
        s.withRows ((rows s.database).map (requeuedRow at_))) := by
  rw [DatabaseStore.requeue, Database.updateTasks_eq htable htriggers]
  simp only [List.length_map]
  rfl

theorem Sound.requeue_eq (h : Sound last s) (at_ : Instant) :
    s.requeue at_ =
      (.ok ((DatabaseStore.rows s.database).filter (·.hasEndedLease at_.text)).length,
        s.withRows ((DatabaseStore.rows s.database).map (requeuedRow at_))) :=
  DatabaseStore.requeue_eq h.table h.triggers at_

/-- Task by task, a requeue leaves everything alone except tasks whose lease may be taken back at
that instant. -/
theorem Sound.requeuedAs (h : Sound last s) (at_ : Instant) :
    List.Forall₂ (Task.RequeuedAs at_) s.tasks (s.requeue at_).2.tasks := by
  rw [h.requeue_eq]
  show List.Forall₂ _ ((DatabaseStore.rows s.database).map TaskRow.task)
    (((DatabaseStore.rows s.database).map (requeuedRow at_)).map TaskRow.task)
  rw [List.forall₂_map_left_iff, List.forall₂_map_right_iff, List.forall₂_map_right_iff,
    List.forall₂_same]
  intro r hr
  unfold requeuedRow
  split_ifs with hended
  · exact .inr ⟨(h.rows r hr).mayBeTakenBack hended, by simp⟩
  · exact .inl rfl

/-- Taking back leases keeps the store sound: a row that is released has no lease left to be written
wrongly. -/
theorem Sound.requeue (h : Sound last s) (at_ : Instant) : Sound last (s.requeue at_).2 := by
  rw [h.requeue_eq]
  refine h.map (fun r hr => ?_) fun r hr => ?_
  · unfold requeuedRow
    split_ifs
    · exact (h.rows r hr).released
    · exact h.rows r hr
  · unfold requeuedRow
    split_ifs
    · simp [MemoryStore.released]
    · rfl

/-- Between plain instants, taking back leases depends on the tasks alone. Elsewhere it does not:
the texts of years with a sign are out of order. -/
theorem Sound.requeue_tasks (h : Sound last s) {at_ : Instant} (hat : at_.IsPlain)
    (hplain : ∀ t ∈ s.tasks, ∀ deadline, t.leaseExpiresAt = some deadline → deadline.IsPlain) :
    (s.requeue at_).1 = .ok (s.tasks.filter (·.hasEndedLease at_)).length ∧
      (s.requeue at_).2.tasks =
        s.tasks.map fun t => if t.hasEndedLease at_ then MemoryStore.released t else t := by
  -- The statement compares texts; between plain instants that is comparing instants.
  have hended : ∀ r ∈ DatabaseStore.rows s.database,
      r.hasEndedLease at_.text = r.task.hasEndedLease at_ := fun r hr =>
    (h.rows r hr).hasEndedLease_eq hat (hplain _ (List.mem_map_of_mem hr))
  rw [h.requeue_eq]
  constructor
  · rw [tasks, List.filter_map, List.length_map, List.filter_congr hended]
    rfl
  · show ((DatabaseStore.rows s.database).map (requeuedRow at_)).map TaskRow.task = _
    rw [tasks, List.map_map, List.map_map]
    refine List.map_congr_left fun r hr => ?_
    simp only [Function.comp_apply, requeuedRow, hended r hr]
    split_ifs
    · exact r.task_released
    · rfl

/-- A row after a change of the task with an identifier. -/
def changedRow (id : String) (change : TaskRow → TaskRow) (r : TaskRow) : TaskRow :=
  if r.task.id = id then change r else r

/-- Changing the row of a task is changing the task. The condition is by identifier, so a statement
that picks its row in another way has to be brought into this form first (`Sound.isNext_eq`). -/
theorem Sound.changeRow (h : Sound last s) (id : String) (taskChange : Task → Task)
    {change : TaskRow → TaskRow} (htask : ∀ r, (change r).task = taskChange r.task)
    (hid : ∀ t, (taskChange t).id = t.id)
    (hsound : ∀ r, r.IsSound last → (change r).IsSound last) :
    (s.withRows ((DatabaseStore.rows s.database).map (changedRow id change))).tasks =
        MemoryStore.updateTask id taskChange s.tasks ∧
      Sound last (s.withRows ((DatabaseStore.rows s.database).map (changedRow id change))) := by
  constructor
  · show ((DatabaseStore.rows s.database).map (changedRow id change)).map TaskRow.task = _
    rw [tasks, MemoryStore.updateTask, List.map_map, List.map_map]
    refine List.map_congr_left fun r _ => ?_
    simp only [Function.comp_apply, changedRow]
    split_ifs
    · exact htask r
    · rfl
  · refine h.map (fun r hr => ?_) fun r _ => ?_
    · unfold changedRow
      split_ifs
      · exact hsound r (h.rows r hr)
      · exact h.rows r hr
    · unfold changedRow
      split_ifs
      · rw [htask, hid]
      · rfl

/-! ### Lists -/

/-- Whether a task was not created before another. -/
def notOlder (t u : Task) : Bool := u.createdAt.nanoseconds ≤ t.createdAt.nanoseconds

theorem notOlder_iff {t u : Task} :
    notOlder t u = true ↔ u.createdAt.nanoseconds ≤ t.createdAt.nanoseconds := by
  rw [notOlder, decide_eq_true_eq]

/-- Sorting puts later tasks first, whatever order they had. -/
theorem pairwise_mergeSort_notOlder (ts : List Task) :
    (ts.mergeSort notOlder).Pairwise fun t u => notOlder t u = true := by
  refine List.pairwise_mergeSort (fun t u v htu huv => ?_) (fun t u => ?_) ts
  · rw [notOlder_iff] at *
    exact huv.trans htu
  · rw [Bool.or_eq_true, notOlder_iff, notOlder_iff]
    exact le_total _ _

/-- Tasks in the order of their times of creation are turned around by sorting: no two times are the
same, so there is one list only in that order. -/
theorem mergeSort_eq_reverse {ts : List Task}
    (hsorted : ts.Pairwise fun t u => t.createdAt.nanoseconds < u.createdAt.nanoseconds) :
    ts.mergeSort notOlder = ts.reverse := by
  -- Both sides are sorted downwards and hold the same tasks, and no two tasks are equivalent.
  have hreverse : ts.reverse.Pairwise fun t u => notOlder t u = true :=
    List.pairwise_reverse.2 (hsorted.imp fun hlt => notOlder_iff.2 hlt.le)
  have hperm : (ts.mergeSort notOlder).Perm ts.reverse :=
    (List.mergeSort_perm _ _).trans (List.reverse_perm ts).symm
  have hnodup : (ts.map (·.createdAt.nanoseconds)).Nodup :=
    List.pairwise_map.2 (hsorted.imp fun hlt => ne_of_lt hlt)
  have hsort := pairwise_mergeSort_notOlder ts
  refine hperm.eq_of_pairwise (fun t u ht hu htu hut => ?_) hsort hreverse
  rw [notOlder_iff] at htu hut
  exact List.inj_on_of_nodup_map hnodup (List.mem_mergeSort.1 ht) (List.mem_reverse.1 hu)
    (le_antisymm hut htu)

/-- The tasks of an owner are listed from the latest to the first. No row is left out and no list
fails, because every row can be read. -/
theorem Readable.list_eq (h : Readable s) (owner : Int) :
    s.list owner = .ok ((s.tasks.filter (·.owner = owner)).mergeSort notOlder) := by
  have hown : ∀ r ∈ (DatabaseStore.rows s.database).filter (·.owner = owner), r.IsReadable :=
    fun r hr => h.rows r (List.mem_filter.1 hr).1
  have hbefore : ∀ q ∈ (DatabaseStore.rows s.database).filter (·.owner = owner),
      ∀ r ∈ (DatabaseStore.rows s.database).filter (·.owner = owner),
      (!q.before r) = notOlder q.task r.task := by
    intro q hq r hr
    rw [Bool.eq_iff_iff, Bool.not_eq_true', Bool.eq_false_iff, Ne,
      (hown q hq).before_iff (hown r hr), not_lt, notOlder_iff]
  -- Reading drops rows that make no sense, and there are none.
  have hread : ∀ {rs : List TaskRow}, (∀ r ∈ rs, r.IsReadable) →
      rs.filterMap (fun r => r.toTask.toOption) = rs.map TaskRow.task := by
    intro rs hrows
    rw [← List.filterMap_eq_map]
    exact List.filterMap_congr fun r hr => by simp [(hrows r hr).toTask_eq, Except.toOption]
  have hfilter : ((DatabaseStore.rows s.database).filter (·.owner = owner)).map TaskRow.task =
      s.tasks.filter (·.owner = owner) := by
    rw [tasks, List.filter_map]
    rfl
  rw [DatabaseStore.list, Database.readTasks_eq h.table]
  simp only
  rw [hread fun r hr => hown r (List.mem_mergeSort.1 hr), List.map_mergeSort hbefore, hfilter]

/-- The tasks of an owner are listed in the order of their identifiers, the greatest first, which is
how the store in memory lists them. -/
theorem Sound.list_eq (h : Sound last s) (owner : Int) :
    s.list owner = .ok (s.tasks.reverse.filter (·.owner = owner)) := by
  have hcreated : s.tasks.Pairwise fun t u =>
      t.createdAt.nanoseconds < u.createdAt.nanoseconds := by
    refine List.pairwise_map.2 (h.sorted_rows.imp_of_mem fun {q r} hq hr hlt => ?_)
    have hqRow := h.rows q hq
    have hrRow := h.rows r hr
    exact (hqRow.isReadable.before_iff hrRow.isReadable).1 ((hqRow.before_iff hrRow).2 hlt)
  rw [h.readable.list_eq, mergeSort_eq_reverse (hcreated.filter _), List.filter_reverse]

/-! ### Claims -/

theorem foldl_older {r : TaskRow} {rest : List TaskRow}
    (hfirst : ∀ q ∈ rest, q.before r = false) : rest.foldl older r = r := by
  induction rest with
  | nil => rfl
  | cons q rest ih =>
    have hq : older r q = r := by simp [older, hfirst q (by simp)]
    rw [List.foldl_cons, hq]
    exact ih fun p hp => hfirst p (by simp [hp])

/-- Among rows in order, the oldest pending row is the first one, so a claim hands out the task that
the store in memory would. -/
theorem Sound.oldestPending_eq (h : Sound last s) :
    oldestPending (DatabaseStore.rows s.database) =
      (DatabaseStore.rows s.database).find? (·.status = TaskStatus.pending.text) := by
  have horder : (DatabaseStore.rows s.database).Pairwise fun q r => r.before q = false := by
    refine h.sorted_rows.imp_of_mem fun hq hr hlt => ?_
    rw [Bool.eq_false_iff, Ne, (h.rows _ hr).before_iff (h.rows _ hq)]
    exact String.lt_asymm hlt
  have hpending := horder.filter (·.status = TaskStatus.pending.text)
  rw [← List.head?_filter, oldestPending]
  cases hfilter : (DatabaseStore.rows s.database).filter (·.status = TaskStatus.pending.text) with
  | nil => rfl
  | cons r rest =>
    rw [hfilter] at hpending
    simp [foldl_older (List.pairwise_cons.1 hpending).1]

/-- No two rows have tasks with the same identifier: what is said of a row by the identifier of its
task is said of one row. -/
theorem Readable.eq_of_id (h : Readable s) {q r : TaskRow}
    (hq : q ∈ DatabaseStore.rows s.database) (hr : r ∈ DatabaseStore.rows s.database)
    (hid : q.task.id = r.task.id) : q = r := by
  have hdistinct : ((DatabaseStore.rows s.database).map fun r => r.task.id).Nodup := by
    have htasks := h.distinct
    rwa [tasks, List.map_map] at htasks
  exact List.inj_on_of_nodup_map hdistinct hq hr hid

/-- The statement that hands out a task changes the oldest pending row alone. The statement asks for
a time of creation, and on sound rows that is asking for an identifier. -/
theorem Sound.isNext_eq (h : Sound last s) {oldest : TaskRow}
    (holdest : (DatabaseStore.rows s.database).find? (·.status = TaskStatus.pending.text) =
      some oldest) {r : TaskRow} (hr : r ∈ DatabaseStore.rows s.database) :
    isNext s.database r = decide (r.task.id = oldest.task.id) := by
  have hmem := List.mem_of_find?_eq_some holdest
  have hpending : oldest.status = TaskStatus.pending.text := by
    simpa using List.find?_some holdest
  have hid : r.id = oldest.id ↔ r.task.id = oldest.task.id := by
    rw [(h.rows r hr).id_eq, (h.rows _ hmem).id_eq, Option.some.injEq]
  rw [isNext, h.oldestPending_eq, holdest]
  by_cases hsame : r.task.id = oldest.task.id
  · obtain rfl := h.readable.eq_of_id hr hmem hsame
    simp [hpending, (h.rows r hr).id_eq]
  · simp [hid, hsame]

/-- The rows that the statement gives back begin with the row that was handed out, and the table
differs in that row only. -/
theorem Sound.handOut_eq (h : Sound last s) (now deadline : Instant) {oldest : TaskRow}
    (holdest : (DatabaseStore.rows s.database).find? (·.status = TaskStatus.pending.text) =
      some oldest) :
    ∃ more, s.database.updateTasks claimColumns (isNext s.database)
        (.claimed now.text deadline.text) =
      .ok (oldest.claimed now.text deadline.text :: more,
        s.database.withRows ((DatabaseStore.rows s.database).map
          (changedRow oldest.task.id (.claimed now.text deadline.text)))) := by
  have hmem := List.mem_of_find?_eq_some holdest
  have hrows : (DatabaseStore.rows s.database).map
        (fun r => if isNext s.database r then r.claimed now.text deadline.text else r) =
      (DatabaseStore.rows s.database).map
        (changedRow oldest.task.id (.claimed now.text deadline.text)) :=
    List.map_congr_left fun r hr => by simp [h.isNext_eq holdest hr, changedRow]
  rw [Database.updateTasks_eq h.table h.triggers, hrows]
  -- The statement returns the changed rows, of which the first is shown: it is the oldest one.
  cases hfilter : (DatabaseStore.rows s.database).filter (isNext s.database) with
  | nil =>
    have hnot := List.filter_eq_nil_iff.1 hfilter oldest hmem
    simp [h.isNext_eq holdest hmem] at hnot
  | cons first rest =>
    have hfirst : first ∈ (DatabaseStore.rows s.database).filter (isNext s.database) := by
      simp [hfilter]
    rw [List.mem_filter] at hfirst
    have hsame : first = oldest :=
      h.readable.eq_of_id hfirst.1 hmem (by simpa [h.isNext_eq holdest hfirst.1] using hfirst.2)
    exact ⟨_, by rw [hsame, List.map_cons]⟩

/-- With nothing pending, a claim only takes back leases. It does that before it looks for a task,
so a task may be handed out in the very call that takes it back. -/
theorem Sound.claim_none (h : Sound last s) {now deadline : Instant} {lease : Span}
    (hdeadline : now.add? lease = some deadline)
    (hnone : (s.requeue now).2.tasks.find? (·.status = .pending) = none) :
    s.claim now lease = (.ok none, (s.requeue now).2) := by
  have hstore : Sound last (s.requeue now).2 := h.requeue now
  rw [hstore.find?_status, Option.map_eq_none_iff] at hnone
  have hnext : ∀ r ∈ DatabaseStore.rows (s.requeue now).2.database,
      isNext (s.requeue now).2.database r = false := by
    intro r _
    simp only [isNext, hstore.oldestPending_eq, hnone]
  have hupdate := Database.updateTasks_none hstore.table claimColumns
    (.claimed now.text deadline.text) hnext
  rw [h.requeue_eq] at hupdate ⊢
  simp only [DatabaseStore.claim, hdeadline, h.requeue_eq, hupdate]

/-- A claim hands out the oldest pending task, under the lease that is read back. The lease may
differ from what was asked for, namely where its deadline has no plain text. -/
theorem Sound.claim_some (h : Sound last s) {now deadline : Instant} {lease : Span}
    (hnow : now.IsPlain) (hdeadline : now.add? lease = some deadline) {oldest : Task}
    (holdest : (s.requeue now).2.tasks.find? (·.status = .pending) = some oldest) :
    (s.claim now lease).1 =
        .ok (some (MemoryStore.claimed now (Retention.columns.instant deadline) oldest)) ∧
      (s.claim now lease).2.tasks =
        MemoryStore.updateTask oldest.id
          (MemoryStore.claimed now (Retention.columns.instant deadline))
          (s.requeue now).2.tasks ∧
      (s.claim now lease).2.database.users = s.database.users ∧
      Sound last (s.claim now lease).2 := by
  have hstore : Sound last (s.requeue now).2 := h.requeue now
  rw [hstore.find?_status, Option.map_eq_some_iff] at holdest
  obtain ⟨r, hfind, rfl⟩ := holdest
  -- The row that is returned can be read, also where its deadline cannot be given back.
  have hproper : deadline.IsProper := hnow.proper.of_add? hdeadline
  have hrow : (r.claimed now.text deadline.text).IsSound last :=
    (hstore.rows r (List.mem_of_find?_eq_some hfind)).claimed hproper _
  obtain ⟨more, hupdate⟩ := hstore.handOut_eq now deadline hfind
  have hclaim : s.claim now lease =
      (.ok (some (r.claimed now.text deadline.text).task),
        (s.requeue now).2.withRows ((DatabaseStore.rows (s.requeue now).2.database).map
          (changedRow r.task.id (.claimed now.text deadline.text)))) := by
    rw [h.requeue_eq] at hupdate ⊢
    simp only [DatabaseStore.claim, hdeadline, h.requeue_eq, hupdate, hrow.toTask_eq]
    rfl
  obtain ⟨htasks, hsound⟩ := hstore.changeRow r.task.id
    (MemoryStore.claimed now (Retention.columns.instant deadline))
    (TaskRow.task_claimed hnow deadline) (fun _ => rfl) fun q hq => hq.claimed hproper now.text
  rw [hclaim]
  refine ⟨by rw [TaskRow.task_claimed hnow], htasks, ?_, hsound⟩
  rw [h.requeue_eq]
  rfl

/-! ### Results -/

/-- A missing task is reported, and nothing changes. -/
theorem Sound.complete_missing (h : Sound last s) (now : Instant) {id : String} (x : Binary64)
    (hmissing : ∀ t ∈ s.tasks, t.id ≠ id) : s.complete now id x = (.error (.noTask id), s) := by
  have hnone : ∀ r ∈ DatabaseStore.rows s.database, decide (r.id = some id) = false := by
    intro r hr
    rw [(h.rows r hr).id_eq]
    simpa using hmissing _ (List.mem_map_of_mem hr)
  rw [DatabaseStore.complete, Database.updateTasks_none h.table _ _ hnone]

/-- The result of a task is recorded as a column keeps it: without the sign of zero, and not at all
if it is NaN. -/
theorem Sound.complete_found (h : Sound last s) {now : Instant} (hnow : now.IsPlain) {id : String}
    (x : Binary64) (hfound : ∃ t ∈ s.tasks, t.id = id) :
    (s.complete now id x).1 = .ok () ∧
      (s.complete now id x).2.tasks = MemoryStore.updateTask id (fun t =>
        { MemoryStore.completed now x t with result := Retention.columns.number x }) s.tasks ∧
      (s.complete now id x).2.database.users = s.database.users ∧
      Sound last (s.complete now id x).2 := by
  have hrows : (DatabaseStore.rows s.database).map
        (fun r => if decide (r.id = some id) = true then r.completed now.text x else r) =
      (DatabaseStore.rows s.database).map (changedRow id (.completed now.text x)) :=
    List.map_congr_left fun r hr => by simp [(h.rows r hr).id_eq, changedRow]
  have hcomplete : s.complete now id x =
      (.ok (), s.withRows
        ((DatabaseStore.rows s.database).map (changedRow id (.completed now.text x)))) := by
    rw [DatabaseStore.complete, Database.updateTasks_eq h.table h.triggers, hrows]
    -- No changed row would mean that the task is missing.
    cases hfilter : (DatabaseStore.rows s.database).filter (fun r => decide (r.id = some id)) with
    | cons r rest => rfl
    | nil =>
      obtain ⟨t, ht, hid⟩ := hfound
      obtain ⟨r, hr, rfl⟩ := List.mem_map.1 ht
      have hnot := List.filter_eq_nil_iff.1 hfilter r hr
      simp [(h.rows r hr).id_eq, hid] at hnot
  obtain ⟨htasks, hsound⟩ := h.changeRow id
    (fun t => { MemoryStore.completed now x t with result := Retention.columns.number x })
    (TaskRow.task_completed hnow x) (fun _ => rfl) fun r hr => hr.completed now.text x
  rw [hcomplete]
  exact ⟨rfl, htasks, rfl, hsound⟩

/-! ### Recording -/

/-- A number that is due is greater than the numbers of all tasks. So the row is no duplicate, and
it stays in order at the end of the table. -/
theorem Sound.id_lt (h : Sound last s) {now : Instant} (hdue : IsTaskNumber (numberDue last now))
    {t : Task} (ht : t ∈ s.tasks) : t.id < taskId (numberDue last now) := by
  obtain ⟨r, hr, rfl⟩ := List.mem_map.1 ht
  obtain ⟨n, hid, hnumber, hle, -⟩ := (h.rows r hr).number
  have htask : r.task.id = taskId n := by
    simp [TaskRow.task, hid, (isZeroFree_taskId n).textRead]
  rw [htask, taskId_lt_iff hnumber hdue]
  exact lt_of_le_of_lt hle (lt_numberDue last now)

/-- The number that is due is used up also where nothing is recorded, since the counter has moved
before the statement fails. -/
theorem Sound.useNumber (h : Sound last s) (now : Instant) :
    Sound (numberDue last now) { s with lastNumber := numberDue last now } where
  number := rfl
  number_nonneg := h.number_nonneg.trans (lt_numberDue last now).le
  users := h.users
  triggers := h.triggers
  migrations := h.migrations
  table := h.table
  rows r hr := (h.rows r hr).mono (lt_numberDue last now).le
  sorted := h.sorted

/-- What recording a task comes to: it is refused for an owner who is no user. No other statement of
a sound store ever fails. -/
theorem Sound.enqueue_eq (h : Sound last s) {now : Instant}
    (hdue : IsTaskNumber (numberDue last now)) {lastId : Int} {users : List User}
    (husers : s.database.users = some (.numbered lastId users)) (owner : Int)
    (expression : String) (work : Work) :
    s.enqueue now owner expression work =
      if users.any (·.id = owner) then
        (.ok (taskId (numberDue last now)),
          { s.withRows (DatabaseStore.rows s.database ++
              [.ofTask (.fresh (taskId (numberDue last now)) owner expression work
                (.ofNanoseconds (numberDue last now)))]) with
            lastNumber := numberDue last now })
      else
        (.error (queryFault "enqueue" .foreignKey),
          { s with lastNumber := numberDue last now }) := by
  have hnext : nextNumber s.lastNumber now = some (numberDue last now) := by
    rw [h.number, nextNumber_eq hdue]
  have hknown : s.database.isUser owner = .ok (users.any (·.id = owner)) := by
    simp only [Database.isUser, husers]
  have hnew : (DatabaseStore.rows s.database).any
      (fun r => r.id = some (taskId (numberDue last now))) = false := by
    rw [List.any_eq_false]
    intro r hr
    rw [(h.rows r hr).id_eq]
    simpa using ne_of_lt (h.id_lt hdue (List.mem_map_of_mem hr))
  -- Of all that an insertion is checked against, only the owner can fail.
  simp only [DatabaseStore.enqueue, hnext, Database.insertTask_eq h.table h.triggers,
    TaskRow.ofTask, Task.fresh, hknown, hnew, Option.isSome_some, Bool.true_and]
  cases users.any (·.id = owner) <;> rfl

theorem Sound.enqueue_known (h : Sound last s) {now : Instant}
    (hdue : IsTaskNumber (numberDue last now)) {lastId : Int} {users : List User}
    (husers : s.database.users = some (.numbered lastId users)) {owner : Int}
    (howner : users.any (·.id = owner) = true) (expression : String) (work : Work) :
    (s.enqueue now owner expression work).1 = .ok (taskId (numberDue last now)) ∧
      (s.enqueue now owner expression work).2.tasks = s.tasks ++
        [Retention.columns.submitted (.fresh (taskId (numberDue last now)) owner expression work
          (.ofNanoseconds (numberDue last now)))] ∧
      (s.enqueue now owner expression work).2.database.users = s.database.users ∧
      Sound (numberDue last now) (s.enqueue now owner expression work).2 := by
  rw [h.enqueue_eq hdue husers, if_pos howner]
  have htasks : (s.withRows (DatabaseStore.rows s.database ++
      [.ofTask (.fresh (taskId (numberDue last now)) owner expression work
        (.ofNanoseconds (numberDue last now)))])).tasks = s.tasks ++
      [Retention.columns.submitted (.fresh (taskId (numberDue last now)) owner expression work
        (.ofNanoseconds (numberDue last now)))] := by
    show (DatabaseStore.rows s.database ++ [_]).map TaskRow.task = _
    rw [List.map_append, List.map_singleton, TaskRow.task_ofTask hdue.isInt64]
    rfl
  refine ⟨rfl, htasks, rfl, rfl, h.number_nonneg.trans (lt_numberDue last now).le, h.users,
    h.triggers, h.migrations, rfl, fun r hr => ?_, ?_⟩
  · rcases List.mem_append.1 hr with hr | hr
    · exact (h.rows r hr).mono (lt_numberDue last now).le
    · rw [List.mem_singleton.1 hr]
      exact TaskRow.isSound_ofTask hdue owner expression work
  · show List.Pairwise _ (s.withRows _).tasks
    rw [htasks]
    refine List.pairwise_append.2 ⟨h.sorted, by simp, fun t ht u hu => ?_⟩
    rw [List.mem_singleton.1 hu]
    exact h.id_lt hdue ht

/-! ### Users -/

/-- Without triggers, registering a login is refused where the login is taken. -/
theorem createUser_eq (htriggers : s.database.triggers = []) {lastId : Int} {users : List User}
    (husers : s.database.users = some (.numbered lastId users)) (login passwordHash : String) :
    s.createUser login passwordHash =
      if users.any (·.login = login) then (.error (.loginTaken login), s)
      else
        (.ok (lastId + 1),
          { s with database := { s.database with
            users := some (.numbered (lastId + 1)
              (users ++ [⟨lastId + 1, login, passwordHash⟩])) } }) := by
  have haction : s.database.triggered .users .insert = none := by
    simp [Database.triggered, htriggers]
  simp only [DatabaseStore.createUser, Database.insertUser, husers, haction]
  cases users.any (·.login = login) <;> rfl

/-- Other users change nothing about tasks: the two tables are only tied by the test of an owner at
insertion. -/
theorem Sound.withUsers (h : Sound last s) (lastId : Int) (users : List User) :
    Sound last { s with database := { s.database with users := some (.numbered lastId users) } } :=
  ⟨h.number, h.number_nonneg, ⟨lastId, users, rfl⟩, h.triggers, h.migrations, h.table, h.rows,
    h.sorted⟩

/-- Registering, whether it succeeds or not, keeps the store sound and its tasks as they are. -/
theorem Sound.createUser (h : Sound last s) (login passwordHash : String) :
    Sound last (s.createUser login passwordHash).2 ∧
      (s.createUser login passwordHash).2.tasks = s.tasks := by
  obtain ⟨lastId, users, husers⟩ := h.users
  rw [createUser_eq h.triggers husers]
  split_ifs
  · exact ⟨h, rfl⟩
  · exact ⟨h.withUsers _ _, rfl⟩

/-! ### Calls -/

/-- A sound store is up to date, so that preparing it once more does nothing. -/
theorem Sound.prepare_eq (h : Sound last s) : s.prepare = (.ok (), s) := by
  simp only [prepare, Database.upgrade_eq h.migrations]

theorem Sound.enqueue (h : Sound last s) {now : Instant}
    (hdue : IsTaskNumber (numberDue last now)) (owner : Int) (expression : String) (work : Work) :
    Sound (numberDue last now) (s.enqueue now owner expression work).2 := by
  obtain ⟨lastId, users, husers⟩ := h.users
  by_cases howner : users.any (·.id = owner) = true
  · exact (h.enqueue_known hdue husers howner expression work).2.2.2
  · rw [h.enqueue_eq hdue husers, if_neg howner]
    exact h.useNumber now

/-- Handing out keeps the store sound. The deadline is an instant that was written, however far away
it is, which is all that `IsSound` asks of a lease. -/
theorem Sound.claim (h : Sound last s) {now : Instant} (hnow : now.IsPlain) (lease : Span) :
    Sound last (s.claim now lease).2 := by
  cases hdeadline : now.add? lease with
  | none =>
    simp only [DatabaseStore.claim, hdeadline]
    exact h
  | some deadline =>
    cases holdest : (s.requeue now).2.tasks.find? (·.status = .pending) with
    | none =>
      rw [h.claim_none hdeadline holdest]
      exact h.requeue now
    | some oldest => exact (h.claim_some hnow hdeadline holdest).2.2.2

theorem Sound.complete (h : Sound last s) {now : Instant} (hnow : now.IsPlain) (id : String)
    (x : Binary64) : Sound last (s.complete now id x).2 := by
  by_cases hfound : ∃ t ∈ s.tasks, t.id = id
  · exact (h.complete_found hnow x hfound).2.2.2
  · rw [h.complete_missing now x fun t ht hid => hfound ⟨t, ht, hid⟩]
    exact h

/-- Every call preserves the invariant. This is the step of every induction over runs; the last
number moves with it, as only recording uses one. -/
theorem Sound.run (h : Sound last s) {c : Call} (hnow : c.now.IsPlain)
    (hfits : c.NumberFits last) : Sound (c.numberAfter last) (c.run s).2 := by
  obtain ⟨now, command⟩ := c
  cases command with
  | enqueue owner expression work =>
    rw [Call.numberAfter_of_enqueue rfl hfits]
    exact h.enqueue (hfits rfl) owner expression work
  | claim lease => exact h.claim hnow lease
  | complete id x => exact h.complete hnow id x
  | get id => exact h
  | list owner => exact h
  | requeue at_ => exact h.requeue at_
  | createUser login passwordHash => exact (h.createUser login passwordHash).1
  | findUser login => exact h

/-! ### Moves -/

/-- What recording does to the task with any identifier: nothing, or it is the new one. -/
theorem move_enqueue (h : Sound last s) {now : Instant}
    (hdue : IsTaskNumber (numberDue last now)) {owner : Int} {expression : String} {work : Work}
    (id : String) :
    TaskMove .columns ⟨now, .enqueue owner expression work⟩
      (Call.run ⟨now, .enqueue owner expression work⟩ s).1 id (s.tasks.find? (·.id = id))
      ((s.enqueue now owner expression work).2.tasks.find? (·.id = id)) := by
  have hrun : Call.run ⟨now, .enqueue owner expression work⟩ s =
      (.ofResult .taskId (s.enqueue now owner expression work).1,
        (s.enqueue now owner expression work).2) := rfl
  obtain ⟨lastId, users, husers⟩ := h.users
  by_cases howner : users.any (·.id = owner) = true
  · obtain ⟨hanswer, htasks, -⟩ := h.enqueue_known hdue husers howner expression work
    rw [hrun, hanswer, htasks]
    exact .record rfl rfl hdue (fun t ht => ne_of_lt (h.id_lt hdue ht)) id
  · rw [hrun, h.enqueue_eq hdue husers, if_neg howner]
    exact .untouched (by simp [StoreAnswer.ofResult]) (by simp) id _

/-- What a claim does to the task with any identifier. Two things can happen at once, as a lease may
be taken back before the task is handed out. -/
theorem move_claim (h : Sound last s) {now : Instant} (hnow : now.IsPlain) {lease : Span}
    (id : String) :
    TaskMove .columns ⟨now, .claim lease⟩ (Call.run ⟨now, .claim lease⟩ s).1 id
      (s.tasks.find? (·.id = id)) ((s.claim now lease).2.tasks.find? (·.id = id)) := by
  have hrun : Call.run ⟨now, .claim lease⟩ s =
      (.ofResult .claimed (s.claim now lease).1, (s.claim now lease).2) := rfl
  rw [hrun]
  cases hdeadline : now.add? lease with
  | none =>
    simp only [DatabaseStore.claim, hdeadline]
    exact .untouched (by simp [StoreAnswer.ofResult]) (by simp) id _
  | some deadline =>
    have hasked : Call.deadline? ⟨now, .claim lease⟩ = some deadline := hdeadline
    have htime : Call.requeueTime ⟨now, .claim lease⟩ = some now :=
      Call.requeueTime_of_deadline? hasked
    cases holdest : (s.requeue now).2.tasks.find? (·.status = .pending) with
    | none =>
      rw [h.claim_none hdeadline holdest]
      exact .requeue htime (by simp [StoreAnswer.ofResult]) (by simp) (h.requeuedAs now) id
    | some oldest =>
      obtain ⟨hanswer, htasks, -⟩ := h.claim_some hnow hdeadline holdest
      rw [hanswer, htasks]
      exact .handOut hasked htime (by simp) (h.requeuedAs now) (h.requeue now).sorted
        (List.mem_of_find?_eq_some holdest) (by simpa using List.find?_some holdest) rfl id

theorem move_complete (h : Sound last s) {now : Instant} (hnow : now.IsPlain) {id : String}
    {x : Binary64} (other : String) :
    TaskMove .columns ⟨now, .complete id x⟩ (Call.run ⟨now, .complete id x⟩ s).1 other
      (s.tasks.find? (·.id = other)) ((s.complete now id x).2.tasks.find? (·.id = other)) := by
  have hrun : Call.run ⟨now, .complete id x⟩ s =
      (.ofResult (fun _ => .done) (s.complete now id x).1, (s.complete now id x).2) := rfl
  rw [hrun]
  by_cases hfound : ∃ t ∈ s.tasks, t.id = id
  · obtain ⟨hanswer, htasks, -⟩ := h.complete_found hnow x hfound
    rw [hanswer, htasks]
    exact .complete rfl rfl hfound other
  · have hmissing : ∀ t ∈ s.tasks, t.id ≠ id := fun t ht hid => hfound ⟨t, ht, hid⟩
    rw [h.complete_missing now x hmissing]
    exact .complete_missing rfl rfl hmissing other

/-- **The store on a database keeps tasks, as far as its columns can tell them apart.** Everything
that was proved of runs from `KeepsTasks` is there for databases from here on. -/
theorem keepsTasks : KeepsTasks .columns Sound where
  faithful := Retention.isFaithful_columns
  sound_run h hnow hfits := h.run hnow hfits
  get id h := h.readable.get_cases id
  prepare h := h.prepare_eq
  move {last s c} id h hnow hfits := by
    rw [h.task?_eq, (h.run hnow hfits).task?_eq]
    obtain ⟨now, command⟩ := c
    cases command with
    | enqueue owner expression work => exact move_enqueue h (hfits rfl) id
    | claim lease => exact move_claim h hnow id
    | complete other x => exact move_complete h hnow id
    | requeue at_ =>
      have hrun : Call.run ⟨now, .requeue at_⟩ s =
          (.ofResult .count (s.requeue at_).1, (s.requeue at_).2) := rfl
      have hclaim : ∀ t, (Call.run ⟨now, .requeue at_⟩ s).1 ≠ .claimed (some t) :=
        fun _ => Call.run_ne_claimed (by simp) s _
      rw [hrun] at hclaim ⊢
      exact .requeue rfl hclaim (by simp) (h.requeuedAs at_) id
    | createUser login passwordHash =>
      have htasks : (Call.run ⟨now, .createUser login passwordHash⟩ s).2.tasks = s.tasks :=
        (h.createUser login passwordHash).2
      rw [htasks]
      exact .untouched (fun _ => Call.run_ne_claimed (by simp) s _) (by simp) id _
    | get other => exact .untouched (fun _ => Call.run_ne_claimed (by simp) s _) (by simp) id _
    | list owner => exact .untouched (fun _ => Call.run_ne_claimed (by simp) s _) (by simp) id _
    | findUser login =>
      exact .untouched (fun _ => Call.run_ne_claimed (by simp) s _) (by simp) id _

end DatabaseStore

end ArithService
