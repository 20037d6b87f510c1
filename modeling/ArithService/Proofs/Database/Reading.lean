import Mathlib
import ArithService.Proofs.Database.Restarts
import ArithService.Proofs.Database.Sweeps
import ArithService.Proofs.Store.Reading

/-!
# What is read of tasks on a database

Every state of a store on a database, whatever the clock has shown and however often the store was
closed, finds the same tasks one by one and in lists.

## Main Definitions

* `DatabaseStore.IsReachable` — a state that a store on a database can get into

## Design Notes

Rows keep making sense without any bounds on the clock: a counter with no room left gives out no
number, every number that it gives out has 64 bits, and the table refuses an identifier that it has
already. Where the numbers are in another order than their texts, lists follow the numbers.
-/

namespace ArithService

namespace DatabaseStore

/-- A state that a store on a database can get into, from a new database on, whatever the clock
shows. -/
def IsReachable (s : DatabaseStore) : Prop := ∃ steps ids, empty.history steps = .ok (ids, s)

/-- A run without closings is a history, so that what is proved of histories holds of runs. -/
theorem history_map_call (s : DatabaseStore) (calls : List Call) :
    s.history (calls.map .call) = .ok (newIds s calls, runCalls s calls) := by
  induction calls generalizing s with
  | nil => rfl
  | cons c rest ih =>
    rw [List.map_cons, history, ih, newIds_cons]
    rfl

theorem isReachable_runCalls (calls : List Call) : IsReachable (runCalls empty calls) :=
  ⟨_, _, history_map_call empty calls⟩

variable {s o : DatabaseStore}

/-- The task in a row is found. For a list and a lookup to agree, every task of the list has to be
found by its identifier. -/
theorem Readable.get_task (h : Readable s) {r : TaskRow}
    (hr : r ∈ DatabaseStore.rows s.database) : Store.get r.task.id s = .ok r.task := by
  rw [← Store.task?_eq_some_iff, h.task?_eq, find?_eq_some_iff_mem h.distinct]
  exact List.mem_map_of_mem hr

/-! ### Rows keep making sense -/

/-- A readable store is in order, which is what the equations about statements ask for. -/
theorem Readable.inOrder (h : Readable s) : InOrder s := ⟨h.table, h.triggers⟩

/-- Changing some rows, without their identifiers, keeps a store readable. Which rows are meant does
not matter, so nothing has to be known about the condition of a statement. -/
theorem Readable.mapWhere (h : Readable s) (p : TaskRow → Prop) [DecidablePred p]
    {change : TaskRow → TaskRow} (hchange : ∀ r, r.IsReadable → (change r).IsReadable)
    (hid : ∀ r, (change r).id = r.id) :
    Readable (s.withRows ((DatabaseStore.rows s.database).map
      fun r => if p r then change r else r)) where
  triggers := h.triggers
  migrations := h.migrations
  table := rfl
  rows r hr := by
    obtain ⟨q, hq, rfl⟩ := List.mem_map.1 hr
    split_ifs
    · exact hchange q (h.rows q hq)
    · exact h.rows q hq
  distinct := by
    rw [map_id_withRows fun r _ => ?_]
    · exact h.distinct
    · split_ifs
      · rw [TaskRow.task, TaskRow.task, hid]
      · rfl

theorem Readable.requeue (h : Readable s) (at_ : Instant) : Readable (s.requeue at_).2 := by
  rw [requeue_eq h.table h.triggers]
  exact h.mapWhere (fun r => r.hasEndedLease at_.text = true) (fun _ hr => hr.released) fun _ => rfl

/-- Handing out keeps a store readable, also where the deadline is out of range and where the
statement meets more rows than one. -/
theorem Readable.claim (h : Readable s) (now : Instant) (lease : Span) :
    Readable (s.claim now lease).2 := by
  cases hdeadline : now.add? lease with
  | none =>
    simp only [DatabaseStore.claim, hdeadline]
    exact h
  | some deadline =>
    have hswept := h.requeue now
    rw [requeue_eq h.table h.triggers] at hswept
    rw [h.inOrder.claim_eq hdeadline]
    exact hswept.mapWhere (fun r => isNext _ r = true)
      (fun _ hr => hr.claimed now.text deadline.text) fun _ => rfl

theorem Readable.complete (h : Readable s) (now : Instant) (id : String) (x : Binary64) :
    Readable (s.complete now id x).2 := by
  rw [h.inOrder.complete_eq]
  exact h.mapWhere (fun r => r.id = some id) (fun _ hr => hr.completed now.text x) fun _ => rfl

/-- A new row is refused, or is the only one for its task. Here the table does what the counter does
within the bounds of the clock: it keeps identifiers apart. -/
theorem Readable.insertTask (h : Readable s) (columns : List TaskColumn) {r : TaskRow}
    (hr : r.IsReadable) :
    (∃ f, s.database.insertTask columns r = .error f) ∨
      s.database.insertTask columns r =
          .ok (s.database.withRows (DatabaseStore.rows s.database ++ [r])) ∧
        Readable (s.withRows (DatabaseStore.rows s.database ++ [r])) := by
  rw [Database.insertTask_eq h.table h.triggers]
  cases s.database.isUser r.owner with
  | error f => exact .inl ⟨f, rfl⟩
  | ok known =>
    dsimp only
    split_ifs with htaken hknown
    · exact .inl ⟨_, rfl⟩
    · exact .inl ⟨_, rfl⟩
    · refine .inr ⟨rfl, h.triggers, h.migrations, rfl, fun q hq => ?_, ?_⟩
      · rcases List.mem_append.1 hq with hq | hq
        · exact h.rows q hq
        · rwa [List.mem_singleton.1 hq]
      · show (((DatabaseStore.rows s.database ++ [r]).map TaskRow.task).map (·.id)).Nodup
        rw [List.map_append, List.map_append, List.nodup_append]
        refine ⟨h.distinct, by simp, fun a ha b hb => ?_⟩
        obtain rfl : b = r.task.id := by simpa using hb
        obtain ⟨t, ht, rfl⟩ := List.mem_map.1 ha
        obtain ⟨q, hq, rfl⟩ := List.mem_map.1 ht
        intro hsame
        refine htaken ?_
        rw [Bool.and_eq_true, List.any_eq_true]
        refine ⟨by rw [hr.id_eq]; rfl, q, hq, ?_⟩
        rw [(h.rows q hq).id_eq, hr.id_eq, hsame, decide_eq_true_eq]

/-- A task is refused, or its row is added. In either case its number is used up, if there is one
for it. -/
theorem Readable.enqueue_cases (h : Readable s) (now : Instant) (owner : Int) (expression : String)
    (work : Work) :
    (∃ e, s.enqueue now owner expression work =
      (.error e, { s with lastNumber := (nextNumber s.lastNumber now).getD s.lastNumber })) ∨
    ∃ number, s.enqueue now owner expression work = (.ok (taskId number),
        { s.withRows (DatabaseStore.rows s.database ++
            [.ofTask (.fresh (taskId number) owner expression work (.ofNanoseconds number))]) with
          lastNumber := number }) ∧
      Readable (s.withRows (DatabaseStore.rows s.database ++
        [.ofTask (.fresh (taskId number) owner expression work (.ofNanoseconds number))])) := by
  unfold DatabaseStore.enqueue
  cases hnext : nextNumber s.lastNumber now with
  | none => exact .inl ⟨_, rfl⟩
  | some number =>
    have hrow := TaskRow.isReadable_ofTask (isInt64_of_nextNumber hnext) owner expression work
    dsimp only
    rcases h.insertTask TaskColumn.ofNewTask hrow with ⟨f, hrefused⟩ | ⟨hadded, hafter⟩
    · rw [hrefused]
      exact .inl ⟨_, rfl⟩
    · rw [hadded]
      exact .inr ⟨number, rfl, hafter⟩

theorem Readable.withNumber (h : Readable s) (n : Int) : Readable { s with lastNumber := n } :=
  ⟨h.triggers, h.migrations, h.table, h.rows, h.distinct⟩

/-- Recording keeps a store readable: a number that is given out has 64 bits wherever the counter
stood. -/
theorem Readable.enqueue (h : Readable s) (now : Instant) (owner : Int) (expression : String)
    (work : Work) : Readable (s.enqueue now owner expression work).2 := by
  rcases h.enqueue_cases now owner expression work with ⟨e, hrefused⟩ | ⟨number, hadded, hafter⟩
  · rw [hrefused]
    exact h.withNumber _
  · rw [hadded]
    exact hafter.withNumber _

theorem Readable.createUser (h : Readable s) (login passwordHash : String) :
    Readable (s.createUser login passwordHash).2 := by
  have husers : ∀ users, Readable { s with database := { s.database with users := users } } :=
    fun users => ⟨h.triggers, h.migrations, h.table, h.rows, h.distinct⟩
  simp only [DatabaseStore.createUser, Database.insertUser, h.inOrder.triggered_eq]
  cases s.database.users with
  | none => exact h
  | some table =>
    cases table with
    | loose users => exact husers _
    | numbered lastId users =>
      dsimp only
      split_ifs
      · exact h
      · exact husers _

/-- **One call keeps a store readable**, whatever the clock shows. -/
theorem Readable.run (h : Readable s) (c : Call) : Readable (c.run s).2 := by
  obtain ⟨now, command⟩ := c
  cases command with
  | enqueue owner expression work => exact h.enqueue now owner expression work
  | claim lease => exact h.claim now lease
  | complete id x => exact h.complete now id x
  | requeue at_ => exact h.requeue at_
  | createUser login passwordHash => exact h.createUser login passwordHash
  | get _ => exact h
  | list _ => exact h
  | findUser _ => exact h

/-- Opening a database again does not touch its tables, as it is up to date already. -/
theorem Readable.database_reopen (h : Readable s)
    (hopen : (open_ s.database).1 = .ok o) : o.database = s.database := by
  simp only [open_, Database.upgrade_eq h.migrations] at hopen
  cases hnewest : s.database.newestId with
  | error f => simp [hnewest] at hopen
  | ok newest =>
    simp only [hnewest, Except.ok.injEq] at hopen
    rw [← hopen]

/-- A database that is opened again has the same rows. -/
theorem Readable.reopen (h : Readable s) (hopen : (open_ s.database).1 = .ok o) : Readable o := by
  have hsame := h.database_reopen hopen
  have htasks : o.tasks = s.tasks := by rw [tasks, tasks, hsame]
  refine ⟨?_, ?_, ?_, ?_, ?_⟩
  · rw [hsame]
    exact h.triggers
  · rw [hsame]
    exact h.migrations
  · rw [hsame]
    exact h.table
  · rw [hsame]
    exact h.rows
  · rw [htasks]
    exact h.distinct

theorem Readable.history (h : Readable s) {steps : List DatabaseStep} {ids : List String}
    (hhistory : s.history steps = .ok (ids, o)) : Readable o :=
  history_induction (fun h c => h.run c) (fun h hopen => h.reopen hopen) h hhistory

/-- Every state that can be got into is readable. Nothing is assumed of the clock or of the number
of tasks, unlike for `Sound`. -/
theorem IsReachable.readable (h : s.IsReachable) : Readable s := by
  obtain ⟨steps, ids, hhistory⟩ := h
  exact sound_empty.readable.history hhistory

/-! ### Lists -/

/-- No two tasks were created at the same time, so a list has one order only. -/
theorem Readable.id_eq_of_createdAt (h : Readable s) {t u : Task} (ht : t ∈ s.tasks)
    (hu : u ∈ s.tasks) (hcreated : t.createdAt.nanoseconds = u.createdAt.nanoseconds) :
    t.id = u.id := by
  obtain ⟨q, hq, rfl⟩ := List.mem_map.1 ht
  obtain ⟨r, hr, rfl⟩ := List.mem_map.1 hu
  obtain ⟨m, hm, hqId, -⟩ := (h.rows q hq).number
  obtain ⟨n, hn, hrId, -⟩ := (h.rows r hr).number
  rw [(h.rows q hq).createdAt_eq hqId hm, (h.rows r hr).createdAt_eq hrId hn,
    Instant.nanoseconds_ofNanoseconds, Instant.nanoseconds_ofNanoseconds] at hcreated
  rw [← Option.some.injEq, ← (h.rows q hq).id_eq, ← (h.rows r hr).id_eq, hqId, hrId, hcreated]

/-- On a database, tasks are listed from the latest time of creation down, and a lookup finds what
is in the lists. -/
theorem IsReachable.readsTasks (h : s.IsReachable) :
    ReadsTasks (fun t u => u.createdAt.nanoseconds < t.createdAt.nanoseconds) s where
  get := h.readable.get_cases
  list user := by
    have hreadable := h.readable
    have hlisted : ∀ t, t ∈ (s.tasks.filter (·.owner = user)).mergeSort notOlder ↔
        t ∈ s.tasks ∧ t.owner = user := fun t => by
      rw [List.mem_mergeSort, List.mem_filter, decide_eq_true_eq]
    have hdistinct : ((s.tasks.filter (·.owner = user)).mergeSort notOlder).Pairwise
        fun t u => t.id ≠ u.id := by
      rw [← List.pairwise_map (f := Task.id) (R := (· ≠ ·))]
      have hperm := (List.mergeSort_perm (s.tasks.filter (·.owner = user)) notOlder).map (·.id)
      exact hperm.nodup_iff.2 (hreadable.distinct.sublist (List.filter_sublist.map _))
    refine ⟨_, hreadable.list_eq user, ?_, fun t => ?_⟩
    · refine ((pairwise_mergeSort_notOlder _).and hdistinct).imp_of_mem ?_
      rintro t u ht hu ⟨hnotOlder, hid⟩
      refine lt_of_le_of_ne (notOlder_iff.1 hnotOlder) fun hsame => hid ?_
      exact hreadable.id_eq_of_createdAt ((hlisted t).1 ht).1 ((hlisted u).1 hu).1 hsame.symm
    · rw [hlisted, ← Store.task?_eq_some_iff, hreadable.task?_eq,
        find?_eq_some_iff_mem hreadable.distinct, and_comm]

end DatabaseStore

end ArithService
