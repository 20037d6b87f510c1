import Mathlib
import ArithService.Proofs.Database.Store
import ArithService.Proofs.Store.Exclusive
import ArithService.Proofs.Store.Sweeps

/-!
# Sweeps change no answer, on a database either

## Main Definitions

* `DatabaseStore.leasing` — rows as a sweep sees them
* `DatabaseStore.InOrder` — a database on which every statement about tasks can be carried out
* `DatabaseStore.handOutNext` — the part of a claim that comes after leases were taken back

## Design Notes

Nothing is asked of the rows: a statement compares texts, so neither the numbers of tasks nor
the deadlines of leases have to be in any range. Only the instants of claims and sweeps do, as
their order has to be the order of their texts.
-/

namespace ArithService

namespace DatabaseStore

/-- Rows as a sweep sees them. -/
def leasing : Leasing TaskRow where
  ended at_ r := r.hasEndedLease at_.text
  released := TaskRow.released
  FinishedAlike q r :=
    r.status = TaskStatus.completed.text ∧ ∃ started, q = { r with startedAt := started }
  ended_released n r := by simp [TaskRow.hasEndedLease, TaskRow.released, TaskStatus.text]
  ended_finished := by
    rintro q r ⟨hstatus, started, rfl⟩ n
    simp [TaskRow.hasEndedLease, hstatus, TaskStatus.text]
  ended_mono := by
    intro n now r hplain hnow hle hended
    simp only [TaskRow.hasEndedLease, Bool.and_eq_true] at hended ⊢
    refine ⟨hended.1, ?_⟩
    cases hdeadline : r.leaseExpiresAt with
    | none => simp [hdeadline] at hended
    | some deadline =>
      have hbefore : deadline ≤ n.text := by simpa [hdeadline] using hended.2
      simpa using hbefore.trans ((hplain.text_le_text_iff hnow).2 hle)

variable {sweeps : List Instant} {q r : TaskRow}

theorem id_eq_of_trails (h : leasing.Trails sweeps q r) : q.id = r.id := by
  obtain _ | _ | ⟨-, started, rfl⟩ := h <;> rfl

/-- Completing a row hides whether it was taken back: only the start is still to be seen, which no
answer shows of a completed task. -/
theorem trails_completed (h : leasing.Trails sweeps q r) (now : String) (x : Binary64) :
    leasing.Trails sweeps (q.completed now x) (r.completed now x) := by
  obtain _ | _ | ⟨-, started, rfl⟩ := h
  · exact .same _
  · exact .finished ⟨rfl, none, rfl⟩
  · exact .finished ⟨rfl, started, rfl⟩

/-- A claim settles also when a row was started. -/
theorem trails_claimed (h : leasing.Trails [] q r) (now deadline : String) :
    leasing.Trails [] (q.claimed now deadline) (r.claimed now deadline) := by
  rcases h.settled with rfl | ⟨-, started, rfl⟩
  · exact .same _
  · exact .same _

/-- A database with a table of tasks up to date, and without triggers. -/
structure InOrder (s : DatabaseStore) : Prop where
  table : s.database.tasks = .table TaskColumn.all (rows s.database)
  triggers : s.database.triggers = []

variable {s o : DatabaseStore}

theorem InOrder.withRows (h : InOrder s) (rows : List TaskRow) : InOrder (s.withRows rows) :=
  ⟨rfl, h.triggers⟩

/-- A store in a run with sweeps, and in the run without them. -/
structure Trails (sweeps : List Instant) (s o : DatabaseStore) : Prop where
  left : InOrder s
  right : InOrder o
  rows : List.Forall₂ (leasing.Trails sweeps) (rows s.database) (rows o.database)
  users : s.database.users = o.database.users
  lastNumber : s.lastNumber = o.lastNumber

/-- Other rows in both runs, with everything else as it was. -/
theorem Trails.withRows (h : Trails sweeps s o) {later : List Instant} {qs rs : List TaskRow}
    (hrows : List.Forall₂ (leasing.Trails later) qs rs) :
    Trails later (s.withRows qs) (o.withRows rs) :=
  ⟨h.left.withRows qs, h.right.withRows rs, hrows, h.users, h.lastNumber⟩

theorem Trails.of_settled (h : Trails [] s o) : Trails sweeps s o :=
  ⟨h.left, h.right, h.rows.imp fun _ _ hrow => hrow.of_settled, h.users, h.lastNumber⟩

theorem InOrder.triggered_eq (h : InOrder s) (table : TableName) (event : RowEvent) :
    s.database.triggered table event = none := by
  simp [Database.triggered, h.triggers]

/-- A row is inserted in both runs, or refused in both for the same reason. -/
theorem Trails.insertTask (h : Trails sweeps s o) (columns : List TaskColumn) (r : TaskRow) :
    (∃ f, s.database.insertTask columns r = .error f ∧ o.database.insertTask columns r = .error f) ∨
      (s.database.insertTask columns r =
          .ok (s.database.withRows (DatabaseStore.rows s.database ++ [r])) ∧
        o.database.insertTask columns r =
          .ok (o.database.withRows (DatabaseStore.rows o.database ++ [r]))) := by
  have huser : s.database.isUser r.owner = o.database.isUser r.owner := by
    rw [Database.isUser, Database.isUser, h.users]
  have hnew := Leasing.any_eq h.rows (p := fun q => decide (q.id = r.id))
    fun p q hrow => by rw [id_eq_of_trails hrow]
  rw [Database.insertTask_eq h.left.table h.left.triggers,
    Database.insertTask_eq h.right.table h.right.triggers, huser, hnew]
  cases o.database.isUser r.owner with
  | error f => exact .inl ⟨f, rfl, rfl⟩
  | ok known =>
    dsimp only
    split_ifs
    · exact .inl ⟨_, rfl, rfl⟩
    · exact .inl ⟨_, rfl, rfl⟩
    · exact .inr ⟨rfl, rfl⟩

/-- Recording is answered alike, as rows of both runs have the same identifiers and users are the
same. -/
theorem Trails.enqueue (h : Trails sweeps s o) (now : Instant) (owner : Int) (expression : String)
    (work : Work) :
    (s.enqueue now owner expression work).1 = (o.enqueue now owner expression work).1 ∧
      Trails sweeps (s.enqueue now owner expression work).2
        (o.enqueue now owner expression work).2 := by
  have hnumber : ∀ n, Trails sweeps { s with lastNumber := n } { o with lastNumber := n } :=
    fun n => ⟨⟨h.left.table, h.left.triggers⟩, ⟨h.right.table, h.right.triggers⟩, h.rows, h.users,
      rfl⟩
  rw [DatabaseStore.enqueue, DatabaseStore.enqueue, h.lastNumber]
  cases nextNumber o.lastNumber now with
  | none => exact ⟨rfl, h⟩
  | some number =>
    dsimp only
    obtain ⟨f, hleft, hright⟩ | ⟨hleft, hright⟩ := h.insertTask TaskColumn.ofNewTask
      (.ofTask (.fresh (taskId number) owner expression work (.ofNanoseconds number)))
    · rw [hleft, hright]
      exact ⟨rfl, hnumber _⟩
    · rw [hleft, hright]
      exact ⟨rfl, (hnumber number).withRows (List.rel_append h.rows (.cons (.same _) .nil))⟩

/-- Taking back leases in both runs settles what sweeps have done, if none of them was ahead of the
clock: every lease that one run took back early has ended by now. -/
theorem Trails.requeue (h : Trails sweeps s o) {now : Instant} (hnow : now.IsPlain)
    (hbefore : ∀ n ∈ sweeps, n.IsPlain ∧ n.atMost now = true) :
    Trails [] (s.withRows ((DatabaseStore.rows s.database).map (requeuedRow now)))
      (o.withRows ((DatabaseStore.rows o.database).map (requeuedRow now))) := by
  refine h.withRows ?_
  rw [List.forall₂_map_left_iff, List.forall₂_map_right_iff]
  exact h.rows.imp fun q r hrow => hrow.settle hnow hbefore

/-- A row that is handed out was pending. -/
theorem status_of_isNext {db : Database} {r : TaskRow} (h : isNext db r = true) :
    r.status = TaskStatus.pending.text := by
  unfold isNext at h
  split at h
  · simp only [Bool.and_eq_true, decide_eq_true_eq] at h
    exact h.2
  · simp at h


theorem isNext_of_finishedAlike (db : Database) (h : leasing.FinishedAlike q r) :
    isNext db q = false ∧ isNext db r = false := by
  obtain ⟨hstatus, started, rfl⟩ := h
  unfold isNext
  cases oldestPending (rows db) <;> simp [hstatus, TaskStatus.text]

/-- Where sweeps are settled, the same row is next. The statement compares rows with each other, so
it is not enough to look at one of them. -/
theorem Trails.isNext_eq (h : Trails [] s o) : isNext s.database = isNext o.database := by
  have hpending := Leasing.filter_eq h.rows
    (p := fun r => decide (r.status = TaskStatus.pending.text)) <| by
      rintro q r ⟨hstatus, started, rfl⟩
      simp [hstatus, TaskStatus.text]
  have holdest : oldestPending (DatabaseStore.rows s.database) =
      oldestPending (DatabaseStore.rows o.database) := by
    rw [oldestPending, oldestPending, hpending]
  funext r
  rw [isNext, isNext, holdest]

/-- What a claim answers, by the rows that it has changed. -/
def changedAnswer : List TaskRow → Except StoreError (Option Task)
  | [] => .ok none
  | r :: _ =>
    match r.toTask with
    | .ok t => .ok (some t)
    | .error f => .error (.query ("row_to_task: " ++ f.message))

/-- The part of a claim that comes after leases were taken back. -/
def handOutNext (now deadline : Instant) (s : DatabaseStore) :
    Except StoreError (Option Task) × DatabaseStore :=
  (changedAnswer (((rows s.database).filter (isNext s.database)).map
      (.claimed now.text deadline.text)),
    s.withRows ((rows s.database).map fun r =>
      if isNext s.database r then r.claimed now.text deadline.text else r))

/-- A claim takes back leases and then hands out, so it begins with what settles sweeps. -/
theorem InOrder.claim_eq (h : InOrder s) {now deadline : Instant} {lease : Span}
    (hdeadline : now.add? lease = some deadline) :
    s.claim now lease =
      handOutNext now deadline (s.withRows ((rows s.database).map (requeuedRow now))) := by
  have hswept : InOrder (s.withRows ((rows s.database).map (requeuedRow now))) := h.withRows _
  simp only [DatabaseStore.claim, hdeadline, requeue_eq h.table h.triggers,
    Database.updateTasks_eq hswept.table hswept.triggers, handOutNext]
  cases ((rows (s.withRows ((rows s.database).map (requeuedRow now))).database).filter
      (isNext (s.withRows ((rows s.database).map (requeuedRow now))).database)).map
        (TaskRow.claimed now.text deadline.text) with
  | nil => rfl
  | cons r rest =>
    simp only [changedAnswer]
    cases r.toTask <;> rfl

/-- Where sweeps are settled, both runs hand out the same task. -/
theorem Trails.handOutNext (h : Trails [] s o) (now deadline : Instant) :
    (s.handOutNext now deadline).1 = (o.handOutNext now deadline).1 ∧
      Trails [] (s.handOutNext now deadline).2 (o.handOutNext now deadline).2 := by
  have hnext := Leasing.filter_eq h.rows fun q r halike =>
    isNext_of_finishedAlike o.database halike
  have hrows := Leasing.forall₂_map_ite h.rows (fun r => isNext o.database r = true)
    (fun r => r.claimed now.text deadline.text)
    (fun q r hrow => by
      rcases hrow.settled with rfl | halike
      · rfl
      · simp [isNext_of_finishedAlike o.database halike])
    (fun q r hrow _ => trails_claimed hrow now.text deadline.text)
  rw [DatabaseStore.handOutNext, DatabaseStore.handOutNext, h.isNext_eq, hnext]
  exact ⟨rfl, h.withRows hrows⟩

theorem Trails.claim (h : Trails sweeps s o) {now : Instant} (hnow : now.IsPlain)
    (hbefore : ∀ n ∈ sweeps, n.IsPlain ∧ n.atMost now = true) (lease : Span) :
    (s.claim now lease).1 = (o.claim now lease).1 ∧
      Trails sweeps (s.claim now lease).2 (o.claim now lease).2 := by
  cases hdeadline : now.add? lease with
  | none =>
    simp only [DatabaseStore.claim, hdeadline]
    exact ⟨trivial, h⟩
  | some deadline =>
    rw [h.left.claim_eq hdeadline, h.right.claim_eq hdeadline]
    obtain ⟨hanswer, hafter⟩ := (h.requeue hnow hbefore).handOutNext now deadline
    exact ⟨hanswer, hafter.of_settled⟩

/-- On tables in order and without triggers, a result is recorded if there is a row for it. -/
theorem InOrder.complete_eq (h : InOrder s) (now : Instant) (id : String) (x : Binary64) :
    s.complete now id x =
      (if (rows s.database).any (·.id = some id) then .ok () else .error (.noTask id),
        s.withRows ((rows s.database).map fun r =>
          if r.id = some id then r.completed now.text x else r)) := by
  rw [DatabaseStore.complete, Database.updateTasks_eq h.table h.triggers]
  cases hfilter : (rows s.database).filter (fun r => decide (r.id = some id)) with
  | nil =>
    have hnone : (rows s.database).any (fun r => decide (r.id = some id)) = false := by
      rw [← List.isSome_find?, ← List.head?_filter, hfilter]
      rfl
    simp [hnone, DatabaseStore.withRows]
  | cons r rest =>
    have hsome : (rows s.database).any (fun r => decide (r.id = some id)) = true := by
      rw [← List.isSome_find?, ← List.head?_filter, hfilter]
      rfl
    simp [hsome, DatabaseStore.withRows]

/-- A result is recorded or refused alike, whether or not a sweep has taken the task back before. -/
theorem Trails.complete (h : Trails sweeps s o) (now : Instant) (id : String) (x : Binary64) :
    (s.complete now id x).1 = (o.complete now id x).1 ∧
      Trails sweeps (s.complete now id x).2 (o.complete now id x).2 := by
  have hfound := Leasing.any_eq h.rows (p := fun r => decide (r.id = some id))
    fun q r hrow => by rw [id_eq_of_trails hrow]
  have hrows := Leasing.forall₂_map_ite h.rows (fun r => r.id = some id)
    (fun r => r.completed now.text x)
    (fun q r hrow => by rw [id_eq_of_trails hrow])
    (fun q r hrow _ => trails_completed hrow now.text x)
  rw [h.left.complete_eq, h.right.complete_eq, hfound]
  exact ⟨rfl, h.withRows hrows⟩

theorem Trails.createUser (h : Trails sweeps s o) (login passwordHash : String) :
    (s.createUser login passwordHash).1 = (o.createUser login passwordHash).1 ∧
      Trails sweeps (s.createUser login passwordHash).2 (o.createUser login passwordHash).2 := by
  have husers : ∀ users, Trails sweeps { s with database := { s.database with users := users } }
      { o with database := { o.database with users := users } } :=
    fun users => ⟨⟨h.left.table, h.left.triggers⟩, ⟨h.right.table, h.right.triggers⟩, h.rows, rfl,
      h.lastNumber⟩
  simp only [DatabaseStore.createUser, Database.insertUser, h.users, h.left.triggered_eq,
    h.right.triggered_eq]
  cases o.database.users with
  | none => exact ⟨rfl, h⟩
  | some table =>
    cases table with
    | loose users => exact ⟨rfl, husers _⟩
    | numbered lastId users =>
      dsimp only
      split_ifs
      · exact ⟨rfl, h⟩
      · exact ⟨rfl, husers _⟩

/-- No client or worker of a store on a database can tell whether there were sweeps. The runs that
start empty are in order, and stay so. -/
theorem ignoresSweeps : IgnoresSweeps Trails where
  requeue {sweeps s o} at_ h := by
    show Trails _ (s.requeue at_).2 o
    rw [requeue_eq h.left.table h.left.triggers]
    refine ⟨h.left.withRows _, h.right, ?_, h.users, h.lastNumber⟩
    show List.Forall₂ _ ((DatabaseStore.rows s.database).map (leasing.release at_)) _
    rw [List.forall₂_map_left_iff]
    exact h.rows.imp fun q r hrow => hrow.sweep at_
  enqueue now owner expression work h := h.enqueue now owner expression work
  claim lease h hnow hbefore := h.claim hnow hbefore lease
  complete now id x h := h.complete now id x
  createUser login passwordHash h := h.createUser login passwordHash
  findUser {sweeps s o} login h := by
    show s.findUser login = o.findUser login
    rw [DatabaseStore.findUser, DatabaseStore.findUser, Database.findLogin, Database.findLogin,
      h.users]

end DatabaseStore

/-! ### Both stores -/

/-- **Sweeps change no answer.** Whatever sweeps are added to a run that starts empty, in memory
or on a database, everything that is recorded, claimed or completed is answered as before, if no
sweep is ahead of the clock of a later claim. -/
theorem sweeps_change_no_answer {calls : List Call} (hplain : ∀ c ∈ calls, c.HasPlainTimes)
    (horder : SweepsInTime calls) :
    servedAnswers MemoryStore.empty calls =
        servedAnswers MemoryStore.empty (calls.filter (!·.isSweep)) ∧
      servedAnswers DatabaseStore.empty calls =
        servedAnswers DatabaseStore.empty (calls.filter (!·.isSweep)) := by
  have hmemory : MemoryStore.Trails [] .empty .empty := ⟨.nil, rfl, rfl, rfl⟩
  have hinOrder : DatabaseStore.InOrder .empty :=
    ⟨DatabaseStore.sound_empty.table, DatabaseStore.sound_empty.triggers⟩
  have hdatabase : DatabaseStore.Trails [] .empty .empty := ⟨hinOrder, hinOrder, .nil, rfl, rfl⟩
  exact ⟨MemoryStore.ignoresSweeps.servedAnswers_eq hmemory hplain horder (by simp),
    DatabaseStore.ignoresSweeps.servedAnswers_eq hdatabase hplain horder (by simp)⟩

/-- A sweep at a second. -/
def sweepAt (second : Int) : Call := ⟨⟨second, 0⟩, .requeue ⟨second, 0⟩⟩

/-- A task that is taken back from its first worker and completed by the second one after it was
taken back again. -/
def sweptTask : List Call :=
  oneTask ++ [claimAt 1700000002, sweepAt 1700000062, claimAt 1700000063, sweepAt 1700000123,
    ⟨⟨1700000124, 0⟩, .complete (taskId 1700000001000000000) (.ofNat 4)⟩, claimAt 1700000125]

theorem hasPlainTimes_of_seconds {second : Int} (hlow : 0 ≤ second) (hhigh : second ≤ 253402300799)
    {command : StoreCommand}
    (hsweep : ∀ at_ ∈ (Call.mk ⟨second, 0⟩ command).sweepTime, at_ = ⟨second, 0⟩) :
    (Call.mk ⟨second, 0⟩ command).HasPlainTimes where
  now := isPlain_of_seconds hlow hhigh
  sweep at_ hat := hsweep at_ hat ▸ isPlain_of_seconds hlow hhigh

/-- Taking back a task twice changes no answer about it. -/
theorem sweeps_change_no_answer_twice :
    (∀ c ∈ sweptTask, c.HasPlainTimes) ∧ SweepsInTime sweptTask ∧
      servedAnswers MemoryStore.empty sweptTask =
        servedAnswers MemoryStore.empty (sweptTask.filter (!·.isSweep)) ∧
      servedAnswers DatabaseStore.empty sweptTask =
        servedAnswers DatabaseStore.empty (sweptTask.filter (!·.isSweep)) := by
  have hplain : ∀ c ∈ sweptTask, c.HasPlainTimes := by
    simp only [sweptTask, oneTask, claimAt, sweepAt, List.cons_append, List.nil_append,
      List.forall_mem_cons, List.not_mem_nil, false_imp_iff, implies_true, and_true]
    refine ⟨?_, ?_, ?_, ?_, ?_, ?_, ?_, ?_⟩ <;>
      exact hasPlainTimes_of_seconds (by decide) (by decide) (by simp [Call.sweepTime])
  have horder : SweepsInTime sweptTask := by decide +kernel
  exact ⟨hplain, horder, sweeps_change_no_answer hplain horder⟩

end ArithService
