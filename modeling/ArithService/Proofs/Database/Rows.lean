import Mathlib
import ArithService.Proofs.Store.Moves
import ArithService.Database.Store

/-!
# Rows and the tasks in them

A row that the store has written reads back as a task, and changing the row is changing the
task.

## Main Definitions

* `Retention.columns` — what a table gives back of the values it is given
* `TaskRow.task` — the task in a row that makes sense
* `TaskRow.IsReadable` — a row that makes sense
* `TaskRow.IsSound` — a row that the store has written within the bounds of the clock

## Design Notes

`TaskRow.toTask` fails on rows that make no sense. `TaskRow.task` is total, so that tasks can be
read off a list of rows by a map; on rows that make sense the two agree (`IsReadable.toTask_eq`).
Rows make sense whatever the clock does; `IsSound` adds what only holds within its bounds.
-/

namespace ArithService

/-- What a table gives back of the values it is given. -/
def Retention.columns : Retention where
  text := textRead
  number := storedNumber
  instant t := TaskRow.timeRead t.text

/-- A column keeps every number but NaN, up to the sign of zero. So no finite result is ever
lost. -/
theorem storedNumber_sameNumber {x : Binary64} (h : x ≠ .nan) :
    ∃ y, storedNumber x = some y ∧ y.sameNumber x = true := by
  cases x with
  | nan => exact absurd rfl h
  | number negative code =>
    refine ⟨_, rfl, ?_⟩
    split_ifs with hzero
    · exact Binary64.sameNumber_of_isZero Binary64.isZero_zero hzero
    · exact Binary64.sameNumber_self (by simp)

namespace Retention

@[simp] theorem columns_text (text : String) : columns.text text = textRead text := rfl

@[simp] theorem columns_number (x : Binary64) : columns.number x = storedNumber x := rfl

@[simp] theorem columns_instant (t : Instant) :
    columns.instant t = TaskRow.timeRead t.text := by simp only [columns]

/-- A table is faithful in the sense that runs of both stores are compared under: texts without zero
characters, plain instants and numbers come back. -/
theorem isFaithful_columns : columns.IsFaithful where
  text h := by rw [columns_text, h.textRead]
  number h := by
    simp only [columns_number]
    exact storedNumber_sameNumber h
  instant h := by rw [columns_instant, h.timeRead_text]

end Retention

/-- A deadline that is given back as a plain instant was one. So it is enough to look at what a task
says of its lease to know what was asked for. -/
theorem isPlain_of_timeRead {t : Instant} (hproper : t.IsProper)
    (h : (TaskRow.timeRead t.text).IsPlain) : t.IsPlain := by
  refine hproper.isPlain ?_
  by_contra hyear
  rw [Instant.timeRead_text_of_year hyear] at h
  exact Instant.not_hasPlainYear_earliest h.hasPlainYear

namespace TaskStatus

theorem isZeroFree_text (status : TaskStatus) : IsZeroFree status.text := by
  cases status <;> simp [IsZeroFree, text]

@[simp] theorem ofText?_text (status : TaskStatus) : ofText? status.text = some status := by
  cases status <;> rfl

/-- Different statuses have different words: a statement that asks for a word asks for a status. -/
theorem text_inj {a b : TaskStatus} : a.text = b.text ↔ a = b := by
  cases a <;> cases b <;> simp [text]

end TaskStatus

namespace TaskRow

/-! ### The task in a row -/

/-- The task in a row that makes sense. -/
def task (r : TaskRow) : Task where
  id := textRead (r.id.getD "")
  owner := r.owner
  expression := textRead r.expression
  arg1 := textRead r.arg1
  arg2 := textRead r.arg2
  operation := textRead r.operation
  result := r.result
  status := (TaskStatus.ofText? (textRead r.status)).getD .pending
  createdAt := timeRead r.createdAt
  startedAt := r.startedAt.map timeRead
  completedAt := r.completedAt.map timeRead
  leaseExpiresAt := r.leaseExpiresAt.map timeRead

/-- A row that makes sense: its identifier and its time of creation come from one number, and its
status is a status. -/
structure IsReadable (r : TaskRow) : Prop where
  number : ∃ n, IsInt64 n ∧ r.id = some (taskId n) ∧ r.createdAt = (Instant.ofNanoseconds n).text
  status : ∃ status : TaskStatus, r.status = status.text

/-- A row that the store has written: its identifier and its time of creation come from one
number, its status is a status, and its lease was written as an instant. -/
structure IsSound (last : Int) (r : TaskRow) : Prop where
  number : ∃ n, r.id = some (taskId n) ∧ IsTaskNumber n ∧ n ≤ last ∧
    r.createdAt = (Instant.ofNanoseconds n).text
  status : ∃ status : TaskStatus, r.status = status.text
  lease : ∀ text, r.leaseExpiresAt = some text → ∃ d : Instant, d.IsProper ∧ text = d.text

variable {last : Int} {r : TaskRow}

/-- Within the bounds of the clock a row makes sense. The number has 64 bits, as one of 19 digits
that fits does. -/
theorem IsSound.isReadable (h : r.IsSound last) : r.IsReadable := by
  obtain ⟨n, hid, hnumber, -, hcreated⟩ := h.number
  exact ⟨⟨n, hnumber.isInt64, hid, hcreated⟩, h.status⟩

/-- A row stays sound as the counter moves on, which is what the rows that a call does not touch
need. -/
theorem IsSound.mono (h : r.IsSound last) {later : Int} (hle : last ≤ later) :
    r.IsSound later := by
  obtain ⟨n, hid, hnumber, hbound, hcreated⟩ := h.number
  exact ⟨⟨n, hid, hnumber, hbound.trans hle, hcreated⟩, h.status, h.lease⟩

/-- The identifier of a row is the identifier of its task, with nothing cut off in reading. -/
theorem IsReadable.id_eq (h : r.IsReadable) : r.id = some r.task.id := by
  obtain ⟨n, -, hid, -⟩ := h.number
  simp [task, hid, (isZeroFree_taskId n).textRead]

theorem IsSound.id_eq (h : r.IsSound last) : r.id = some r.task.id := h.isReadable.id_eq

/-- The time of creation of a row is read back, whatever number of 64 bits it was made from: all of
them lie in the years that have plain texts. -/
theorem IsReadable.createdAt_eq (h : r.IsReadable) {n : Int} (hid : r.id = some (taskId n))
    (hnumber : IsInt64 n) : r.task.createdAt = .ofNanoseconds n := by
  obtain ⟨m, hm, hrow, hcreated⟩ := h.number
  obtain rfl := (taskId_inj hm hnumber).1 (Option.some.inj (hrow.symm.trans hid))
  simp [task, hcreated, (Instant.isPlain_ofNanoseconds hm).timeRead_text]

/-- The status of a row is the status of its task: the default for other words is not used. -/
theorem IsSound.status_eq (h : r.IsSound last) : r.status = r.task.status.text := by
  obtain ⟨status, hstatus⟩ := h.status
  simp [task, hstatus, status.isZeroFree_text.textRead]

theorem IsSound.status_eq_iff (h : r.IsSound last) (status : TaskStatus) :
    r.status = status.text ↔ r.task.status = status := by
  rw [h.status_eq, TaskStatus.text_inj]

/-- A row that makes sense is read as its task, so that neither a lookup nor a list nor a claim can
fail on it. -/
theorem IsReadable.toTask_eq (h : r.IsReadable) : r.toTask = .ok r.task := by
  obtain ⟨n, -, hid, -⟩ := h.number
  obtain ⟨status, hstatus⟩ := h.status
  simp [toTask, task, hid, hstatus, status.isZeroFree_text.textRead]

theorem IsSound.toTask_eq (h : r.IsSound last) : r.toTask = .ok r.task := h.isReadable.toTask_eq

/-! ### Changes -/

@[simp] theorem task_released (r : TaskRow) : r.released.task = MemoryStore.released r.task := by
  simp [released, task, MemoryStore.released, TaskStatus.pending.isZeroFree_text.textRead]

/-- Handing out a row hands out its task, under the lease that is read back. The start is given back
as it was, the clock being plain, while the deadline may be far beyond. -/
theorem task_claimed {now : Instant} (hnow : now.IsPlain) (deadline : Instant) (r : TaskRow) :
    (r.claimed now.text deadline.text).task =
      MemoryStore.claimed now (Retention.columns.instant deadline) r.task := by
  simp [claimed, task, MemoryStore.claimed, TaskStatus.inProgress.isZeroFree_text.textRead,
    hnow.timeRead_text, Retention.columns]

/-- Completing a row completes its task, with the result that a column keeps. -/
theorem task_completed {now : Instant} (hnow : now.IsPlain) (x : Binary64) (r : TaskRow) :
    (r.completed now.text x).task =
      { MemoryStore.completed now x r.task with result := Retention.columns.number x } := by
  simp [completed, task, MemoryStore.completed, TaskStatus.completed.isZeroFree_text.textRead,
    hnow.timeRead_text, Retention.columns]

/-- The row of a new task reads back as the task, up to zero characters: a text is cut off at the
first one. -/
theorem task_ofTask {n : Int} (hnumber : IsInt64 n) (owner : Int) (expression : String)
    (work : Work) :
    (ofTask (.fresh (taskId n) owner expression work (.ofNanoseconds n))).task =
      Retention.columns.submitted
        (.fresh (taskId n) owner expression work (.ofNanoseconds n)) := by
  have hplain : (Instant.ofNanoseconds n).IsPlain := Instant.isPlain_ofNanoseconds hnumber
  simp [ofTask, Task.fresh, task, Retention.submitted, Retention.columns,
    (isZeroFree_taskId n).textRead, TaskStatus.pending.isZeroFree_text.textRead,
    hplain.timeRead_text]

theorem isSound_ofTask {n : Int} (hnumber : IsTaskNumber n) (owner : Int) (expression : String)
    (work : Work) :
    (ofTask (.fresh (taskId n) owner expression work (.ofNanoseconds n))).IsSound n where
  number := ⟨n, rfl, hnumber, le_rfl, rfl⟩
  status := ⟨.pending, rfl⟩
  lease := by simp [ofTask]

theorem isReadable_ofTask {n : Int} (hnumber : IsInt64 n) (owner : Int) (expression : String)
    (work : Work) :
    (ofTask (.fresh (taskId n) owner expression work (.ofNanoseconds n))).IsReadable where
  number := ⟨n, hnumber, rfl, rfl⟩
  status := ⟨.pending, rfl⟩

/-- What statements write in a row leaves its identifier and time of creation alone, and puts one of
the three words for a status. So rows make sense after every statement. -/
theorem IsReadable.released (h : r.IsReadable) : r.released.IsReadable :=
  ⟨h.number, ⟨.pending, rfl⟩⟩

/-- The same of the statement that hands out a row, whatever texts it writes as times. -/
theorem IsReadable.claimed (h : r.IsReadable) (now deadline : String) :
    (r.claimed now deadline).IsReadable := ⟨h.number, ⟨.inProgress, rfl⟩⟩

theorem IsReadable.completed (h : r.IsReadable) (now : String) (x : Binary64) :
    (r.completed now x).IsReadable := ⟨h.number, ⟨.completed, rfl⟩⟩

theorem IsSound.released (h : r.IsSound last) : r.released.IsSound last :=
  ⟨h.number, ⟨.pending, rfl⟩, by simp [TaskRow.released]⟩

theorem IsSound.claimed (h : r.IsSound last) {deadline : Instant} (hproper : deadline.IsProper)
    (now : String) : (r.claimed now deadline.text).IsSound last :=
  ⟨h.number, ⟨.inProgress, rfl⟩, fun _ htext =>
    ⟨deadline, hproper, (Option.some.inj htext).symm⟩⟩

theorem IsSound.completed (h : r.IsSound last) (now : String) (x : Binary64) :
    (r.completed now x).IsSound last :=
  ⟨h.number, ⟨.completed, rfl⟩, by simp [TaskRow.completed]⟩

/-! ### Leases -/

/-- A row whose lease has ended as a text has a task whose lease may be taken back. Texts are in the
order of time between plain instants; of other deadlines nothing is promised. -/
theorem IsSound.mayBeTakenBack (h : r.IsSound last) {at_ : Instant}
    (hended : r.hasEndedLease at_.text = true) : r.task.MayBeTakenBack at_ := by
  simp only [hasEndedLease, Bool.and_eq_true, decide_eq_true_eq] at hended
  obtain ⟨hstatus, hlease⟩ := hended
  refine ⟨(h.status_eq_iff .inProgress).1 hstatus, ?_⟩
  cases htext : r.leaseExpiresAt with
  | none => simp [htext] at hlease
  | some text =>
    obtain ⟨deadline, hproper, rfl⟩ := h.lease text htext
    have hlease : deadline.text ≤ at_.text := by simpa [htext] using hlease
    refine ⟨timeRead deadline.text, by simp [task, htext], fun hplain hat => ?_⟩
    have hdeadline : deadline.IsPlain := isPlain_of_timeRead hproper hplain
    rw [hdeadline.timeRead_text]
    exact (hdeadline.text_le_text_iff hat).1 hlease

/-- Between plain instants, the lease of a row has ended exactly when the lease of its task has,
since their texts are of one width and in the order of time. -/
theorem IsSound.hasEndedLease_eq (h : r.IsSound last) {at_ : Instant} (hat : at_.IsPlain)
    (hplain : ∀ deadline, r.task.leaseExpiresAt = some deadline → deadline.IsPlain) :
    r.hasEndedLease at_.text = r.task.hasEndedLease at_ := by
  have hstatus : (r.status = "in_progress") = (r.task.status = .inProgress) :=
    propext (h.status_eq_iff .inProgress)
  cases htext : r.leaseExpiresAt with
  | none => simp [hasEndedLease, Task.hasEndedLease, hstatus, task, htext]
  | some text =>
    obtain ⟨deadline, hproper, rfl⟩ := h.lease text htext
    have hread : r.task.leaseExpiresAt = some (timeRead deadline.text) := by simp [task, htext]
    have hdeadline : deadline.IsPlain := isPlain_of_timeRead hproper (hplain _ hread)
    have horder : decide (deadline.text ≤ at_.text) = deadline.atMost at_ := by
      rw [Bool.eq_iff_iff, decide_eq_true_eq, hdeadline.text_le_text_iff hat]
    rw [hasEndedLease, Task.hasEndedLease, hread, htext, hdeadline.timeRead_text]
    simp only [hstatus, horder]

/-! ### Order -/

/-- Rows are handed out in the order of their times of creation. The statement compares texts; that
it compares times is where all times of creation are plain. -/
theorem IsReadable.before_iff {q : TaskRow} (hq : q.IsReadable) (hr : r.IsReadable) :
    q.before r = true ↔
      q.task.createdAt.nanoseconds < r.task.createdAt.nanoseconds := by
  obtain ⟨m, hm, hmId, hmCreated⟩ := hq.number
  obtain ⟨n, hn, hnId, hnCreated⟩ := hr.number
  have htext : q.createdAt < r.createdAt ↔ m < n := by
    rw [hmCreated, hnCreated, Instant.text_ofNanoseconds_lt_iff
      (Instant.isPlain_ofNanoseconds hm) (Instant.isPlain_ofNanoseconds hn)]
  -- Rows of the same time have the same identifier, which does not come before itself.
  have hsame : ¬ (q.createdAt = r.createdAt ∧ idBefore q.id r.id = true) := by
    rintro ⟨hcreated, hids⟩
    have hnumber : m = n := by
      refine le_antisymm (not_lt.1 fun hlt => ?_) (not_lt.1 fun hlt => ?_)
      · rw [hmCreated, hnCreated] at hcreated
        have hback := (Instant.text_ofNanoseconds_lt_iff (Instant.isPlain_ofNanoseconds hn)
          (Instant.isPlain_ofNanoseconds hm)).2 hlt
        exact absurd hcreated.symm (ne_of_lt hback)
      · exact absurd hcreated (ne_of_lt (htext.2 hlt))
    rw [hmId, hnId, hnumber] at hids
    simp [idBefore] at hids
  rw [hq.createdAt_eq hmId hm, hr.createdAt_eq hnId hn, Instant.nanoseconds_ofNanoseconds,
    Instant.nanoseconds_ofNanoseconds, ← htext]
  simp only [before, Bool.or_eq_true, Bool.and_eq_true, decide_eq_true_eq]
  exact ⟨fun h => h.resolve_right hsame, .inl⟩

/-- Sound rows are handed out in the order of their identifiers, as both come from one number. -/
theorem IsSound.before_iff {q : TaskRow} (hq : q.IsSound last) (hr : r.IsSound last) :
    q.before r = true ↔ q.task.id < r.task.id := by
  obtain ⟨m, hm, hmNumber, -⟩ := hq.number
  obtain ⟨n, hn, hnNumber, -⟩ := hr.number
  have hqId : q.task.id = taskId m := Option.some.inj (hq.id_eq.symm.trans hm)
  have hrId : r.task.id = taskId n := Option.some.inj (hr.id_eq.symm.trans hn)
  rw [hq.isReadable.before_iff hr.isReadable, hq.isReadable.createdAt_eq hm hmNumber.isInt64,
    hr.isReadable.createdAt_eq hn hnNumber.isInt64, hqId, hrId, taskId_lt_iff hmNumber hnNumber,
    Instant.nanoseconds_ofNanoseconds, Instant.nanoseconds_ofNanoseconds]

end TaskRow

end ArithService
