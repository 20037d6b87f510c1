import Mathlib
import ArithService.Proofs.Store.Exclusive

/-!
# The lifecycle of a task

Every task of a store is pending, in progress or completed, and its other fields fit its
status. No call ever changes what was submitted, and the status only moves as it should.

## Main Definitions

* `Task.HasShape` — the fields of a task fit a status
* `Task.Follows` — what a call may make of a task that is there already
* `Lifecycle` — the property of a run

## Design Notes

Both parts are read off the cases of `TaskMove`. Whether a lease had ended when it was taken
back is only known for plain deadlines, so the invariant carries that stored deadlines are
plain (`Task.IsWellKept`).
-/

namespace ArithService

/-! ### Shapes -/

/-- The fields of a task fit a status. -/
def Task.HasShape (t : Task) : TaskStatus → Prop
  | .pending => t.status = .pending ∧ t.result = none ∧ t.startedAt = none ∧
      t.completedAt = none ∧ t.leaseExpiresAt = none
  | .inProgress => t.status = .inProgress ∧ t.startedAt ≠ none ∧ t.leaseExpiresAt ≠ none ∧
      t.result = none ∧ t.completedAt = none
  | .completed => t.status = .completed ∧ t.result ≠ none ∧ t.completedAt ≠ none ∧
      t.leaseExpiresAt = none

theorem Task.HasShape.status_eq {t : Task} {status : TaskStatus} (h : t.HasShape status) :
    t.status = status := by
  cases status <;> exact h.1

/-- A task whose fields fit its status has exactly one shape. Every shape fixes the status, so that
no two of them can be mixed up, and only the first one is left to show along a run. -/
theorem Task.HasShape.existsUnique {t : Task} (h : t.HasShape t.status) :
    ∃! status, t.HasShape status :=
  ⟨t.status, h, fun _ hother => hother.status_eq.symm⟩

/-- A task whose fields fit its status and whose deadline, if any, is plain. -/
structure Task.IsWellKept (t : Task) : Prop where
  shape : t.HasShape t.status
  deadline : ∀ deadline, t.leaseExpiresAt = some deadline → deadline.IsPlain

/-! ### Moves -/

/-- How the status of a task may move in a call. -/
inductive Task.StatusMove (c : Call) (t u : Task) : Prop where
  | unchanged (hstatus : u.status = t.status)
  | claimed (lease : Span) (hcommand : c.command = .claim lease) (hbefore : t.status = .pending)
      (hafter : u.status = .inProgress)
  | takenBack (n deadline : Instant) (htime : c.requeueTime = some n)
      (hlease : t.leaseExpiresAt = some deadline) (hended : deadline.atMost n = true)
      (hbefore : t.status = .inProgress) (hafter : u.status = .pending)
  | completed (x : Binary64) (hcommand : c.command = .complete t.id x)
      (hafter : u.status = .completed)

/-- The parts of a task that are fixed when it is submitted. -/
structure Task.SameSubmission (t u : Task) : Prop where
  id : u.id = t.id
  owner : u.owner = t.owner
  expression : u.expression = t.expression
  arg1 : u.arg1 = t.arg1
  arg2 : u.arg2 = t.arg2
  operation : u.operation = t.operation
  createdAt : u.createdAt = t.createdAt

/-- What a call may make of a task: the submission stays, the status moves as it may, and a
completed task only changes when another result is recorded for it. -/
structure Task.Follows (c : Call) (t u : Task) : Prop where
  submission : t.SameSubmission u
  status : t.StatusMove c u
  completed : t.status = .completed → u.status = .completed ∧
    (u = t ∨ ∃ x, c.command = .complete t.id x ∧
      u = { t with result := u.result, completedAt := some c.now })

section Moves

variable {K : Retention} {c : Call} {a : StoreAnswer} {id : String} {t : Task}
  {before after : Option Task}

/-- **Every call keeps tasks well kept.** The cases are those of `TaskMove`. NaN is left out because
a table gives no number back for it, and the completed task would then be without a result. -/
theorem TaskMove.isWellKept (h : TaskMove K c a id before after) (hfaithful : K.IsFaithful)
    (hplain : c.IsPlain a) (hnumber : ∀ id, c.command ≠ .complete id .nan)
    (hbefore : ∀ t, before = some t → t.IsWellKept) {u : Task} (hafter : after = some u) :
    u.IsWellKept := by
  cases h with
  | kept _ _ => exact hbefore u hafter
  | submitted _ _ _ _ =>
    obtain rfl := Option.some.inj hafter
    exact ⟨⟨rfl, rfl, rfl, rfl, rfl⟩, by simp [Retention.submitted, Task.fresh]⟩
  | @released t _ _ hlease _ =>
    obtain rfl := Option.some.inj hafter
    have hshape := (hbefore t rfl).shape
    rw [hlease.1] at hshape
    obtain ⟨-, -, -, hresult, hcompleted⟩ := hshape
    exact ⟨⟨rfl, hresult, rfl, hcompleted, rfl⟩, by simp [MemoryStore.released]⟩
  | @claimed t deadline hdeadline hstatus hanswer =>
    obtain rfl := Option.some.inj hafter
    have hplainDeadline := hplain.isPlain_deadline hanswer hdeadline
    -- Claiming clears neither a result nor a time of completion, so there must not be any.
    have hnone : t.result = none ∧ t.completedAt = none := by
      have hshape := (hbefore t rfl).shape
      rcases hstatus with hpending | hlease
      · rw [hpending] at hshape
        exact ⟨hshape.2.1, hshape.2.2.2.1⟩
      · rw [hlease.1] at hshape
        exact ⟨hshape.2.2.2.1, hshape.2.2.2.2⟩
    refine ⟨⟨rfl, by simp [MemoryStore.claimed], by simp [MemoryStore.claimed], hnone.1, hnone.2⟩,
      fun d hd => ?_⟩
    obtain rfl := Option.some.inj hd
    rwa [hfaithful.instant hplainDeadline]
  | @completed t x hcommand _ =>
    obtain rfl := Option.some.inj hafter
    have hnan : x ≠ .nan := fun h => hnumber id (h ▸ hcommand)
    obtain ⟨y, hy, -⟩ := hfaithful.number hnan
    exact ⟨⟨rfl, by simp [hy], by simp [MemoryStore.completed], rfl⟩,
      by simp [MemoryStore.completed]⟩

/-- **Every call makes of a task what it may.** That the deadline of the task is plain is needed in
one case only: a lease is taken back by comparing texts, and for a plain deadline this means that
the lease had ended. -/
theorem TaskMove.follows (h : TaskMove K c a id (some t) after) (hid : t.id = id)
    (hplain : c.IsPlain a) (hkept : t.IsWellKept) : ∃ u, after = some u ∧ t.Follows c u := by
  cases h with
  | kept _ _ =>
    exact ⟨t, rfl, ⟨rfl, rfl, rfl, rfl, rfl, rfl, rfl⟩, .unchanged rfl,
      fun hdone => ⟨hdone, .inl rfl⟩⟩
  | released htime hlease _ =>
    obtain ⟨hstatus, deadline, hdeadline, hended⟩ := hlease
    refine ⟨_, rfl, ⟨rfl, rfl, rfl, rfl, rfl, rfl, rfl⟩, ?_, by simp [hstatus]⟩
    exact .takenBack _ deadline htime hdeadline
      (hended (hkept.deadline deadline hdeadline) (hplain.requeueTime htime)) hstatus rfl
  | claimed hdeadline hstatus _ =>
    rcases hstatus with hpending | ⟨hprogress, -⟩
    · refine ⟨_, rfl, ⟨rfl, rfl, rfl, rfl, rfl, rfl, rfl⟩, ?_, by simp [hpending]⟩
      obtain ⟨lease, hcommand, -⟩ := c.exists_lease hdeadline
      exact .claimed lease hcommand hpending rfl
    · exact ⟨_, rfl, ⟨rfl, rfl, rfl, rfl, rfl, rfl, rfl⟩, .unchanged hprogress.symm,
        by simp [hprogress]⟩
  | completed hcommand _ =>
    refine ⟨_, rfl, ⟨rfl, rfl, rfl, rfl, rfl, rfl, rfl⟩, .completed _ (hid ▸ hcommand) rfl,
      fun hdone => ⟨rfl, .inr ⟨_, hid ▸ hcommand, ?_⟩⟩⟩
    -- The lease is cleared again, which changes nothing where the task was completed before.
    have hlease : t.leaseExpiresAt = none := by
      have hshape := hkept.shape
      rw [hdone] at hshape
      exact hshape.2.2.2
    simp [MemoryStore.completed, hdone, hlease]

end Moves

/-! ### Runs -/

/-- A run in bounds: the clock between 10^18 and 9.2 · 10^18 nanoseconds, fewer than 10^16 new
tasks, no NaN for a result, and nothing outside the years 0 to 9999. -/
structure IsOrderly {σ : Type} [Store σ] (s : σ) (calls : List Call) : Prop where
  clock : ∀ c ∈ calls, c.now.IsClockReading
  count : calls.countP Call.isEnqueue < 10 ^ 16
  numbers : ∀ c ∈ calls, ∀ id, c.command ≠ .complete id .nan
  plain : PlainRun s calls

/-- The lifecycle of all tasks in a run. -/
structure Lifecycle {σ : Type} [Store σ] (s : σ) (calls : List Call) : Prop where
  /-- After the run, every identifier has a task with exactly one shape, or no task. -/
  shapes : ∀ id, Store.get id (runCalls s calls) = .error (.noTask id) ∨
    ∃ t, Store.get id (runCalls s calls) = .ok t ∧ t.id = id ∧ ∃! status, t.HasShape status
  /-- In every call of the run, every task that was there is still there and follows. -/
  steps : ∀ earlier c later, calls = earlier ++ c :: later → ∀ id t,
    Store.get id (runCalls s earlier) = .ok t →
    ∃ u, Store.get id (runCalls s (earlier ++ [c])) = .ok u ∧ t.Follows c u
  /-- The schema is up to date, so that bringing it up to date changes nothing. -/
  upToDate : Store.prepare (runCalls s calls) = (.ok (), runCalls s calls)

namespace KeepsTasks

variable {σ : Type} [Store σ] {K : Retention} {Sound : Int → σ → Prop} {last : Int} {s : σ}
  {calls : List Call}

/-- Tasks stay well kept along a run. The induction is over the calls, with the number of the latest
task going along, since the invariant of a store speaks about this number. -/
theorem isWellKept_runCalls (hstore : KeepsTasks K Sound) (hsound : Sound last s)
    (hkept : ∀ id t, Store.task? id s = some t → t.IsWellKept) (hplain : PlainRun s calls)
    (hfit : NumbersFit last calls) (hnumbers : ∀ c ∈ calls, ∀ id, c.command ≠ .complete id .nan) :
    ∀ id t, Store.task? id (runCalls s calls) = some t → t.IsWellKept := by
  induction calls generalizing last s with
  | nil => exact hkept
  | cons c rest ih =>
    refine ih (hstore.sound_run hsound hplain.1.now hfit.1) (fun id t htask => ?_) hplain.2 hfit.2
      fun d hd => hnumbers d (by simp [hd])
    exact (hstore.move id hsound hplain.1.now hfit.1).isWellKept hstore.faithful hplain.1
      (hnumbers c (by simp)) (hkept id) htask

/-- A store that keeps tasks has the lifecycle in every orderly run from an empty state: the bounds
of the clock say that all numbers fit, and a step of the run is a single move. -/
theorem lifecycle (hstore : KeepsTasks K Sound) (hsound : Sound 0 s)
    (hempty : ∀ id, Store.task? id s = none) (horderly : IsOrderly s calls) :
    Lifecycle s calls := by
  have hfit : NumbersFit 0 calls := numbersFit_zero horderly.count horderly.clock
  -- What holds at any time of the run, from which the parts are read off.
  have hkeptAt : ∀ earlier later, calls = earlier ++ later →
      Sound (numberAfter 0 earlier) (runCalls s earlier) ∧
        ∀ id t, Store.task? id (runCalls s earlier) = some t → t.IsWellKept := by
    rintro earlier later rfl
    have hplain := (plainRun_append.1 horderly.plain).1
    have hfit := (numbersFit_append.1 hfit).1
    refine ⟨hstore.sound_runCalls hsound (fun _ hc => hplain.now_of_mem hc) hfit, ?_⟩
    exact hstore.isWellKept_runCalls hsound (by simp [hempty]) hplain hfit
      fun c hc => horderly.numbers c (by simp [hc])
  obtain ⟨hsoundAfter, hkeptAfter⟩ := hkeptAt calls [] (by simp)
  refine ⟨fun id => ?_, ?_, hstore.prepare hsoundAfter⟩
  · rcases hstore.get id hsoundAfter with ⟨t, hget, hid⟩ | hget
    · have hshape := (hkeptAfter id t (Store.task?_eq_some_iff.2 hget)).shape
      exact .inr ⟨t, hget, hid, hshape.existsUnique⟩
    · exact .inl hget
  · rintro earlier c later rfl id t hget
    have htask := Store.task?_eq_some_iff.2 hget
    obtain ⟨hsoundBefore, hkeptBefore⟩ := hkeptAt earlier (c :: later) rfl
    have hplain := (plainRun_append.1 horderly.plain).2.1
    have hmove := hstore.move id hsoundBefore hplain.now (numbersFit_append.1 hfit).2.1
    rw [htask] at hmove
    obtain ⟨u, hafter, hfollows⟩ := hmove.follows (hstore.id_of_task? hsoundBefore htask) hplain
      (hkeptBefore id t htask)
    refine ⟨u, ?_, hfollows⟩
    rw [runCalls_append]
    exact Store.task?_eq_some_iff.1 hafter

end KeepsTasks

/-- **The lifecycle of tasks**: in every orderly run from the empty store, in memory and on a
database, tasks have one of three shapes and change only as they may. -/
theorem task_lifecycle :
    (∀ calls, IsOrderly MemoryStore.empty calls → Lifecycle MemoryStore.empty calls) ∧
      ∀ calls, IsOrderly DatabaseStore.empty calls → Lifecycle DatabaseStore.empty calls := by
  constructor
  · intro calls horderly
    exact MemoryStore.keepsTasks.lifecycle MemoryStore.sound_empty MemoryStore.task?_empty horderly
  · intro calls horderly
    exact DatabaseStore.keepsTasks.lifecycle DatabaseStore.sound_empty DatabaseStore.task?_empty
      horderly

/-- A task from its claim to its result. -/
def oneResult : List Call :=
  oneTask ++ [claimAt 1700000002,
    ⟨⟨1700000003, 0⟩, .complete (taskId 1700000001000000000) (.ofNat 4)⟩]

theorem isOrderly_oneResult {σ : Type} [Store σ] (s : σ) : IsOrderly s oneResult where
  clock := by decide
  count := by decide
  numbers := by
    simp [oneResult, oneTask, claimAt, Binary64.ofNat, Binary64.ofRatio, Binary64.ofCode]
  plain := by
    have hclaim : ∀ a, (claimAt 1700000002).IsPlain a := fun _ =>
      isPlain_claimAt (by decide) (by decide) (by decide)
    have hresult : (⟨1700000003, 0⟩ : Instant).IsPlain := isPlain_of_seconds (by decide) (by decide)
    exact plainRun_append.2 ⟨plainRun_oneTask s, hclaim _,
      ⟨hresult, by simp, by simp [Call.deadline?]⟩, trivial⟩

/-- The lifecycle of a task from its claim to its result. -/
theorem task_lifecycle_oneResult :
    Lifecycle MemoryStore.empty oneResult ∧ Lifecycle DatabaseStore.empty oneResult :=
  ⟨task_lifecycle.1 oneResult (isOrderly_oneResult _),
    task_lifecycle.2 oneResult (isOrderly_oneResult _)⟩

end ArithService
