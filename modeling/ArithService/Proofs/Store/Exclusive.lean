import Mathlib
import ArithService.Proofs.Database.Store
import ArithService.Proofs.Store.Memory

/-!
# Claims are exclusive

A task that was handed out is only handed out again after its lease has ended and was taken
back, and never after it was completed.

## Main Definitions

* `TakenBackBetween` — what lies between two claims of one task
* `HandsOutExclusively` — the property of a store in its first state

## Design Notes

The argument is about one task. From the claim on, the task is in progress under its deadline
until a requeue at the deadline or later (`exists_requeue_of_lease`). A completed task stays
completed and is not handed out, so no result can come before the second claim
(`KeepsTasks.not_handsOut_of_completed`). The clock may run in any direction.
-/

namespace ArithService

/-! ### One call -/

section Moves

variable {K : Retention} {c : Call} {a : StoreAnswer} {id : String} {t : Task}
  {before after : Option Task}

/-- A task that is handed out was pending or had a lease that could be taken back, and is in
progress under the deadline of the claim afterwards. Either of two claims is described by this. -/
theorem TaskMove.of_handsOut (h : TaskMove K c a id before after) (hout : a.HandsOut id) :
    ∃ t deadline, before = some t ∧ c.deadline? = some deadline ∧
      (t.status = .pending ∨ t.MayBeTakenBack c.now) ∧
      a = .claimed (some (MemoryStore.claimed c.now (K.instant deadline) t)) ∧
      after = some (MemoryStore.claimed c.now (K.instant deadline) t) := by
  cases h with
  | kept hclaim _ => exact absurd hout hclaim
  | submitted _ hanswer _ _ =>
    obtain ⟨u, hu, -⟩ := hout
    simp [hanswer] at hu
  | released _ _ hclaim => exact absurd hout hclaim
  | claimed hdeadline hstatus hanswer => exact ⟨_, _, rfl, hdeadline, hstatus, hanswer, rfl⟩
  | completed _ hanswer =>
    obtain ⟨u, hu, -⟩ := hout
    simp [hanswer] at hu

theorem Task.MayBeTakenBack.ne_completed {at_ : Instant} (h : t.MayBeTakenBack at_) :
    t.status ≠ .completed := by
  simp [h.1]

/-- A completed task stays as it is, unless another result is recorded for it. Results may be handed
in again, and the last one counts. -/
theorem TaskMove.of_completed (h : TaskMove K c a id (some t) after)
    (hdone : t.status = .completed) :
    (¬ a.HandsOut id ∧ after = some t) ∨ ∃ x, c.command = .complete id x ∧ a = .done ∧
      after = some { MemoryStore.completed c.now x t with result := K.number x } := by
  cases h with
  | kept hclaim _ => exact .inl ⟨hclaim, rfl⟩
  | released _ hlease _ => exact absurd hdone hlease.ne_completed
  | claimed _ hstatus _ =>
    rcases hstatus with hpending | hlease
    · simp [hdone] at hpending
    · exact absurd hdone hlease.ne_completed
  | completed hcommand hanswer => exact .inr ⟨_, hcommand, hanswer, rfl⟩

/-- A completed task stays completed and is not handed out. So no result can come between two claims
of one task. -/
theorem TaskMove.stays_completed (h : TaskMove K c a id (some t) after)
    (hdone : t.status = .completed) :
    ¬ a.HandsOut id ∧ ∃ u, after = some u ∧ u.status = .completed := by
  rcases h.of_completed hdone with ⟨hclaim, hsame⟩ | ⟨x, -, hanswer, hafter⟩
  · exact ⟨hclaim, t, hsame, hdone⟩
  · exact ⟨by simp [hanswer, StoreAnswer.HandsOut], _, hafter, rfl⟩

/-- A task in progress stays as it is, or is completed, or its lease has ended by the instant of a
requeue. The third case is what ends the induction over a run. -/
theorem TaskMove.of_inProgress (h : TaskMove K c a id (some t) after)
    (hstatus : t.status = .inProgress) {deadline : Instant}
    (hlease : t.leaseExpiresAt = some deadline) (hdeadline : deadline.IsPlain)
    (hplain : c.IsPlain a) :
    (¬ a.HandsOut id ∧ after = some t) ∨ (∃ u, after = some u ∧ u.status = .completed) ∨
      ∃ n, c.requeueTime = some n ∧ deadline.atMost n = true := by
  -- All instants are plain here, so a lease that may be taken back has ended.
  have hended : ∀ {n}, c.requeueTime = some n → t.MayBeTakenBack n → deadline.atMost n = true := by
    rintro n htime ⟨-, d, hd, hby⟩
    obtain rfl := Option.some.inj (hlease.symm.trans hd)
    exact hby hdeadline (hplain.requeueTime htime)
  cases h with
  | kept hclaim _ => exact .inl ⟨hclaim, rfl⟩
  | released htime hback _ => exact .inr (.inr ⟨_, htime, hended htime hback⟩)
  | claimed hasked hbefore _ =>
    rcases hbefore with hpending | hback
    · simp [hstatus] at hpending
    · have htime : c.requeueTime = some c.now := c.requeueTime_of_deadline? hasked
      exact .inr (.inr ⟨_, htime, hended htime hback⟩)
  | completed _ _ => exact .inr (.inl ⟨_, rfl, rfl⟩)

/-- A task stays in the store. -/
theorem TaskMove.exists_after (h : TaskMove K c a id (some t) after) : ∃ u, after = some u := by
  cases h <;> exact ⟨_, rfl⟩

/-- A result is either refused, because there is no task, or completes the task. -/
theorem TaskMove.of_complete {x : Binary64} (h : TaskMove K c a id before after)
    (hcommand : c.command = .complete id x) :
    (before = none ∧ a = .failed (.noTask id)) ∨
      (a = .done ∧ ∃ u, after = some u ∧ u.status = .completed) := by
  cases h with
  | kept _ hcomplete => exact .inl (hcomplete x hcommand)
  | submitted hother _ _ _ => simp [hcommand] at hother
  | released htime _ _ => simp [Call.requeueTime, hcommand] at htime
  | claimed hdeadline _ _ => simp [Call.deadline?, hcommand] at hdeadline
  | completed _ hanswer => exact .inr ⟨hanswer, _, rfl, rfl⟩

end Moves

/-! ### Runs -/

namespace KeepsTasks

variable {σ : Type} [Store σ] {K : Retention} {Sound : Int → σ → Prop} {last : Int} {s : σ}
  {id : String} {t : Task} {calls : List Call} {second : Call}

/-- A task that is completed is never handed out again, however long the run is and whatever the
clock does. -/
theorem not_handsOut_of_completed (hstore : KeepsTasks K Sound) (hsound : Sound last s)
    (htask : Store.task? id s = some t) (hdone : t.status = .completed)
    (hplain : PlainRun s (calls ++ [second])) (hfit : NumbersFit last (calls ++ [second])) :
    ¬ (second.run (runCalls s calls)).1.HandsOut id := by
  induction calls generalizing last s t with
  | nil =>
    have hmove := hstore.move id hsound hplain.1.now hfit.1
    rw [htask] at hmove
    exact (hmove.stays_completed hdone).1
  | cons c rest ih =>
    have hmove := hstore.move id hsound hplain.1.now hfit.1
    rw [htask] at hmove
    obtain ⟨-, u, hafter, hstill⟩ := hmove.stays_completed hdone
    exact ih (hstore.sound_run hsound hplain.1.now hfit.1) hafter hstill hplain.2 hfit.2

/-- A task stays in the store along a run. So a result that comes while it is there is not
refused. -/
theorem exists_task?_runCalls (hstore : KeepsTasks K Sound) (hsound : Sound last s)
    (htask : Store.task? id s = some t) (hplain : PlainRun s calls)
    (hfit : NumbersFit last calls) : ∃ u, Store.task? id (runCalls s calls) = some u := by
  induction calls generalizing last s t with
  | nil => exact ⟨t, htask⟩
  | cons c rest ih =>
    have hmove := hstore.move id hsound hplain.1.now hfit.1
    rw [htask] at hmove
    obtain ⟨u, hafter⟩ := hmove.exists_after
    exact ih (hstore.sound_run hsound hplain.1.now hfit.1) hafter hplain.2 hfit.2

/-- A task in progress is only handed out after a requeue at its deadline or later. The induction is
over the calls up to the claim, with the task as it is then: either it is still under its lease, or
the requeue has been found. -/
theorem exists_requeue_of_lease (hstore : KeepsTasks K Sound) (hsound : Sound last s)
    (htask : Store.task? id s = some t) (hstatus : t.status = .inProgress) {deadline : Instant}
    (hlease : t.leaseExpiresAt = some deadline) (hdeadline : deadline.IsPlain)
    (hplain : PlainRun s (calls ++ [second])) (hfit : NumbersFit last (calls ++ [second]))
    (hout : (second.run (runCalls s calls)).1.HandsOut id) :
    ∃ c ∈ calls ++ [second], ∃ n, c.requeueTime = some n ∧ deadline.atMost n = true := by
  induction calls generalizing last s with
  | nil =>
    have hmove := hstore.move id hsound hplain.1.now hfit.1
    rw [htask] at hmove
    rcases hmove.of_inProgress hstatus hlease hdeadline hplain.1 with
      ⟨hnot, -⟩ | ⟨u, hafter, hdone⟩ | hended
    · exact absurd hout hnot
    · obtain ⟨v, d, -, -, -, -, hclaimed⟩ := hmove.of_handsOut hout
      rw [hafter, Option.some.injEq] at hclaimed
      simp [hclaimed, MemoryStore.claimed] at hdone
    · exact ⟨second, by simp, hended⟩
  | cons c rest ih =>
    -- Either the task is still under its lease, or it is completed, or this is the requeue.
    have hmove := hstore.move id hsound hplain.1.now hfit.1
    have hnext := hstore.sound_run hsound hplain.1.now hfit.1
    rw [htask] at hmove
    rcases hmove.of_inProgress hstatus hlease hdeadline hplain.1 with
      ⟨-, hsame⟩ | ⟨u, hafter, hdone⟩ | hended
    · obtain ⟨d, hd, hrequeue⟩ := ih hnext hsame hplain.2 hfit.2 hout
      exact ⟨d, by simp [hd], hrequeue⟩
    · have hnot := hstore.not_handsOut_of_completed hnext hafter hdone hplain.2 hfit.2
      exact absurd hout hnot
    · exact ⟨c, by simp, hended⟩

/-- A result for a task that is handed out later was refused, because there was no such task
yet. -/
theorem complete_refused (hstore : KeepsTasks K Sound) (hsound : Sound last s)
    {earlier later : List Call} {c : Call} {x : Binary64}
    (hplain : PlainRun s (earlier ++ c :: (later ++ [second])))
    (hfit : NumbersFit last (earlier ++ c :: (later ++ [second])))
    (hcommand : c.command = .complete id x)
    (hout : (second.run (runCalls s (earlier ++ c :: later))).1.HandsOut id) :
    Store.task? id (runCalls s earlier) = none ∧
      (c.run (runCalls s earlier)).1 = .failed (.noTask id) := by
  rw [plainRun_append] at hplain
  rw [numbersFit_append] at hfit
  rw [runCalls_append] at hout
  have hbefore := hstore.sound_runCalls hsound (fun _ hc => hplain.1.now_of_mem hc) hfit.1
  obtain ⟨hnow, hplainLater⟩ := hplain.2
  obtain ⟨hfits, hfitLater⟩ := hfit.2
  have hmove := hstore.move id hbefore hnow.now hfits
  -- A result that was taken in would have completed the task for good.
  rcases hmove.of_complete hcommand with hrefused | ⟨-, u, hafter, hdone⟩
  · exact hrefused
  · have hnext := hstore.sound_run hbefore hnow.now hfits
    have hnot := hstore.not_handsOut_of_completed hnext hafter hdone hplainLater hfitLater
    exact absurd hout hnot

end KeepsTasks

/-! ### Exclusive claims -/

/-- What lies between two claims that hand out the same task, in a run that starts in a state:
the lease of the first claim has ended and was taken back, and no result was taken in. -/
structure TakenBackBetween {σ : Type} [Store σ] (s : σ) (before : List Call) (first : Call)
    (between : List Call) (second : Call) (id : String) : Prop where
  /-- Some call after the first claim, up to and including the second one, requeued at the
  deadline of the first claim or later. -/
  requeued : ∃ c ∈ between ++ [second], ∃ n deadline, c.requeueTime = some n ∧
    first.deadline? = some deadline ∧ deadline.atMost n = true
  /-- While the task was there, no result was sent for it. -/
  uncompleted : ∀ c ∈ between, ∀ x, c.command ≠ .complete id x
  /-- Results for the identifier from before the first claim were refused. -/
  refused : ∀ earlier c later x, before = earlier ++ c :: later → c.command = .complete id x →
    (c.run (runCalls s earlier)).1 = .failed (.noTask id)

/-- In every plain run with numbers of 19 digits, a task that is handed out twice was taken back
in between. -/
def HandsOutExclusively {σ : Type} [Store σ] (s : σ) : Prop :=
  ∀ (before between : List Call) (first second : Call) (t u : Task),
    PlainRun s (before ++ first :: (between ++ [second])) →
    NumbersFit 0 (before ++ first :: (between ++ [second])) →
    (first.run (runCalls s before)).1 = .claimed (some t) →
    (second.run (runCalls s (before ++ first :: between))).1 = .claimed (some u) →
    u.id = t.id → TakenBackBetween s before first between second t.id

/-- **A store that keeps tasks hands them out exclusively.** What lies between two claims is put
together from what one call can do. -/
theorem KeepsTasks.handsOutExclusively {σ : Type} [Store σ] {K : Retention}
    {Sound : Int → σ → Prop} {s : σ} (hstore : KeepsTasks K Sound) (hsound : Sound 0 s) :
    HandsOutExclusively s := by
  intro before between first second t u hplain hfit hfirst hsecond hid
  rw [plainRun_append] at hplain
  rw [numbersFit_append] at hfit
  obtain ⟨hplainBefore, hplainFirst, hplainAfter⟩ := hplain
  obtain ⟨hfitBefore, hfitFirst, hfitAfter⟩ := hfit
  have hbefore := hstore.sound_runCalls hsound (fun _ hc => hplainBefore.now_of_mem hc) hfitBefore
  have hafter := hstore.sound_run hbefore hplainFirst.now hfitFirst
  have hmove := hstore.move t.id hbefore hplainFirst.now hfitFirst
  obtain ⟨v, deadline, -, hdeadline, -, hanswer, hclaimed⟩ := hmove.of_handsOut ⟨t, hfirst, rfl⟩
  have hplainDeadline : deadline.IsPlain := hplainFirst.isPlain_deadline hanswer hdeadline
  rw [runCalls_append] at hsecond
  have hout : (second.run (runCalls (first.run (runCalls s before)).2 between)).1.HandsOut t.id :=
    ⟨u, hsecond, hid⟩
  refine ⟨?_, ?_, ?_⟩
  · obtain ⟨c, hc, n, htime, hended⟩ := hstore.exists_requeue_of_lease hafter hclaimed rfl
      (congrArg some (hstore.faithful.instant hplainDeadline)) hplainDeadline hplainAfter
      hfitAfter hout
    exact ⟨c, hc, n, deadline, htime, hdeadline, hended⟩
  · -- The task is there from the first claim on, so nothing is refused.
    intro c hc x hcommand
    obtain ⟨earlier, later, rfl⟩ := List.append_of_mem hc
    rw [List.append_assoc, List.cons_append] at hplainAfter hfitAfter
    obtain ⟨hmissing, -⟩ :=
      hstore.complete_refused hafter hplainAfter hfitAfter hcommand hout
    obtain ⟨w, hthere⟩ := hstore.exists_task?_runCalls hafter hclaimed
      (plainRun_append.1 hplainAfter).1 (numbersFit_append.1 hfitAfter).1
    simp [hmissing] at hthere
  · -- The first claim is itself a later claim of the task, seen from before it.
    rintro earlier c later x rfl hcommand
    have hsplit : earlier ++ c :: (later ++ [first]) = (earlier ++ c :: later) ++ [first] := by
      simp
    have hplainSplit : PlainRun s (earlier ++ c :: (later ++ [first])) := by
      rw [hsplit, plainRun_append]
      exact ⟨hplainBefore, hplainFirst, trivial⟩
    have hfitSplit : NumbersFit 0 (earlier ++ c :: (later ++ [first])) := by
      rw [hsplit, numbersFit_append]
      exact ⟨hfitBefore, hfitFirst, trivial⟩
    exact (hstore.complete_refused hsound hplainSplit hfitSplit hcommand ⟨t, hfirst, rfl⟩).2

/-- **Claims are exclusive**, in memory and on a database: between two claims of one task its lease
has ended and was taken back, and it was not completed. -/
theorem claims_are_exclusive :
    HandsOutExclusively MemoryStore.empty ∧ HandsOutExclusively DatabaseStore.empty :=
  ⟨MemoryStore.keepsTasks.handsOutExclusively MemoryStore.sound_empty,
    DatabaseStore.keepsTasks.handsOutExclusively DatabaseStore.sound_empty⟩

/-! ### A task that is claimed twice -/

/-- A user and one task of the user. -/
def oneTask : List Call :=
  [⟨⟨1700000000, 0⟩, .createUser "ada" "hash"⟩,
    ⟨⟨1700000001, 0⟩, .enqueue 1 "2+2" (.binary "2" .add "2")⟩]

/-- A claim for a minute at a second. -/
def claimAt (second : Int) : Call := ⟨⟨second, 0⟩, .claim (.ofSeconds 60)⟩

/-- The task as a claim hands it out. -/
def claimedTask (second : Int) : Task :=
  MemoryStore.claimed ⟨second, 0⟩ ⟨second + 60, 0⟩
    (.fresh (taskId 1700000001000000000) 1 "2+2" (.binary "2" .add "2") ⟨1700000001, 0⟩)

theorem isPlain_of_seconds {second : Int} (hlow : 0 ≤ second) (hhigh : second ≤ 253402300799) :
    (⟨second, 0⟩ : Instant).IsPlain :=
  Instant.IsProper.isPlain (.inl (by simp)) (Instant.hasPlainYear_of_seconds (by simp; omega) hhigh)

theorem isPlain_claimAt {a : StoreAnswer} {second : Int} (hlow : 0 ≤ second)
    (hhigh : second ≤ 1800000000)
    (hasked : (claimAt second).deadline? = some ⟨second + 60, 0⟩) : (claimAt second).IsPlain a where
  now := isPlain_of_seconds hlow (by omega)
  requeue := by simp [claimAt]
  deadline _ deadline _ hdeadline := by
    rw [hasked] at hdeadline
    obtain rfl := Option.some.inj hdeadline
    exact (isPlain_of_seconds (by omega) (by omega)).hasPlainYear

theorem plainRun_oneTask {σ : Type} [Store σ] (s : σ) : PlainRun s oneTask := by
  refine ⟨⟨?_, by simp, by simp [Call.deadline?]⟩, ⟨?_, by simp, by simp [Call.deadline?]⟩, trivial⟩
  · exact isPlain_of_seconds (by decide) (by decide)
  · exact isPlain_of_seconds (by decide) (by decide)

/-- A task that is claimed for a minute and claimed again when the minute is over. -/
theorem claims_are_exclusive_minute :
    TakenBackBetween MemoryStore.empty oneTask (claimAt 1700000002) [] (claimAt 1700000062)
        (taskId 1700000001000000000) ∧
      TakenBackBetween DatabaseStore.empty oneTask (claimAt 1700000002) [] (claimAt 1700000062)
        (taskId 1700000001000000000) := by
  have hfirst : ∀ a, (claimAt 1700000002).IsPlain a := fun _ =>
    isPlain_claimAt (by decide) (by decide) (by decide)
  have hsecond : ∀ a, (claimAt 1700000062).IsPlain a := fun _ =>
    isPlain_claimAt (by decide) (by decide) (by decide)
  have hfit : NumbersFit 0 (oneTask ++ [claimAt 1700000002, claimAt 1700000062]) := by
    decide
  constructor
  · exact claims_are_exclusive.1 oneTask [] (claimAt 1700000002) (claimAt 1700000062)
      (claimedTask 1700000002) (claimedTask 1700000062)
      (plainRun_append.2 ⟨plainRun_oneTask _, hfirst _, hsecond _, trivial⟩) hfit
      (by decide +kernel) (by decide +kernel) rfl
  · exact claims_are_exclusive.2 oneTask [] (claimAt 1700000002) (claimAt 1700000062)
      (claimedTask 1700000002) (claimedTask 1700000062)
      (plainRun_append.2 ⟨plainRun_oneTask _, hfirst _, hsecond _, trivial⟩) hfit
      (by decide +kernel) (by decide +kernel) rfl

end ArithService
