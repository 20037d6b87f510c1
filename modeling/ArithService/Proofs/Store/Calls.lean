import Mathlib
import ArithService.Proofs.Task.Identifier
import ArithService.Proofs.Time.Clock
import ArithService.Store.Store

/-!
# Runs of a store

A run is a list of calls, each with its own reading of the clock.

## Main Definitions

* `Call`, `Call.run` — one operation at a reading of the clock
* `runCalls`, `answers` — the state after a run, and what it answered
* `Store.task?` — the task that a store has under an identifier
* `NumbersFit` — every number that is due in a run is a task number
* `HasRoom` — the latest number leaves room for more tasks
* `Call.requeueTime` — the instant that decides which leases a call takes back
* `PlainRun` — a run within the years 0 to 9999

## Design Notes

The number of the latest task is a function of the calls alone: it is used up even where the
task cannot be stored. So the condition on numbers does not look at the store.
-/

namespace ArithService

/-- A call of a store operation at a reading of the clock. -/
structure Call where
  now : Instant
  command : StoreCommand
deriving DecidableEq, Repr

/-- Whether an answer hands out the task with an identifier. -/
def StoreAnswer.HandsOut (a : StoreAnswer) (id : String) : Prop :=
  ∃ t, a = .claimed (some t) ∧ t.id = id

/-! ### Runs -/

section Runs

variable {σ : Type} [Store σ]

/-- The task that a store has under an identifier. -/
def Store.task? (id : String) (s : σ) : Option Task := (Store.get id s).toOption

theorem Store.task?_eq_some_iff {id : String} {s : σ} {t : Task} :
    Store.task? id s = some t ↔ Store.get id s = .ok t := by
  unfold Store.task?
  cases Store.get id s <;> simp [Except.toOption]

/-- Carry out a call. -/
def Call.run (c : Call) (s : σ) : StoreAnswer × σ := c.command.run c.now s

/-- The state after a run. -/
def runCalls (s : σ) : List Call → σ
  | [] => s
  | c :: rest => runCalls (c.run s).2 rest

/-- The answers of a run. -/
def answers (s : σ) : List Call → List StoreAnswer
  | [] => []
  | c :: rest => (c.run s).1 :: answers (c.run s).2 rest

theorem runCalls_append (s : σ) (calls more : List Call) :
    runCalls s (calls ++ more) = runCalls (runCalls s calls) more := by
  induction calls generalizing s with
  | nil => rfl
  | cons c rest ih => exact ih _

theorem StoreAnswer.ofResult_ne_claimed {α : Type} {succeeded : α → StoreAnswer} {t : Option Task}
    (h : ∀ x, succeeded x ≠ .claimed t) (result : Except StoreError α) :
    ofResult succeeded result ≠ .claimed t := by
  cases result with
  | ok x => exact h x
  | error e => simp [ofResult]

/-- Only claims hand out tasks. -/
theorem Call.run_ne_claimed {c : Call} (hcommand : ∀ lease, c.command ≠ .claim lease) (s : σ)
    (t : Option Task) : (c.run s).1 ≠ .claimed t := by
  obtain ⟨now, command⟩ := c
  cases command with
  | claim lease => exact absurd rfl (hcommand lease)
  | enqueue _ _ _ => exact StoreAnswer.ofResult_ne_claimed (by simp) _
  | complete _ _ => exact StoreAnswer.ofResult_ne_claimed (by simp) _
  | get _ => exact StoreAnswer.ofResult_ne_claimed (by simp) _
  | list _ => exact StoreAnswer.ofResult_ne_claimed (by simp) _
  | requeue _ => exact StoreAnswer.ofResult_ne_claimed (by simp) _
  | createUser _ _ => exact StoreAnswer.ofResult_ne_claimed (by simp) _
  | findUser _ => exact StoreAnswer.ofResult_ne_claimed (by simp) _

end Runs

/-! ### Numbers -/

/-- Whether a call records a task. -/
def Call.isEnqueue (c : Call) : Bool :=
  match c.command with
  | .enqueue _ _ _ => true
  | _ => false

/-- The number of the latest task after a call. -/
def Call.numberAfter (c : Call) (last : Int) : Int :=
  if c.isEnqueue then (nextNumber last c.now).getD last else last

/-- The number that is due in a call, if one is, is a task number. -/
def Call.NumberFits (c : Call) (last : Int) : Prop :=
  c.isEnqueue = true → IsTaskNumber (numberDue last c.now)

/-- The number of the latest task after a run. -/
def numberAfter (last : Int) : List Call → Int
  | [] => last
  | c :: rest => numberAfter (c.numberAfter last) rest

/-- Every number that is due in a run is a task number. -/
def NumbersFit (last : Int) : List Call → Prop
  | [] => True
  | c :: rest => c.NumberFits last ∧ NumbersFit (c.numberAfter last) rest

instance (c : Call) (last : Int) : Decidable (c.NumberFits last) :=
  inferInstanceAs (Decidable (_ → _))

instance decidableNumbersFit (last : Int) : (calls : List Call) → Decidable (NumbersFit last calls)
  | [] => inferInstanceAs (Decidable True)
  | c :: rest =>
    have := decidableNumbersFit (c.numberAfter last) rest
    inferInstanceAs (Decidable (_ ∧ _))

/-- Numbers fit in a run if they do in both of its parts, the second one from where the first one
ends. -/
theorem numbersFit_append {last : Int} {calls more : List Call} :
    NumbersFit last (calls ++ more) ↔
      NumbersFit last calls ∧ NumbersFit (numberAfter last calls) more := by
  induction calls generalizing last with
  | nil => simp [NumbersFit, numberAfter]
  | cons c rest ih => simp [NumbersFit, numberAfter, ih, and_assoc]

theorem Call.numberAfter_of_enqueue {c : Call} {last : Int} (henqueue : c.isEnqueue = true)
    (hfits : c.NumberFits last) : c.numberAfter last = numberDue last c.now := by
  rw [Call.numberAfter, if_pos henqueue, nextNumber_eq (hfits henqueue), Option.getD_some]

theorem Call.le_numberAfter {c : Call} {last : Int} (hfits : c.NumberFits last) :
    last ≤ c.numberAfter last := by
  by_cases henqueue : c.isEnqueue = true
  · rw [c.numberAfter_of_enqueue henqueue hfits]
    exact (lt_numberDue last c.now).le
  · rw [Call.numberAfter, if_neg henqueue]

/-- The clock as a number is the reading itself while it fits 64 bits. -/
theorem clockNumber_eq {now : Instant} (h : now.IsClockReading) :
    clockNumber now = now.nanoseconds := by
  have hlow := h.low
  have hhigh := h.high
  rw [clockNumber, if_pos]
  omega

/-- The latest number after some tasks were recorded within the bounds of the clock. -/
structure HasRoom (last : Int) (used : Nat) : Prop where
  nonneg : 0 ≤ last
  bound : last ≤ 92 * 10 ^ 17 + used

theorem hasRoom_zero : HasRoom 0 0 where
  nonneg := le_rfl
  bound := by norm_num

namespace HasRoom

variable {last : Int} {used : Nat} {c : Call}

theorem mono (h : HasRoom last used) {more : Nat} (hle : used ≤ more) : HasRoom last more where
  nonneg := h.nonneg
  bound := h.bound.trans (by gcongr)

/-- After fewer than 10^16 tasks the counter is not at its end. -/
theorem add_one_lt (h : HasRoom last used) (hused : used < 10 ^ 16) : last + 1 < 2 ^ 63 := by
  have hbound := h.bound
  omega

/-- After fewer than 10^16 tasks the number that is due is a task number. -/
theorem numberFits (h : HasRoom last used) (hused : c.isEnqueue = true → used < 10 ^ 16)
    (hnow : c.now.IsClockReading) : c.NumberFits last := by
  intro henqueue
  have hlow := hnow.low
  have hhigh := hnow.high
  have hbound := h.bound
  have hlt := hused henqueue
  unfold IsTaskNumber numberDue
  rw [clockNumber_eq hnow]
  omega

/-- One more task takes up one more number. The clock moves the last number no further than its own
bound. -/
theorem call (h : HasRoom last used) (hnow : c.now.IsClockReading) (hfits : c.NumberFits last) :
    HasRoom (c.numberAfter last) (if c.isEnqueue then used + 1 else used) := by
  refine ⟨h.nonneg.trans (c.le_numberAfter hfits), ?_⟩
  by_cases henqueue : c.isEnqueue = true
  · have hhigh := hnow.high
    have hbound := h.bound
    rw [c.numberAfter_of_enqueue henqueue hfits, numberDue, clockNumber_eq hnow,
      if_pos henqueue]
    push_cast
    omega
  · rw [Call.numberAfter, if_neg henqueue, if_neg henqueue]
    exact h.bound

/-- Clock readings within bounds leave room for 10^16 tasks: every number that is due in a run is a
task number, and there is room after it. -/
theorem run {calls : List Call} {last : Int} {used : Nat} (h : HasRoom last used)
    (hcount : used + calls.countP Call.isEnqueue < 10 ^ 16)
    (hclock : ∀ c ∈ calls, c.now.IsClockReading) :
    NumbersFit last calls ∧
      HasRoom (ArithService.numberAfter last calls) (used + calls.countP Call.isEnqueue) := by
  -- The bound on the latest number is what carries the induction.
  induction calls generalizing last used with
  | nil => exact ⟨trivial, h⟩
  | cons c rest ih =>
    rw [List.countP_cons] at hcount ⊢
    have hnow := hclock c (by simp)
    have hused : c.isEnqueue = true → used < 10 ^ 16 := by
      intro henqueue
      rw [if_pos henqueue] at hcount
      omega
    have hfits : c.NumberFits last := h.numberFits hused hnow
    have htotal : (if c.isEnqueue then used + 1 else used) + rest.countP Call.isEnqueue =
        used + (rest.countP Call.isEnqueue + if c.isEnqueue = true then 1 else 0) := by
      split_ifs <;> omega
    obtain ⟨hrest, hroom⟩ := ih (h.call hnow hfits) (by rwa [htotal])
      fun d hd => hclock d (by simp [hd])
    exact ⟨⟨hfits, hrest⟩, by rwa [htotal] at hroom⟩

end HasRoom

/-- A run from the first number on, within bounds of the clock and with fewer than 10^16 tasks, only
gives out task numbers. So bounds that say nothing about numbers suffice. -/
theorem numbersFit_zero {calls : List Call} (hcount : calls.countP Call.isEnqueue < 10 ^ 16)
    (hclock : ∀ c ∈ calls, c.now.IsClockReading) : NumbersFit 0 calls :=
  (hasRoom_zero.run (by rwa [Nat.zero_add]) hclock).1

/-! ### Requeues -/

/-- The instant by which leases have to have ended for a call to take them back. A claim takes
back leases at its own reading of the clock, unless it is refused. -/
def Call.requeueTime (c : Call) : Option Instant :=
  match c.command with
  | .requeue at_ => some at_
  | .claim lease => (c.now.add? lease).map fun _ => c.now
  | _ => none

/-- The deadline of the lease that a call asks for. -/
def Call.deadline? (c : Call) : Option Instant :=
  match c.command with
  | .claim lease => c.now.add? lease
  | _ => none

/-- Only claims ask for a lease. -/
theorem Call.exists_lease {c : Call} {deadline : Instant} (h : c.deadline? = some deadline) :
    ∃ lease, c.command = .claim lease ∧ c.now.add? lease = some deadline := by
  unfold Call.deadline? at h
  split at h
  · next lease hcommand => exact ⟨lease, hcommand, h⟩
  · simp at h

/-- A claim that may hand out a task takes back leases first. -/
theorem Call.requeueTime_of_deadline? {c : Call} {deadline : Instant}
    (h : c.deadline? = some deadline) : c.requeueTime = some c.now := by
  obtain ⟨lease, hcommand, hdeadline⟩ := c.exists_lease h
  simp [Call.requeueTime, hcommand, hdeadline]

/-! ### Plain runs -/

/-- A call with a given answer stays within the years 0 to 9999: with its reading of the clock,
with the instant of a requeue, and with the deadline of a task that it hands out. -/
structure Call.IsPlain (c : Call) (a : StoreAnswer) : Prop where
  now : c.now.IsPlain
  requeue : ∀ at_, c.command = .requeue at_ → at_.IsPlain
  deadline : ∀ t deadline, a = .claimed (some t) → c.deadline? = some deadline →
    deadline.HasPlainYear

/-- Every call of a run stays within the years 0 to 9999. -/
def PlainRun {σ : Type} [Store σ] (s : σ) : List Call → Prop
  | [] => True
  | c :: rest => c.IsPlain (c.run s).1 ∧ PlainRun (c.run s).2 rest

theorem plainRun_append {σ : Type} [Store σ] {s : σ} {calls more : List Call} :
    PlainRun s (calls ++ more) ↔ PlainRun s calls ∧ PlainRun (runCalls s calls) more := by
  induction calls generalizing s with
  | nil => simp [PlainRun, runCalls]
  | cons c rest ih => simp [PlainRun, runCalls, ih, and_assoc]

/-- Every reading of the clock in a plain run is plain. -/
theorem PlainRun.now_of_mem {σ : Type} [Store σ] {s : σ} {calls : List Call} (h : PlainRun s calls)
    {c : Call} (hc : c ∈ calls) : c.now.IsPlain := by
  induction calls generalizing s with
  | nil => simp at hc
  | cons d rest ih =>
    rcases List.mem_cons.1 hc with rfl | hc
    · exact h.1.now
    · exact ih h.2 hc

/-- The instant of a requeue in a plain call is plain. -/
theorem Call.IsPlain.requeueTime {c : Call} {a : StoreAnswer} (h : c.IsPlain a) {at_ : Instant}
    (htime : c.requeueTime = some at_) : at_.IsPlain := by
  unfold Call.requeueTime at htime
  split at htime
  · next requested hcommand =>
    obtain rfl := Option.some.inj htime
    exact h.requeue _ hcommand
  · obtain ⟨deadline, -, rfl⟩ := Option.map_eq_some_iff.1 htime
    exact h.now
  · simp at htime

/-- The deadline of a task that a plain call hands out is plain. -/
theorem Call.IsPlain.isPlain_deadline {c : Call} {a : StoreAnswer} (h : c.IsPlain a) {t : Task}
    {deadline : Instant} (hanswer : a = .claimed (some t))
    (hdeadline : c.deadline? = some deadline) : deadline.IsPlain := by
  refine Instant.IsProper.isPlain ?_ (h.deadline t deadline hanswer hdeadline)
  obtain ⟨lease, -, hadd⟩ := c.exists_lease hdeadline
  exact h.now.proper.of_add? hadd

end ArithService
