import Mathlib
import ArithService.Proofs.Expression.Work
import ArithService.Proofs.Number.Binary64
import ArithService.Proofs.Store.Calls
import ArithService.Store.Memory

/-!
# What a call does to a task

Every store does the same to a task, up to what it gives back of the values it keeps. This
module says what that is, task by task, without a word about how a store is organised.

## Main Definitions

* `Retention` — what a store gives back of the values it is given
* `TaskMove` — what one call does to the task under one identifier
* `KeepsTasks` — a store whose calls do just that

## Design Notes

`TaskMove` has one case for each way in which a task can be touched. It speaks about the task
before and after, so that whatever is preserved by all its cases holds along every run of every
store. Deadlines outside the years 0 to 9999 are not given back by a table, and whether they
have passed is decided by the order of texts; the cases say nothing about them.
-/

namespace ArithService

/-! ### Retention -/

/-- What a store gives back of the values it is given. -/
structure Retention where
  text : String → String
  number : Binary64 → Option Binary64
  instant : Instant → Instant

namespace Retention

/-- A store that gives back everything. -/
def exact : Retention := ⟨id, some, id⟩

/-- Nothing is lost but NaN, the sign of zero, zero characters and years of other than four
digits. -/
structure IsFaithful (K : Retention) : Prop where
  text {s : String} : IsZeroFree s → K.text s = s
  number {x : Binary64} : x ≠ .nan → ∃ y, K.number x = some y ∧ y.sameNumber x = true
  instant {t : Instant} : t.IsPlain → K.instant t = t

/-- A task as it is given back after it was recorded. -/
def submitted (K : Retention) (t : Task) : Task :=
  { t with expression := K.text t.expression, arg1 := K.text t.arg1, arg2 := K.text t.arg2,
           operation := K.text t.operation }

/-- A task for an expression that has a value is given back as it was recorded: such an expression
has no zero characters, and so have its operands. -/
theorem IsFaithful.submitted_fresh {K : Retention} (hfaithful : K.IsFaithful) {text : String}
    {work : Work} (hwork : Work.ofText text = .ok work) (id : String) (owner : Int)
    (createdAt : Instant) :
    K.submitted (.fresh id owner text work createdAt) = .fresh id owner text work createdAt := by
  obtain ⟨x, -, -, htext, hyields⟩ := Work.yields_of_ofText hwork
  cases hyields with
  | @binary left right o hleft hright _ =>
    simp only [submitted, Task.fresh, Work.columns, hfaithful.text htext, hfaithful.text hleft,
      hfaithful.text hright, hfaithful.text o.isZeroFree_text]
  | expression _ =>
    have hempty : K.text "" = "" := hfaithful.text (by simp [IsZeroFree])
    simp only [submitted, Task.fresh, Work.columns, hfaithful.text htext, hempty]

end Retention

theorem Retention.isFaithful_exact : Retention.exact.IsFaithful where
  text _ := rfl
  number h := ⟨_, rfl, Binary64.sameNumber_self h⟩
  instant _ := rfl

/-! ### Moves -/

/-- A task whose lease may be taken back at an instant: as far as plain instants can tell, the
lease has ended. -/
def Task.MayBeTakenBack (t : Task) (at_ : Instant) : Prop :=
  t.status = .inProgress ∧ ∃ deadline, t.leaseExpiresAt = some deadline ∧
    (deadline.IsPlain → at_.IsPlain → deadline.atMost at_ = true)

/-- What a call with a given answer does to the task under an identifier. -/
inductive TaskMove (K : Retention) (c : Call) (a : StoreAnswer) (id : String) :
    Option Task → Option Task → Prop where
  /-- The task, or its absence, is not touched. -/
  | kept {t : Option Task} (hclaim : ¬ a.HandsOut id)
      (hcomplete : ∀ x, c.command = .complete id x → t = none ∧ a = .failed (.noTask id)) :
      TaskMove K c a id t t
  /-- The task is recorded. -/
  | submitted {owner : Int} {expression : String} {work : Work} {number : Int}
      (hcommand : c.command = .enqueue owner expression work) (hanswer : a = .taskId id)
      (hnumber : IsTaskNumber number) (hid : id = taskId number) :
      TaskMove K c a id none
        (some (K.submitted (.fresh id owner expression work (.ofNanoseconds number))))
  /-- The lease of the task is taken back. -/
  | released {t : Task} {at_ : Instant} (htime : c.requeueTime = some at_)
      (hlease : t.MayBeTakenBack at_) (hclaim : ¬ a.HandsOut id) :
      TaskMove K c a id (some t) (some (MemoryStore.released t))
  /-- The task is handed out, possibly after its lease was taken back. -/
  | claimed {t : Task} {deadline : Instant} (hdeadline : c.deadline? = some deadline)
      (hstatus : t.status = .pending ∨ t.MayBeTakenBack c.now)
      (hanswer : a = .claimed (some (MemoryStore.claimed c.now (K.instant deadline) t))) :
      TaskMove K c a id (some t) (some (MemoryStore.claimed c.now (K.instant deadline) t))
  /-- The task gets its result. -/
  | completed {t : Task} {x : Binary64} (hcommand : c.command = .complete id x)
      (hanswer : a = .done) :
      TaskMove K c a id (some t)
        (some { MemoryStore.completed c.now x t with result := K.number x })

/-- A store, in the states that satisfy an invariant, keeps tasks: the invariant is preserved,
every identifier either has a task that can be read or has none, the schema is up to date, and
every call does to every task what a call may do. The invariant knows the number of the latest
task. -/
structure KeepsTasks {σ : Type} [Store σ] (K : Retention) (Sound : Int → σ → Prop) : Prop where
  faithful : K.IsFaithful
  sound_run {last : Int} {s : σ} {c : Call} : Sound last s → c.now.IsPlain →
    c.NumberFits last → Sound (c.numberAfter last) (c.run s).2
  get {last : Int} {s : σ} (id : String) : Sound last s →
    (∃ t, Store.get id s = .ok t ∧ t.id = id) ∨ Store.get id s = .error (.noTask id)
  prepare {last : Int} {s : σ} : Sound last s → Store.prepare s = (.ok (), s)
  move {last : Int} {s : σ} {c : Call} (id : String) : Sound last s → c.now.IsPlain →
    c.NumberFits last →
    TaskMove K c (c.run s).1 id (Store.task? id s) (Store.task? id (c.run s).2)

/-! ### Tasks in lists -/

section Lists

variable {K : Retention} {c : Call} {a : StoreAnswer}

/-- One task after another: where each task of a list moves by itself, every identifier does. What
is found under an identifier before and after are partners in the lists, as moving keeps
identifiers. -/
theorem TaskMove.find? {before after : List Task}
    (hmoves : List.Forall₂
      (fun t u => u.id = t.id ∧ TaskMove K c a t.id (some t) (some u)) before after)
    (id : String) (hnone : (∀ t ∈ before, t.id ≠ id) → TaskMove K c a id none none) :
    TaskMove K c a id (before.find? (·.id = id)) (after.find? (·.id = id)) := by
  induction hmoves with
  | nil => exact hnone (by simp)
  | @cons t u before after hmove _ ih =>
    by_cases hid : t.id = id
    · have hfirst : (t :: before).find? (·.id = id) = some t := by simp [hid]
      have hafter : (u :: after).find? (·.id = id) = some u := by simp [hmove.1, hid]
      rw [hfirst, hafter, ← hid]
      exact hmove.2
    · have hfirst : (t :: before).find? (·.id = id) = before.find? (·.id = id) := by simp [hid]
      have hafter : (u :: after).find? (·.id = id) = after.find? (·.id = id) := by
        simp [hmove.1, hid]
      rw [hfirst, hafter]
      refine ih fun hothers => hnone fun v hv => ?_
      rcases List.mem_cons.1 hv with rfl | hv
      · exact hid
      · exact hothers v hv

/-- A call that neither hands out nor completes may leave any task as it is. -/
theorem TaskMove.untouched (hclaim : ∀ t, a ≠ .claimed (some t))
    (hcomplete : ∀ id x, c.command ≠ .complete id x) (id : String) (t : Option Task) :
    TaskMove K c a id t t :=
  .kept (fun ⟨u, h, _⟩ => hclaim u h) fun x h => absurd h (hcomplete id x)

/-- Recording a task under a new identifier moves that identifier and no other. -/
theorem TaskMove.record {ts : List Task} {owner number : Int} {expression : String} {work : Work}
    (hcommand : c.command = .enqueue owner expression work)
    (hanswer : a = .taskId (taskId number)) (hnumber : IsTaskNumber number)
    (hnew : ∀ t ∈ ts, t.id ≠ taskId number) (id : String) :
    TaskMove K c a id (ts.find? (·.id = id))
      ((ts ++ [K.submitted (.fresh (taskId number) owner expression work
        (.ofNanoseconds number))]).find? (·.id = id)) := by
  rw [List.find?_append]
  -- The new task is found under its identifier because no older task has it.
  by_cases hid : id = taskId number
  · have hnone : ts.find? (·.id = id) = none := by simpa [hid] using hnew
    rw [hnone, Option.none_or]
    subst hid
    simp only [List.find?_cons, Retention.submitted, Task.fresh, decide_true]
    exact .submitted hcommand hanswer hnumber rfl
  · have hother : [K.submitted (.fresh (taskId number) owner expression work
        (.ofNanoseconds number))].find? (·.id = id) = none := by
      simpa [Retention.submitted, Task.fresh] using fun heq => hid heq.symm
    rw [hother, Option.or_none]
    exact .untouched (by simp [hanswer]) (by simp [hcommand]) id _

/-- Among tasks with identifiers of their own, every task is found by its identifier. -/
theorem find?_eq_some_iff_mem {ts : List Task} (hdistinct : (ts.map (·.id)).Nodup) {t : Task} :
    ts.find? (·.id = t.id) = some t ↔ t ∈ ts := by
  refine ⟨List.mem_of_find?_eq_some, fun ht => ?_⟩
  cases hfind : ts.find? (·.id = t.id) with
  | none => simpa using List.find?_eq_none.1 hfind t ht
  | some u =>
    have hid : u.id = t.id := by simpa using List.find?_some hfind
    rw [List.inj_on_of_nodup_map hdistinct (List.mem_of_find?_eq_some hfind) ht hid]

theorem exists_of_mem_right {α β : Type} {R : α → β → Prop} {xs : List α} {ys : List β}
    (h : List.Forall₂ R xs ys) {y : β} (hy : y ∈ ys) : ∃ x ∈ xs, R x y := by
  induction h with
  | nil => simp at hy
  | cons hfirst _ ih =>
    rcases List.mem_cons.1 hy with rfl | hy
    · exact ⟨_, by simp, hfirst⟩
    · obtain ⟨x, hx, hrelated⟩ := ih hy
      exact ⟨x, by simp [hx], hrelated⟩

/-- A task as it is after a requeue at an instant: the same, or without its lease. -/
def Task.RequeuedAs (at_ : Instant) (t u : Task) : Prop :=
  u = t ∨ (t.MayBeTakenBack at_ ∧ u = MemoryStore.released t)

theorem Task.RequeuedAs.id_eq {at_ : Instant} {t u : Task} (h : t.RequeuedAs at_ u) :
    u.id = t.id := by
  rcases h with rfl | ⟨-, rfl⟩ <;> rfl

/-- Taking back leases moves every task as it may. -/
theorem TaskMove.requeue {at_ : Instant} {before after : List Task}
    (htime : c.requeueTime = some at_) (hclaim : ∀ t, a ≠ .claimed (some t))
    (hcomplete : ∀ id x, c.command ≠ .complete id x)
    (hrequeued : List.Forall₂ (Task.RequeuedAs at_) before after) (id : String) :
    TaskMove K c a id (before.find? (·.id = id)) (after.find? (·.id = id)) := by
  refine TaskMove.find? (hrequeued.imp fun t u h => ⟨h.id_eq, ?_⟩) id
    fun _ => .untouched hclaim hcomplete id none
  rcases h with rfl | ⟨hlease, rfl⟩
  · exact .untouched hclaim hcomplete _ _
  · exact .released htime hlease fun ⟨v, hv, _⟩ => hclaim v hv

/-- Handing out a pending task, after leases were taken back, moves every task as it may. The two
steps are one call, so the task that is handed out may be one whose lease was just taken back. -/
theorem TaskMove.handOut {deadline : Instant} {oldest : Task} {before after : List Task}
    (hdeadline : c.deadline? = some deadline) (htime : c.requeueTime = some c.now)
    (hcomplete : ∀ id x, c.command ≠ .complete id x)
    (hrequeued : List.Forall₂ (Task.RequeuedAs c.now) before after)
    (hsorted : after.Pairwise (·.id < ·.id)) (holdest : oldest ∈ after)
    (hpending : oldest.status = .pending)
    (hanswer : a = .claimed (some (MemoryStore.claimed c.now (K.instant deadline) oldest)))
    (id : String) :
    TaskMove K c a id (before.find? (·.id = id))
      ((MemoryStore.updateTask oldest.id
        (MemoryStore.claimed c.now (K.instant deadline)) after).find? (·.id = id)) := by
  have hother : ∀ id, id ≠ oldest.id → ¬ a.HandsOut id := by
    rintro id hne ⟨u, hu, rfl⟩
    rw [hanswer, StoreAnswer.claimed.injEq, Option.some.injEq] at hu
    exact hne (by rw [← hu]; rfl)
  -- The change goes by the identifier, and only the task that is handed out has it.
  have hunique : ∀ u ∈ after, u.id = oldest.id → u = oldest := by
    have hnodup : (after.map (·.id)).Nodup :=
      List.pairwise_map.2 (hsorted.imp fun hlt => ne_of_lt hlt)
    exact fun u hu hid => List.inj_on_of_nodup_map hnodup hu holdest hid
  have hpairs : List.Forall₂
      (fun t u => (u.id = oldest.id → u = oldest) ∧ t.RequeuedAs c.now u) before after :=
    ((List.forall₂_and_left _ _).2 ⟨hunique, hrequeued.flip⟩).flip
  refine TaskMove.find? ?_ id fun hnone => ?_
  · rw [MemoryStore.updateTask, List.forall₂_map_right_iff]
    refine hpairs.imp fun t u hpair => ?_
    obtain ⟨honly, hmove⟩ := hpair
    have hid : u.id = t.id := hmove.id_eq
    by_cases hnext : u.id = oldest.id
    · rw [if_pos hnext]
      refine ⟨hid, ?_⟩
      obtain rfl := honly hnext
      rcases hmove with rfl | ⟨hlease, rfl⟩
      · exact .claimed hdeadline (.inl hpending) hanswer
      · exact .claimed hdeadline (.inr hlease) hanswer
    · rw [if_neg hnext]
      refine ⟨hid, ?_⟩
      have hclaim : ¬ a.HandsOut t.id := hother _ (hid ▸ hnext)
      rcases hmove with rfl | ⟨hlease, rfl⟩
      · exact .kept hclaim fun x hx => absurd hx (hcomplete _ x)
      · exact .released htime hlease hclaim
  · refine .kept (hother id fun heq => ?_) fun x hx => absurd hx (hcomplete id x)
    obtain ⟨t, ht, hmove⟩ := exists_of_mem_right hrequeued holdest
    exact hnone t ht (hmove.id_eq.symm.trans heq.symm)

/-- Recording the result of a task moves the task and no other. -/
theorem TaskMove.complete {ts : List Task} {id : String} {x : Binary64}
    (hcommand : c.command = .complete id x) (hanswer : a = .done) (hfound : ∃ t ∈ ts, t.id = id)
    (other : String) :
    TaskMove K c a other (ts.find? (·.id = other))
      ((MemoryStore.updateTask id
        (fun t => { MemoryStore.completed c.now x t with result := K.number x }) ts).find?
          (·.id = other)) := by
  have hclaim : ¬ a.HandsOut other := by simp [hanswer, StoreAnswer.HandsOut]
  refine TaskMove.find? ?_ other fun hnone => .kept hclaim fun y hy => ?_
  · rw [MemoryStore.updateTask, List.forall₂_map_right_iff, List.forall₂_same]
    intro t _
    split_ifs with hid
    · exact ⟨rfl, hid ▸ .completed hcommand hanswer⟩
    · refine ⟨rfl, .kept (by simp [hanswer, StoreAnswer.HandsOut]) fun y hy => ?_⟩
      rw [hcommand, StoreCommand.complete.injEq] at hy
      exact absurd hy.1.symm hid
  · rw [hcommand, StoreCommand.complete.injEq] at hy
    obtain ⟨t, ht, hid⟩ := hfound
    exact absurd (hid.trans hy.1) (hnone t ht)

/-- Recording the result of a missing task moves nothing. -/
theorem TaskMove.complete_missing {ts : List Task} {id : String} {x : Binary64}
    (hcommand : c.command = .complete id x) (hanswer : a = .failed (.noTask id))
    (hmissing : ∀ t ∈ ts, t.id ≠ id) (other : String) :
    TaskMove K c a other (ts.find? (·.id = other)) (ts.find? (·.id = other)) := by
  refine .kept (by simp [hanswer, StoreAnswer.HandsOut]) fun y hy => ?_
  rw [hcommand, StoreCommand.complete.injEq] at hy
  obtain ⟨rfl, -⟩ := hy
  exact ⟨by simpa using hmissing, hanswer⟩

end Lists

/-! ### Runs of stores that keep tasks -/

namespace KeepsTasks

variable {σ : Type} [Store σ] {K : Retention} {Sound : Int → σ → Prop}

/-- The invariant holds after every run, with the number of the latest task that the calls come
to. -/
theorem sound_runCalls (hstore : KeepsTasks K Sound) {calls : List Call} {last : Int} {s : σ}
    (hsound : Sound last s) (hnow : ∀ c ∈ calls, c.now.IsPlain) (hfit : NumbersFit last calls) :
    Sound (numberAfter last calls) (runCalls s calls) := by
  induction calls generalizing last s with
  | nil => exact hsound
  | cons c rest ih =>
    obtain ⟨hfirst, hrest⟩ := hfit
    exact ih (hstore.sound_run hsound (hnow c (by simp)) hfirst)
      (fun d hd => hnow d (by simp [hd])) hrest

/-- The task under an identifier carries the identifier. -/
theorem id_of_task? (hstore : KeepsTasks K Sound) {last : Int} {s : σ} {id : String} {t : Task}
    (hsound : Sound last s) (htask : Store.task? id s = some t) : t.id = id := by
  rcases hstore.get id hsound with ⟨u, hget, hid⟩ | hget
  · have hsame : u = t := by simpa [Store.task?, hget, Except.toOption] using htask
    rw [← hsame, hid]
  · simp [Store.task?, hget, Except.toOption] at htask

end KeepsTasks

end ArithService
