import Mathlib
import ArithService.Proofs.Dispatch.Paths
import ArithService.Proofs.Dispatch.Run
import ArithService.Proofs.Expression.Work
import ArithService.Proofs.Http.Submission
import ArithService.Proofs.Store.Lifecycle

/-!
# The service is safe

Whatever clients, workers and the sweeper do, and in whatever order, every result that is handed
in is accepted, and every completed task has the value of its expression, for good.

## Main Definitions

* `Task.HasValue` — a task that leads to the value of its expression
* `Service.IsRight` — the invariant of the service
* `RunIsSafe` — the property of a run

## Design Notes

A task may be handed out many times, and results may come late and more than once. None of that
matters, because all assignments of a task are equal (`TaskMove.exists_ofTask`) and all results
for it are its value. So the invariant speaks about tasks and assignments, and not about leases.
-/

namespace ArithService

/-! ### Values of tasks -/

/-- A task with the value of its expression: its assignment is computed to the value, and once
completed it has for its result what is kept of the value. -/
structure Task.HasValue (kept : Binary64 → Option Binary64) (t : Task) (x : Binary64) : Prop where
  checked : evaluateChecked t.expression = .ok x
  finite : x.isFinite = true
  assigned : (Assignment.ofTask t).compute = .ok x
  result : t.status = .completed → t.result = kept x

/-- A task that is recorded for an accepted expression has a value, also as a table gives it back:
the texts that decide about it have no zero characters. -/
theorem exists_hasValue_submitted {K : Retention} (hfaithful : K.IsFaithful)
    {kept : Binary64 → Option Binary64} {text : String} {work : Work}
    (hwork : Work.ofText text = .ok work) (id : String) (owner : Int) (createdAt : Instant) :
    ∃ x, (K.submitted (.fresh id owner text work createdAt)).HasValue kept x := by
  obtain ⟨x, hchecked, hfinite, -, hyields⟩ := Work.yields_of_ofText hwork
  rw [hfaithful.submitted_fresh hwork]
  refine ⟨x, hchecked, hfinite, ?_, by simp [Task.fresh]⟩
  cases hyields with
  | @binary left right o _ _ hvalue =>
    show (submitted id owner text (.binary left o right) createdAt).compute = .ok x
    rw [submitted_binary, Assignment.compute, if_neg o.text_ne_empty, hvalue]
  | @expression stripped hvalue =>
    show (submitted id owner text (.expression stripped) createdAt).compute = .ok x
    rw [submitted_expression, Assignment.compute, if_pos rfl, hvalue]

section Moves

variable {K : Retention} {kept : Binary64 → Option Binary64} {c : Call} {a : StoreAnswer}
  {id : String} {t u : Task} {x : Binary64} {before after : Option Task}

/-- A call leaves the assignment of a task as it was. So it does not matter which of its workers
hands in a result, and when. -/
theorem TaskMove.exists_ofTask (h : TaskMove K c a id (some t) after) :
    ∃ u, after = some u ∧ Assignment.ofTask u = Assignment.ofTask t := by
  cases h <;> exact ⟨_, rfl, rfl⟩

/-- Tasks keep having a value, if only values are taken in and only expressions with a value are
recorded. Both conditions are about the calls that events make, and are shown of them below. -/
theorem TaskMove.hasValue (h : TaskMove K c a id before after) (hfaithful : K.IsFaithful)
    (hbefore : ∀ t, before = some t → ∃ x, t.HasValue kept x)
    (hrecord : ∀ owner text work, c.command = .enqueue owner text work →
      Work.ofText text = .ok work)
    (htake : ∀ t x y, before = some t → t.HasValue kept x → c.command = .complete id y →
      K.number y = kept x)
    (hafter : after = some u) : ∃ x, u.HasValue kept x := by
  cases h with
  | kept _ _ => exact hbefore u hafter
  | submitted hcommand _ _ _ =>
    obtain rfl := Option.some.inj hafter
    exact exists_hasValue_submitted hfaithful (hrecord _ _ _ hcommand) _ _ _
  | released _ _ _ =>
    obtain rfl := Option.some.inj hafter
    obtain ⟨x, hvalue⟩ := hbefore _ rfl
    exact ⟨x, hvalue.checked, hvalue.finite, hvalue.assigned, by simp [MemoryStore.released]⟩
  | claimed _ _ _ =>
    obtain rfl := Option.some.inj hafter
    obtain ⟨x, hvalue⟩ := hbefore _ rfl
    exact ⟨x, hvalue.checked, hvalue.finite, hvalue.assigned, by simp [MemoryStore.claimed]⟩
  | completed hcommand _ =>
    obtain rfl := Option.some.inj hafter
    obtain ⟨x, hvalue⟩ := hbefore _ rfl
    exact ⟨x, hvalue.checked, hvalue.finite, hvalue.assigned,
      fun _ => htake _ x _ rfl hvalue hcommand⟩

/-- A completed task keeps its result, if only its value is taken in: a second result for it is the
same one. -/
theorem TaskMove.result_eq (h : TaskMove K c a id (some t) after) (hdone : t.status = .completed)
    (hvalue : t.HasValue kept x)
    (htake : ∀ y, c.command = .complete id y → K.number y = kept x) :
    ∃ u, after = some u ∧ u.status = .completed ∧ u.result = t.result := by
  rcases h.of_completed hdone with ⟨-, hsame⟩ | ⟨y, hcommand, -, hafter⟩
  · exact ⟨t, hsame, hdone, rfl⟩
  · exact ⟨_, hafter, rfl, (htake y hcommand).trans (hvalue.result hdone).symm⟩

end Moves

/-! ### The invariant -/

/-- What a store keeps of a value that was handed in. -/
def Deployment.kept (d : Deployment) (K : Retention) (x : Binary64) : Option Binary64 :=
  K.number (d.delivery.carry x)

/-- The invariant of the service after a number of submissions: every task has a value, and every
assignment in the hands of a worker is that of a task. -/
structure Service.IsRight {σ : Type} [Store σ] (K : Retention) (Sound : Int → σ → Prop)
    (d : Deployment) (used : Nat) (s : Service σ) : Prop where
  sound : ∃ last, Sound last s.store ∧ HasRoom last used
  values : ∀ id t, Store.task? id s.store = some t → ∃ x, t.HasValue (d.kept K) x
  held : ∀ m ∈ s.held, m.id ≠ "" → ∃ t, Store.task? m.id s.store = some t ∧ m = .ofTask t

namespace Service.IsRight

variable {σ : Type} [Store σ] {K : Retention} {Sound : Int → σ → Prop} {d : Deployment}
  {used : Nat} {s : Service σ} {e : DispatchEvent} {command : StoreCommand}

/-- A worker computes the value of the task, and never fails to: work that was recorded has a
value. -/
theorem exists_compute (h : s.IsRight K Sound d used) {m : Assignment} (hheld : m ∈ s.held)
    (hid : m.id ≠ "") : ∃ t x, Store.task? m.id s.store = some t ∧ t.HasValue (d.kept K) x ∧
      m.compute = .ok x := by
  obtain ⟨t, htask, hof⟩ := h.held m hheld hid
  obtain ⟨x, hvalue⟩ := h.values m.id t htask
  exact ⟨t, x, htask, hvalue, hof ▸ hvalue.assigned⟩

/-- What is taken in for a task is its value, as far as it gets through. -/
theorem number_eq_kept (h : s.IsRight K Sound d used) {id : String} {t : Task} {x y : Binary64}
    (htask : Store.task? id s.store = some t) (hvalue : t.HasValue (d.kept K) x)
    (hmakes : e.Makes d s (.complete id y)) : K.number y = d.kept K x := by
  cases hmakes with
  | takeIn hheld hid hcompute =>
    obtain ⟨u, z, hsame, hother, hagain⟩ := h.exists_compute hheld hid
    obtain rfl := Option.some.inj (htask.symm.trans hsame)
    obtain rfl := Except.ok.inj (hvalue.checked.symm.trans hother.checked)
    obtain rfl := Except.ok.inj (hcompute.symm.trans hagain)
    rfl

/-- Every event moves every task by the call that it makes, and these are the moves that stores are
known for. -/
theorem exists_move (hstore : KeepsTasks K Sound) (h : s.IsRight K Sound d used)
    (hnow : e.now.IsClockReading) (hused : e.isSubmission = true → used < 10 ^ 16) :
    ∃ command, e.RunsAs d s command ∧ ∀ id,
      TaskMove K ⟨e.now, command⟩ (Call.run ⟨e.now, command⟩ s.store).1 id
        (Store.task? id s.store) (Store.task? id (e.run d s).2.store) := by
  obtain ⟨command, hruns⟩ := DispatchEvent.exists_runsAs d s e
  obtain ⟨last, hsound, hroom⟩ := h.sound
  refine ⟨command, hruns, fun id => ?_⟩
  rw [hruns.store]
  exact hstore.move id hsound hnow.isPlain (hruns.makes.numberFits hroom hnow hused)

/-- **Every event preserves the invariant.** A task that is handed out is known with its value, and
what is handed in for it was computed from its assignment. -/
theorem run (hstore : KeepsTasks K Sound) (h : s.IsRight K Sound d used)
    (hnow : e.now.IsClockReading) (hused : e.isSubmission = true → used < 10 ^ 16) :
    (e.run d s).2.IsRight K Sound d (if e.isSubmission then used + 1 else used) := by
  obtain ⟨command, hruns, hmove⟩ := h.exists_move hstore hnow hused
  refine ⟨?_, fun id u htask => ?_, fun m hheld hid => ?_⟩
  · -- The call uses up a number only where the event counts as a submission.
    obtain ⟨last, hsound, hroom⟩ := h.sound
    have hfits := hruns.makes.numberFits hroom hnow hused
    refine ⟨_, hruns.store ▸ hstore.sound_run hsound hnow.isPlain hfits,
      (hroom.call hnow hfits).mono ?_⟩
    split_ifs with henqueue hsubmission
    · exact le_rfl
    · exact absurd (hruns.makes.isSubmission henqueue) hsubmission
    · exact Nat.le_succ used
    · exact le_rfl
  · refine (hmove id).hasValue hstore.faithful (h.values id) ?_ ?_ htask
    · rintro owner text work rfl
      exact hruns.makes.ofText
    · rintro t x y hbefore hvalue rfl
      exact h.number_eq_kept hbefore hvalue hruns.makes
  · -- An old assignment still belongs to its task, a new one to the task that was handed out.
    rcases hruns.held m hheld with hold | hempty | ⟨t, hclaimed, rfl⟩
    · obtain ⟨t, hbefore, rfl⟩ := h.held m hold hid
      have hmoveTask := hmove (Assignment.ofTask t).id
      rw [hbefore] at hmoveTask
      obtain ⟨u, hafter, hsame⟩ := hmoveTask.exists_ofTask
      exact ⟨u, hafter, hsame.symm⟩
    · exact absurd hempty hid
    · obtain ⟨v, deadline, -, -, -, hanswer, hafter⟩ :=
        (hmove t.id).of_handsOut ⟨t, hclaimed, rfl⟩
      rw [hclaimed, StoreAnswer.claimed.injEq, Option.some.injEq] at hanswer
      rw [Assignment.id_ofTask]
      exact ⟨t, hanswer ▸ hafter, rfl⟩

/-- Every run preserves the invariant, by induction over its events. -/
theorem runEvents (hstore : KeepsTasks K Sound) {events : List DispatchEvent}
    (h : s.IsRight K Sound d used) (hclock : ∀ e ∈ events, e.now.IsClockReading)
    (hcount : used + events.countP DispatchEvent.isSubmission < 10 ^ 16) :
    (runEvents d s events).IsRight K Sound d
      (used + events.countP DispatchEvent.isSubmission) := by
  induction events generalizing s used with
  | nil => exact h
  | cons e rest ih =>
    rw [List.countP_cons] at hcount ⊢
    have hused : e.isSubmission = true → used < 10 ^ 16 := fun _ => by omega
    have hnext := h.run hstore (hclock e (by simp)) hused
    have hsame : used + (rest.countP DispatchEvent.isSubmission + if e.isSubmission then 1 else 0) =
        (if e.isSubmission then used + 1 else used) +
          rest.countP DispatchEvent.isSubmission := by
      split_ifs <;> omega
    rw [hsame] at hcount ⊢
    exact ih hnext (fun f hf => hclock f (by simp [hf])) hcount

/-- A completed task keeps its result in every event, as all that can still come for it is its
value. -/
theorem exists_result_run (hstore : KeepsTasks K Sound) (h : s.IsRight K Sound d used)
    (hnow : e.now.IsClockReading) (hused : e.isSubmission = true → used < 10 ^ 16) {id : String}
    {t : Task} (htask : Store.task? id s.store = some t) (hdone : t.status = .completed) :
    ∃ u, Store.task? id (e.run d s).2.store = some u ∧ u.status = .completed ∧
      u.result = t.result := by
  obtain ⟨command, hruns, hmove⟩ := h.exists_move hstore hnow hused
  obtain ⟨x, hvalue⟩ := h.values id t htask
  have hmoveTask := hmove id
  rw [htask] at hmoveTask
  refine hmoveTask.result_eq hdone hvalue ?_
  rintro y rfl
  exact h.number_eq_kept htask hvalue hruns.makes

/-- A completed task keeps its result in every run. -/
theorem exists_result_runEvents (hstore : KeepsTasks K Sound) {events : List DispatchEvent}
    (h : s.IsRight K Sound d used) (hclock : ∀ e ∈ events, e.now.IsClockReading)
    (hcount : used + events.countP DispatchEvent.isSubmission < 10 ^ 16) {id : String} {t : Task}
    (htask : Store.task? id s.store = some t) (hdone : t.status = .completed) :
    ∃ u, Store.task? id (ArithService.runEvents d s events).store = some u ∧
      u.status = .completed ∧ u.result = t.result := by
  -- One event keeps the result by `exists_result_run`; the invariant is carried along.
  induction events generalizing s used t with
  | nil => exact ⟨t, htask, hdone, rfl⟩
  | cons e rest ih =>
    have hnow := hclock e (by simp)
    rw [List.countP_cons] at hcount
    have hused : e.isSubmission = true → used < 10 ^ 16 := fun _ => by omega
    have hnext := h.run hstore hnow hused
    have hrest : (if e.isSubmission then used + 1 else used) +
        rest.countP DispatchEvent.isSubmission < 10 ^ 16 := by
      split_ifs at hcount ⊢ <;> omega
    obtain ⟨u, hafter, hstill, hsame⟩ := h.exists_result_run hstore hnow hused htask hdone
    obtain ⟨v, hlater, hcompleted, hresult⟩ :=
      ih hnext (fun f hf => hclock f (by simp [hf])) hrest hafter hstill
    exact ⟨v, hlater, hcompleted, hresult.trans hsame⟩

/-- **A result that is handed in is accepted**, however late and however often: the task is still
there, completed or not. -/
theorem run_submit (hstore : KeepsTasks K Sound) (h : s.IsRight K Sound d used) {now : Instant}
    (hnow : now.IsClockReading) {m : Assignment} (hheld : m ∈ s.held) (hid : m.id ≠ "") :
    (DispatchEvent.run d ⟨now, .submit m⟩ s).1 = .submission (.ok ⟨true⟩) := by
  obtain ⟨t, x, htask, hvalue, hcompute⟩ := h.exists_compute hheld hid
  obtain ⟨last, hsound, -⟩ := h.sound
  have hmove := hstore.move (c := ⟨now, .complete m.id (d.delivery.carry x)⟩) m.id hsound
    hnow.isPlain (by simp [Call.NumberFits, Call.isEnqueue])
  -- Completing is refused for missing tasks only, and the task of the assignment is there.
  have hcomplete : (Store.complete now m.id (d.delivery.carry x) s.store).1 = .ok () := by
    rcases hmove.of_complete rfl with ⟨hmissing, -⟩ | ⟨hanswer, -⟩
    · simp [htask] at hmissing
    · change StoreAnswer.ofResult (fun _ => .done)
        (Store.complete now m.id (d.delivery.carry x) s.store).1 = .done at hanswer
      cases hresult : (Store.complete now m.id (d.delivery.carry x) s.store).1 with
      | ok value => rfl
      | error e => simp [hresult, StoreAnswer.ofResult] at hanswer
  have htaken := takeIn_eq now s.store hid (d.delivery.isFinite_carry hvalue.finite)
  rw [hcomplete] at htaken
  simp only [DispatchEvent.run, if_pos (And.intro hheld hid), hcompute, d.delivery.deliver_eq,
    htaken]
  rfl

end Service.IsRight

/-! ### Runs -/

/-- The service before anything was handed out. -/
def Service.start {σ : Type} (s : σ) : Service σ := ⟨s, []⟩

/-- What is promised of a run from a store: results are accepted, they are the values of their
expressions up to a relation, and they stay. -/
structure RunIsSafe {σ : Type} [Store σ] (R : Binary64 → Binary64 → Prop) (d : Deployment) (s : σ)
    (events : List DispatchEvent) : Prop where
  /-- Whenever a worker hands in what it computes for an assignment that it holds, the result is
  accepted. -/
  accepted : ∀ earlier now m later, events = earlier ++ ⟨now, .submit m⟩ :: later →
    m ∈ (runEvents d (.start s) earlier).held → m.id ≠ "" →
    (DispatchEvent.run d ⟨now, .submit m⟩ (runEvents d (.start s) earlier)).1 =
      .submission (.ok ⟨true⟩)
  /-- Every completed task has the value of its expression. -/
  results : ∀ id t, Store.get id (runEvents d (.start s) events).store = .ok t →
    t.status = .completed →
    ∃ x y, evaluateChecked t.expression = .ok x ∧ t.result = some y ∧ R x y
  /-- A task that was completed at any time in the run is so at its end, with the same result. -/
  final : ∀ earlier later, events = earlier ++ later → ∀ id t,
    Store.get id (runEvents d (.start s) earlier).store = .ok t → t.status = .completed →
    ∃ u, Store.get id (runEvents d (.start s) events).store = .ok u ∧ u.status = .completed ∧
      u.result = t.result

/-- Two numbers that are equal as numbers. -/
def Binary64.SameNumber (x y : Binary64) : Prop := x.sameNumber y = true

/-- **On a store that keeps tasks, runs are safe.** What the store and the way of a result keep of a
value is all that makes a difference between deployments. -/
theorem KeepsTasks.runIsSafe {σ : Type} [Store σ] {K : Retention} {Sound : Int → σ → Prop}
    (hstore : KeepsTasks K Sound) {s : σ} (hsound : Sound 0 s)
    (hempty : ∀ id, Store.task? id s = none) {R : Binary64 → Binary64 → Prop} {d : Deployment}
    (hkept : ∀ x, x.isFinite = true → ∃ y, d.kept K x = some y ∧ R x y)
    {events : List DispatchEvent} (hclock : ∀ e ∈ events, e.now.IsClockReading)
    (hcount : events.countP DispatchEvent.isSubmission < 10 ^ 16) : RunIsSafe R d s events := by
  have hstart : (Service.start s).IsRight K Sound d 0 :=
    ⟨⟨0, hsound, hasRoom_zero⟩, by simp [Service.start, hempty], by simp [Service.start]⟩
  -- All three promises are read off the invariant after a part of the run.
  have hruns : ∀ earlier later, events = earlier ++ later →
      (runEvents d (.start s) earlier).IsRight K Sound d
        (0 + earlier.countP DispatchEvent.isSubmission) := by
    rintro earlier later rfl
    rw [List.countP_append] at hcount
    exact hstart.runEvents hstore (fun e he => hclock e (by simp [he])) (by omega)
  refine ⟨?_, ?_, ?_⟩
  · rintro earlier now m later rfl hheld hid
    have hnow : now.IsClockReading := hclock ⟨now, .submit m⟩ (by simp)
    exact (hruns earlier _ rfl).run_submit hstore hnow hheld hid
  · intro id t hget hdone
    obtain ⟨x, hvalue⟩ :=
      (hruns events [] (by simp)).values id t (Store.task?_eq_some_iff.2 hget)
    obtain ⟨y, hy, hrelated⟩ := hkept x hvalue.finite
    exact ⟨x, y, hvalue.checked, (hvalue.result hdone).trans hy, hrelated⟩
  · rintro earlier later rfl id t hget hdone
    rw [List.countP_append, ← Nat.zero_add (earlier.countP _)] at hcount
    have hclockLater : ∀ e ∈ later, e.now.IsClockReading := fun e he => hclock e (by simp [he])
    obtain ⟨u, hlater, hstill, hsame⟩ := (hruns earlier later rfl).exists_result_runEvents hstore
      hclockLater hcount (Store.task?_eq_some_iff.2 hget) hdone
    refine ⟨u, ?_, hstill, hsame⟩
    rw [runEvents_append]
    exact Store.task?_eq_some_iff.1 hlater

theorem Delivery.carry_sameNumber (d : Delivery) {x : Binary64} (h : x.isFinite = true) :
    (d.carry x).sameNumber x = true := by
  cases d with
  | direct => exact Binary64.sameNumber_self (Binary64.ne_nan_of_isFinite h)
  | message =>
    simp only [carry, deliver, ResultReport.received]
    split_ifs with hzero
    · exact Binary64.sameNumber_of_isZero Binary64.isZero_zero hzero
    · exact Binary64.sameNumber_self (Binary64.ne_nan_of_isFinite h)

/-- A faithful store keeps the same number as was computed, up to the sign of a zero. -/
theorem Retention.IsFaithful.exists_kept {K : Retention} (h : K.IsFaithful) (d : Deployment)
    {x : Binary64} (hfinite : x.isFinite = true) :
    ∃ y, d.kept K x = some y ∧ x.SameNumber y := by
  have hcarried := d.delivery.isFinite_carry hfinite
  obtain ⟨y, hy, hsame⟩ := h.number (Binary64.ne_nan_of_isFinite hcarried)
  have hvalue := Binary64.sameNumber_trans hsame (d.delivery.carry_sameNumber hfinite)
  exact ⟨y, hy, Binary64.sameNumber_comm hvalue⟩

/-- **The service is safe**: in every run from the empty store, in memory and on a database, all
results are accepted, equal to the values of their expressions as numbers, and final. In memory
they are the values themselves where results do not travel in messages. -/
theorem service_is_safe (d : Deployment) (events : List DispatchEvent)
    (hclock : ∀ e ∈ events, e.now.IsClockReading)
    (hcount : events.countP DispatchEvent.isSubmission < 10 ^ 16) :
    RunIsSafe Binary64.SameNumber d MemoryStore.empty events ∧
      RunIsSafe Binary64.SameNumber d DatabaseStore.empty events ∧
      (d.delivery = .direct → RunIsSafe Eq d MemoryStore.empty events) := by
  refine ⟨?_, ?_, fun hdirect => ?_⟩
  · exact MemoryStore.keepsTasks.runIsSafe MemoryStore.sound_empty MemoryStore.task?_empty
      (fun x => MemoryStore.keepsTasks.faithful.exists_kept d) hclock hcount
  · exact DatabaseStore.keepsTasks.runIsSafe DatabaseStore.sound_empty DatabaseStore.task?_empty
      (fun x => DatabaseStore.keepsTasks.faithful.exists_kept d) hclock hcount
  · refine MemoryStore.keepsTasks.runIsSafe MemoryStore.sound_empty MemoryStore.task?_empty
      (fun x _ => ⟨x, ?_, rfl⟩) hclock hcount
    simp [Deployment.kept, Retention.exact, hdirect, Delivery.carry, Delivery.deliver]

/-! ### A result that comes late, and twice -/

/-- A service with results that travel in a given way. -/
def sampleDeployment (delivery : Delivery) : Deployment where
  api := ⟨⟨"secret", .ofSeconds 3600⟩, 4⟩
  delivery

/-- The submission of an expression with the value negative zero, by user 1. -/
def negativeZeroRequest : Request where
  method := "POST"
  path := Route.tasksPath
  headers := [("content-type", "application/json"),
    ("authorization", (⟨"secret", .ofSeconds 3600⟩ : TokenService).issue ⟨1700000000, 0⟩ 1 "ada")]
  body := textBytes (jsonObject [("expression", jsonString "0*(0-1)")])

/-- What a worker is told about it. -/
def negativeZeroAssignment : Assignment :=
  { id := taskId 1700000001000000000, expression := "0*(0-1)" }

/-- A task whose first worker is slow: its lease ends, the task is handed out again, and both
workers hand in a result. -/
def lateResult : List DispatchEvent :=
  [⟨⟨1700000000, 0⟩, .account "ada" "hash"⟩,
    ⟨⟨1700000001, 0⟩, .request [] negativeZeroRequest⟩,
    ⟨⟨1700000002, 0⟩, .getTask (.ofSeconds 60)⟩,
    ⟨⟨1700000063, 0⟩, .sweep⟩,
    ⟨⟨1700000064, 0⟩, .getTask (.ofSeconds 60)⟩,
    ⟨⟨1700000065, 0⟩, .submit negativeZeroAssignment⟩,
    ⟨⟨1700000066, 0⟩, .submit negativeZeroAssignment⟩]

/-- The service is safe with a slow worker. -/
theorem service_is_safe_lateResult :
    RunIsSafe Binary64.SameNumber (sampleDeployment .direct) MemoryStore.empty lateResult ∧
      RunIsSafe Binary64.SameNumber (sampleDeployment .direct) DatabaseStore.empty lateResult ∧
      RunIsSafe Eq (sampleDeployment .direct) MemoryStore.empty lateResult := by
  obtain ⟨hmemory, hdatabase, hexact⟩ :=
    service_is_safe (sampleDeployment .direct) lateResult (by decide) (by decide)
  exact ⟨hmemory, hdatabase, hexact rfl⟩

/-- The task at the end of the run, where results travel in messages. -/
def negativeZeroTask : Task :=
  { MemoryStore.completed ⟨1700000066, 0⟩ .zero
      (.fresh (taskId 1700000001000000000) 1 "0*(0-1)" (.expression "0*(0-1)") ⟨1700000001, 0⟩) with
    startedAt := some ⟨1700000064, 0⟩ }

/-- The request is one of user 1, to whom its token was issued; the token need not be computed. -/
theorem submits_negativeZeroRequest (delivery : Delivery) :
    negativeZeroRequest.Submits (sampleDeployment delivery).api ⟨⟨1700000001, 0⟩, []⟩
      "/api/v1/tasks" ⟨1, "ada"⟩ "0*(0-1)" where
  method := rfl
  path := rfl
  caller := by
    have hother : ¬ "content-type".toList.map Char.toLower = "authorization".toList := by decide
    have hname : "authorization".toList.map Char.toLower = "authorization".toList := by decide
    have hheader : negativeZeroRequest.header? "authorization" =
        some (hourlyTokens.issue ⟨1700000000, 0⟩ 1 "ada") := by
      simp only [Request.header?, negativeZeroRequest, List.find?_cons, hother, hname, decide_true,
        decide_false]
      exact if_pos (Request.isVisibleAscii_issue _ _ _ _)
    have hbare (token : String) : HeaderCarries token token :=
      @HeaderCarries.bare _ _ [] [] (by simp [IsWhite]) (by simp [IsWhite]) (by simp)
    rw [hheader]
    exact TokenService.authenticate_issue rfl isIssueTime_hour (by decide) (by decide) (hbare _)
  expression := Request.expression?_eq (by decide) (by decide) rfl

/-- The first two events register the user and record the task. -/
theorem runEvents_take_two :
    runEvents (sampleDeployment .message) (.start MemoryStore.empty) (lateResult.take 2) =
      .start (Store.enqueue ⟨1700000001, 0⟩ 1 "0*(0-1)" (.expression "0*(0-1)")
        (Store.createUser "ada" "hash" MemoryStore.empty).2).2 := by
  have hwork : Work.ofText "0*(0-1)" = .ok (.expression "0*(0-1)") := by decide +kernel
  have hrecorded : (Store.enqueue ⟨1700000001, 0⟩ 1 "0*(0-1)" (.expression "0*(0-1)")
      (Store.createUser "ada" "hash" MemoryStore.empty).2).1 =
      .ok (taskId 1700000001000000000) := by decide +kernel
  have hresponse := (submits_negativeZeroRequest .message).respond_recorded hwork hrecorded
  have htwo : lateResult.take 2 = [⟨⟨1700000000, 0⟩, .account "ada" "hash"⟩,
      ⟨⟨1700000001, 0⟩, .request [] negativeZeroRequest⟩] := by
    simp only [lateResult, List.take_succ_cons, List.take_zero]
  rw [htwo, runEvents, runEvents, runEvents, DispatchEvent.run_account, DispatchEvent.run_request]
  exact congrArg (fun answer => Service.mk answer.2 []) hresponse

/-- Where results travel in messages, a zero arrives without its sign, so that a store in memory
ends up with the result zero for an expression with the value negative zero. -/
theorem zero_arrives_without_sign :
    (∀ e ∈ lateResult, e.now.IsClockReading) ∧
      lateResult.countP DispatchEvent.isSubmission < 10 ^ 16 ∧
      ¬ RunIsSafe Eq (sampleDeployment .message) MemoryStore.empty lateResult := by
  refine ⟨by decide, by decide, fun hsafe => ?_⟩
  have hget : Store.get (taskId 1700000001000000000)
      (runEvents (sampleDeployment .message) (.start MemoryStore.empty) lateResult).store =
      .ok negativeZeroTask := by
    rw [← List.take_append_drop 2 lateResult, runEvents_append, runEvents_take_two]
    decide +kernel
  obtain ⟨x, y, hvalue, hresult, rfl⟩ := hsafe.results _ _ hget rfl
  obtain rfl := Option.some.inj hresult
  have hnegative : evaluateChecked negativeZeroTask.expression ≠ .ok .zero := by decide +kernel
  exact hnegative hvalue

end ArithService
