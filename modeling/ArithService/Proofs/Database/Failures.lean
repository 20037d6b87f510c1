import Mathlib
import ArithService.Proofs.Database.Users
import ArithService.Proofs.Store.Exclusive
import ArithService.Proofs.Store.Failures

/-!
# Failures leave no trace, on a database either

A failed call leaves a database as it was. Only a task that is refused leaves something behind:
its number is used up.

## Main Definitions

* `ServiceStep`, `DatabaseStore.serve` — calls with their answers, and opening again
* `CountersMeet` — whether two counters give out the same numbers from some point on
* `DatabaseStore.LeavesNoTrace` — what a failed call leaves behind

## Design Notes

A claim asks for its deadline before it takes back leases, so a lease that is out of range is
refused with the tables untouched. On regular stores every other statement of a claim succeeds.

Two stores on the same database are told apart by the next number only, and by that only until a
task is recorded under the same number in both, or the database is opened again.
-/

namespace ArithService

/-! ### Steps -/

/-- A call, or opening the database again. -/
inductive ServiceStep where
  | call (c : ServiceCall)
  | reopen
deriving DecidableEq, Repr

/-- What a sequence of steps is answered with. -/
def DatabaseStore.serve (s : DatabaseStore) :
    List ServiceStep → Except StoreError (List ServiceAnswer)
  | [] => .ok []
  | .call c :: rest => do
    let later ← serve (c.run s).2 rest
    return (c.run s).1 :: later
  | .reopen :: rest => do
    let s ← (open_ s.database).1
    serve s rest

/-- The reading of the clock at which a call records a task, if it does. -/
def ServiceCall.recordedAt? (c : ServiceCall) : Option Instant :=
  (c.call?.filter Call.isEnqueue).map Call.now

theorem ServiceCall.recordedAt?_eq {c : ServiceCall} {d : Call} (hcall : c.call? = some d) :
    c.recordedAt? = if d.isEnqueue then some d.now else none := by
  rw [recordedAt?, hcall, Option.filter_some]
  split_ifs <;> rfl

/-- Whether two counters that stand at two numbers give out the same number for the next task, if
one is recorded before the database is opened again. Calls for which both break off do not count. -/
def CountersMeet (m n : Int) : List ServiceStep → Prop
  | [] => True
  | .reopen :: _ => True
  | .call c :: rest =>
    match c.recordedAt? with
    | some now =>
      nextNumber m now = nextNumber n now ∧
        (nextNumber m now = none → CountersMeet m n rest)
    | none => CountersMeet m n rest

/-- A counter that is behind the clock gives out the reading of the clock. -/
theorem nextNumber_of_lt {last : Int} {now : Instant} (hlt : last < clockNumber now) :
    nextNumber last now = some (clockNumber now) := by
  have hhigh := (isInt64_clockNumber now).2
  exact nextNumber_eq_some_iff.2 ⟨by omega, (max_eq_left (by omega)).symm⟩

/-- Counters meet where the clock has passed both. -/
theorem countersMeet_of_lt {m n : Int} {steps : List ServiceStep}
    (hclock : ∀ c now, .call c ∈ steps → c.recordedAt? = some now →
      m < clockNumber now ∧ n < clockNumber now) : CountersMeet m n steps := by
  induction steps with
  | nil => trivial
  | cons step rest ih =>
    cases step with
    | reopen => trivial
    | call c =>
      unfold CountersMeet
      cases hrecorded : c.recordedAt? with
      | some now =>
        obtain ⟨hmClock, hnClock⟩ := hclock c now List.mem_cons_self hrecorded
        show nextNumber m now = nextNumber n now ∧ (nextNumber m now = none → _)
        rw [nextNumber_of_lt hmClock, nextNumber_of_lt hnClock]
        exact ⟨rfl, fun hnone => nomatch hnone⟩
      | none =>
        refine ih ?_
        intro d now hmem
        exact hclock d now (List.mem_cons_of_mem _ hmem)

namespace DatabaseStore

variable {s o : DatabaseStore} {e : StoreError}

/-! ### Calls that fail -/

/-- A claim on a regular store only fails because of its lease, and then changes nothing. -/
theorem Regular.claim_failed (h : Regular s) {now : Instant} {lease : Span}
    (hfailed : (s.claim now lease).1 = .error e) : (s.claim now lease).2 = s := by
  cases hdeadline : now.add? lease with
  | none => simp only [DatabaseStore.claim, hdeadline]
  | some deadline =>
    exfalso
    have hswept := h.readable.requeue now
    rw [requeue_eq h.readable.table h.readable.triggers] at hswept
    rw [h.readable.inOrder.claim_eq hdeadline, handOutNext] at hfailed
    cases hnext : (rows (s.withRows ((rows s.database).map (requeuedRow now))).database).filter
        (isNext (s.withRows ((rows s.database).map (requeuedRow now))).database) with
    | nil => simp [hnext, changedAnswer] at hfailed
    | cons r rest =>
      -- The row that is handed out makes sense, so it can be shown.
      have hr := List.mem_filter.1 (hnext ▸ List.mem_cons_self : r ∈ List.filter _ _)
      have htask := ((hswept.rows r hr.1).claimed now.text deadline.text).toTask_eq
      simp [hnext, changedAnswer, htask] at hfailed

/-- A result without a task changes nothing. -/
theorem Regular.complete_failed (h : Regular s) {now : Instant} {id : String} {x : Binary64}
    (hfailed : (s.complete now id x).1 = .error e) : (s.complete now id x).2 = s := by
  rw [h.readable.inOrder.complete_eq] at hfailed ⊢
  dsimp only at hfailed ⊢
  split_ifs at hfailed with hfound
  have hnone : ∀ r ∈ rows s.database, r.id ≠ some id := by simpa using hfound
  have hsame : (rows s.database).map
      (fun r => if r.id = some id then r.completed now.text x else r) = rows s.database := by
    conv_rhs => rw [← List.map_id (rows s.database)]
    exact List.map_congr_left fun r hr => if_neg (hnone r hr)
  rw [hsame, withRows, Database.withRows, ← h.readable.table]

/-- **A failed call leaves a regular store as it was**, but for the number of a task that was
refused. -/
theorem Regular.run_of_failed (h : Regular s) {c : Call} (hfailed : (c.run s).1 = .failed e) :
    (c.run s).2 = s ∨
      c.isEnqueue = true ∧
        (c.run s).2 =
          { s with lastNumber := (nextNumber s.lastNumber c.now).getD s.lastNumber } := by
  obtain ⟨now, command⟩ := c
  cases command with
  | enqueue owner expression work =>
    have hresult : (s.enqueue now owner expression work).1 = .error e :=
      StoreAnswer.ofResult_eq_failed (by simp) hfailed
    refine .inr ⟨rfl, ?_⟩
    show (s.enqueue now owner expression work).2 = _
    rcases h.readable.enqueue_cases now owner expression work with
      ⟨e, hrefused⟩ | ⟨number, hadded, -⟩
    · rw [hrefused]
    · rw [hadded] at hresult
      simp at hresult
  | claim lease => exact .inl (h.claim_failed (StoreAnswer.ofResult_eq_failed (by simp) hfailed))
  | complete id x =>
    exact .inl (h.complete_failed (StoreAnswer.ofResult_eq_failed (by simp) hfailed))
  | requeue at_ =>
    have hresult : (s.requeue at_).1 = .error e :=
      StoreAnswer.ofResult_eq_failed (by simp) hfailed
    rw [requeue_eq h.readable.table h.readable.triggers] at hresult
    simp at hresult
  | createUser name passwordHash =>
    have hresult : (s.createUser name passwordHash).1 = .error e :=
      StoreAnswer.ofResult_eq_failed (by simp) hfailed
    refine .inl ?_
    show (s.createUser name passwordHash).2 = s
    rw [h.createUser_eq] at hresult ⊢
    split_ifs at hresult ⊢
    rfl
  | get _ => exact .inl rfl
  | list _ => exact .inl rfl
  | findUser _ => exact .inl rfl

/-! ### Later calls -/

/-- A store with another latest number. -/
def withNumber (s : DatabaseStore) (n : Int) : DatabaseStore := { s with lastNumber := n }

/-- Only tasks that are recorded ask for the latest number, and only they change it. -/
theorem run_withNumber {c : Call} (hother : c.isEnqueue = false) (s : DatabaseStore) (n : Int) :
    c.run (s.withNumber n) = ((c.run s).1, (c.run s).2.withNumber n) ∧
      (c.run s).2.lastNumber = s.lastNumber := by
  obtain ⟨now, command⟩ := c
  cases command with
  | enqueue owner expression work => simp [Call.isEnqueue] at hother
  | claim lease =>
    simp only [Call.run, StoreCommand.run, Store.claim, DatabaseStore.claim, DatabaseStore.requeue,
      withNumber]
    cases now.add? lease with
    | none => exact ⟨rfl, rfl⟩
    | some deadline =>
      dsimp only
      cases s.database.updateTasks requeueColumns (·.hasEndedLease now.text) TaskRow.released with
      | error f => exact ⟨rfl, rfl⟩
      | ok swept =>
        dsimp only
        cases swept.2.updateTasks claimColumns (isNext swept.2)
          (.claimed now.text deadline.text) with
        | error f => exact ⟨rfl, rfl⟩
        | ok changed =>
          obtain ⟨changed, db⟩ := changed
          cases changed with
          | nil => exact ⟨rfl, rfl⟩
          | cons r rest =>
            dsimp only
            cases r.toTask <;> exact ⟨rfl, rfl⟩
  | complete id x =>
    simp only [Call.run, StoreCommand.run, Store.complete, DatabaseStore.complete, withNumber]
    cases s.database.updateTasks completeColumns (·.id = some id) (.completed now.text x) with
    | error f => exact ⟨rfl, rfl⟩
    | ok changed =>
      obtain ⟨changed, db⟩ := changed
      cases changed <;> exact ⟨rfl, rfl⟩
  | requeue at_ =>
    simp only [Call.run, StoreCommand.run, Store.requeue, DatabaseStore.requeue, withNumber]
    cases s.database.updateTasks requeueColumns (·.hasEndedLease at_.text) TaskRow.released <;>
      exact ⟨rfl, rfl⟩
  | createUser name passwordHash =>
    simp only [Call.run, StoreCommand.run, Store.createUser, DatabaseStore.createUser, withNumber]
    split <;> exact ⟨rfl, rfl⟩
  | get _ => exact ⟨rfl, rfl⟩
  | list _ => exact ⟨rfl, rfl⟩
  | findUser _ => exact ⟨rfl, rfl⟩

/-- The next task is recorded alike where it gets the same number. Where there is no number for it,
nothing happens to either store. -/
theorem enqueue_withNumber {n : Int} {now : Instant}
    (hnumber : nextNumber n now = nextNumber s.lastNumber now) (owner : Int) (expression : String)
    (work : Work) :
    (s.withNumber n).enqueue now owner expression work = s.enqueue now owner expression work ∨
      nextNumber n now = none ∧ s.enqueue now owner expression work = (.error .brokenOff, s) ∧
        (s.withNumber n).enqueue now owner expression work =
          (.error .brokenOff, s.withNumber n) := by
  simp only [DatabaseStore.enqueue, withNumber, hnumber]
  cases nextNumber s.lastNumber now with
  | none => exact .inr ⟨rfl, rfl, rfl⟩
  | some number => exact .inl rfl

/-- **Stores on the same database answer alike** while their counters meet. -/
theorem serve_withNumber {n : Int} {steps : List ServiceStep}
    (hmeet : CountersMeet n s.lastNumber steps) : (s.withNumber n).serve steps = s.serve steps := by
  induction steps generalizing s with
  | nil => rfl
  | cons step rest ih =>
    cases step with
    | reopen => rfl
    | call c =>
      cases hcall : c.call? with
      | none =>
        have hrest : CountersMeet n s.lastNumber rest := by
          simpa [CountersMeet, ServiceCall.recordedAt?, hcall] using hmeet
        obtain ⟨hafter, hanswer⟩ := ServiceCall.run_of_refused hcall (s.withNumber n) s
        have hsame := (ServiceCall.run_of_refused hcall s s).1
        rw [serve, serve, hafter, hanswer, hsame, ih hrest]
      | some d =>
        rw [serve, serve, ServiceCall.run_of_call? hcall, ServiceCall.run_of_call? hcall]
        cases hrecords : d.isEnqueue with
        | true =>
          obtain ⟨hnumber, hrest⟩ : nextNumber n d.now = nextNumber s.lastNumber d.now ∧
              (nextNumber n d.now = none → CountersMeet n s.lastNumber rest) := by
            simpa [CountersMeet, ServiceCall.recordedAt?_eq hcall, hrecords] using hmeet
          obtain ⟨now, command⟩ := d
          cases command with
          | enqueue owner expression work =>
            have hrun : ∀ o : DatabaseStore, Call.run ⟨now, .enqueue owner expression work⟩ o =
                (.ofResult .taskId (o.enqueue now owner expression work).1,
                  (o.enqueue now owner expression work).2) := fun _ => rfl
            rw [hrun, hrun]
            rcases enqueue_withNumber hnumber owner expression work with
              hsame | ⟨hnone, hstays, hstaysToo⟩
            · -- From the next task on the two stores are the same.
              rw [hsame]
            · rw [hstays, hstaysToo]
              dsimp only
              rw [ih (hrest hnone)]
          | _ => simp [Call.isEnqueue] at hrecords
        | false =>
          obtain ⟨hrun, hlast⟩ := run_withNumber hrecords s n
          have hrest : CountersMeet n (d.run s).2.lastNumber rest := by
            rw [hlast]
            simpa [CountersMeet, ServiceCall.recordedAt?_eq hcall, hrecords] using hmeet
          rw [hrun]
          dsimp only
          rw [ih hrest]

/-! ### What a failed call leaves behind -/

/-- What a failed call leaves behind: the database as it was, and at most a number that is used
up. -/
structure LeavesNoTrace (c : ServiceCall) (s after : DatabaseStore) : Prop where
  /-- All rows of tasks and users are as before the call, and all else in the database. -/
  database : after.database = s.database
  /-- The counter moves for a task that is refused, and for nothing else. -/
  number : after.lastNumber = s.lastNumber ∨
    ∃ now, c.recordedAt? = some now ∧ nextNumber s.lastNumber now = some after.lastNumber
  /-- Every later call is answered as if the failed one had not been made, also after the database
  is opened again, when the counter stands at the same number. -/
  alike : ∀ n steps, (after.withNumber n).serve steps = (s.withNumber n).serve steps
  /-- Every later call is answered so from where the counter stands, unless the next task gets
  another number. -/
  later : ∀ steps, CountersMeet after.lastNumber s.lastNumber steps →
    after.serve steps = s.serve steps

/-- A store on the same database has no trace of the call, if the counter has not. -/
theorem leavesNoTrace_withNumber {c : ServiceCall} {n : Int}
    (hnumber : n = s.lastNumber ∨
      ∃ now, c.recordedAt? = some now ∧ nextNumber s.lastNumber now = some n) :
    LeavesNoTrace c s (s.withNumber n) where
  database := rfl
  number := hnumber
  alike _ _ := rfl
  later _ hmeet := serve_withNumber hmeet

/-- **Whatever fails on a regular store leaves no trace**, also calls of workers. -/
theorem Regular.leavesNoTrace (h : Regular s) {c : ServiceCall} (hfailed : (c.run s).1.IsFailure) :
    LeavesNoTrace c s (c.run s).2 := by
  have hunchanged : LeavesNoTrace c s s := leavesNoTrace_withNumber (.inl rfl)
  cases hcall : c.call? with
  | none =>
    rw [(ServiceCall.run_of_refused hcall s s).1]
    exact hunchanged
  | some d =>
    rw [ServiceCall.run_of_call? hcall] at hfailed ⊢
    obtain ⟨e, hstore⟩ := ServiceCall.exists_failed hfailed
    rcases h.run_of_failed hstore with hsame | ⟨hrecords, hafter⟩
    · rw [hsame]
      exact hunchanged
    · rw [hafter]
      refine leavesNoTrace_withNumber ?_
      cases hnext : nextNumber s.lastNumber d.now with
      | none => exact .inl rfl
      | some number =>
        refine .inr ⟨d.now, ?_, hnext⟩
        rw [ServiceCall.recordedAt?_eq hcall, if_pos hrecords]

end DatabaseStore

/-! ### Both stores -/

/-- **Failures leave no trace.** In every state that a store in memory or on a database can get
into, a call that is answered with an error, be it a call of the store or of a worker, leaves all
tasks and users as they were, and later calls are answered as if it had not been made. -/
theorem failures_leave_no_trace :
    (∀ s : MemoryStore, s.IsReachable → ∀ c : ServiceCall, (c.run s).1.IsFailure →
      (c.run s).2 = s) ∧
    (∀ s : DatabaseStore, s.IsReachable → ∀ c : ServiceCall, (c.run s).1.IsFailure →
      DatabaseStore.LeavesNoTrace c s (c.run s).2) :=
  ⟨fun _ _ _ hfailed => MemoryStore.run_of_isFailure hfailed,
    fun _ hreachable _ hfailed => hreachable.regular.leavesNoTrace hfailed⟩

/-- A task for a user who does not exist. -/
def orphanTask : ServiceCall :=
  .store ⟨⟨1700000003, 0⟩, .enqueue 2 "4+4" (.binary "4" .add "4")⟩

/-- A worker who asks for a task under a lease that ends after the last date, at a time when the
lease of another worker has ended. -/
def endlessClaim : ServiceCall := .handOut ⟨1700000100, 0⟩ .longest

/-- What comes after: a claim, a task, and another claim when the database was opened again. -/
def laterSteps : List ServiceStep :=
  [.call (.handOut ⟨1700000101, 0⟩ (.ofSeconds 60)),
    .call (.store ⟨⟨1700000102, 0⟩, .enqueue 1 "5+5" (.binary "5" .add "5")⟩), .reopen,
    .call (.handOut ⟨1700000103, 0⟩ (.ofSeconds 60))]

/-- A refused task is forgotten but for its number, and a claim out of range takes back nothing,
although the lease in the store has ended. -/
theorem failures_leave_no_trace_refused :
    (endlessClaim.run (runCalls MemoryStore.empty (oneTask ++ [claimAt 1700000002]))).2 =
        runCalls MemoryStore.empty (oneTask ++ [claimAt 1700000002]) ∧
      (endlessClaim.run (runCalls DatabaseStore.empty (oneTask ++ [claimAt 1700000002]))).2.database
        = (runCalls DatabaseStore.empty (oneTask ++ [claimAt 1700000002])).database ∧
      (orphanTask.run (runCalls DatabaseStore.empty (oneTask ++ [claimAt 1700000002]))).2.serve
          laterSteps =
        (runCalls DatabaseStore.empty (oneTask ++ [claimAt 1700000002])).serve laterSteps := by
  have hreachable := DatabaseStore.isReachable_runCalls (oneTask ++ [claimAt 1700000002])
  have hendless : ∀ {σ : Type} [Store σ] (s : σ),
      (handOut .longest ⟨1700000100, 0⟩ s).1 = .error (.internal "storage failure") →
      (endlessClaim.run s).1.IsFailure := fun s hresult => ⟨_, hresult⟩
  refine ⟨?_, ?_, ?_⟩
  · refine failures_leave_no_trace.1 _ ⟨_, rfl⟩ endlessClaim (hendless _ ?_)
    decide +kernel
  · refine (failures_leave_no_trace.2 _ hreachable endlessClaim (hendless _ ?_)).database
    decide +kernel
  · have hresult : ((runCalls DatabaseStore.empty (oneTask ++ [claimAt 1700000002])).enqueue
        ⟨1700000003, 0⟩ 2 "4+4" (.binary "4" .add "4")).1 =
        .error (queryFault "enqueue" .foreignKey) := by decide +kernel
    have hfailed : (orphanTask.run (runCalls DatabaseStore.empty
        (oneTask ++ [claimAt 1700000002]))).1.IsFailure := by
      rw [orphanTask, ServiceCall.run_of_call? rfl]
      exact ⟨_, congrArg (StoreAnswer.ofResult .taskId) hresult⟩
    have hbefore : (runCalls DatabaseStore.empty (oneTask ++ [claimAt 1700000002])).lastNumber =
        1700000001000000000 := by decide +kernel
    have hafter : (orphanTask.run (runCalls DatabaseStore.empty
        (oneTask ++ [claimAt 1700000002]))).2.lastNumber = 1700000003000000000 := by decide +kernel
    -- The clock has passed both numbers when the next task is recorded.
    refine (failures_leave_no_trace.2 _ hreachable orphanTask hfailed).later laterSteps ?_
    rw [hbefore, hafter]
    refine countersMeet_of_lt ?_
    intro c now hmem hrecorded
    simp only [laterSteps, List.mem_cons, ServiceStep.call.injEq, reduceCtorEq, List.not_mem_nil,
      or_false, false_or] at hmem
    rcases hmem with rfl | rfl | rfl
    · exact absurd hrecorded (by simp [ServiceCall.recordedAt?, ServiceCall.call?, Call.isEnqueue])
    · obtain rfl : (⟨1700000102, 0⟩ : Instant) = now := Option.some.inj hrecorded
      decide
    · exact absurd hrecorded (by simp [ServiceCall.recordedAt?, ServiceCall.call?, Call.isEnqueue])

end ArithService
