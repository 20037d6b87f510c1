import Mathlib
import ArithService.Proofs.Database.Reading

/-!
# Leases on a database are honoured

A task that was handed out stays with its worker until the lease ends, if the lease ends in the
years 0 to 9999. A lease that ends in any other year is lost: its deadline is read back as the
earliest instant, and the next requeue takes the task back.

## Main Definitions

* `TaskRow.IsHeld` — a row that no requeue before a deadline changes
* `DatabaseStore.IsHonoured` — what a worker can rely on who was handed a task
* `DatabaseStore.IsForfeit` — what becomes of a lease that ends in another year

## Design Notes

Whether a lease has ended is decided on texts. Timestamps of years with a sign come before all
others, so a clock that is before the year 0 takes nothing back too early
(`Instant.IsPlain.not_text_le`), and for the same reason a deadline with a sign has always ended.

The argument follows one row: a step of the store leaves a held row as it is or completes it
(`Readable.held_run`), and a claim only hands out pending rows.
-/

namespace ArithService

/-- Whether a call takes back no leases at a deadline or later. -/
def Call.IsBefore (deadline : Instant) (c : Call) : Prop :=
  ∀ at_, c.requeueTime = some at_ → at_.IsProper ∧ deadline.atMost at_ = false

instance (deadline : Instant) (c : Call) : Decidable (c.IsBefore deadline) :=
  match h : c.requeueTime with
  | none => .isTrue (by simp [Call.IsBefore, h])
  | some at_ => decidable_of_iff (at_.IsProper ∧ deadline.atMost at_ = false)
      (by simp [Call.IsBefore, h])

/-- Only a claim that succeeds is answered with what it hands out. -/
theorem StoreAnswer.ok_of_ofResult_claimed {result : Except StoreError (Option Task)}
    {handed : Option Task} (h : ofResult .claimed result = .claimed handed) :
    result = .ok handed := by
  cases result with
  | ok value => rw [StoreAnswer.claimed.inj h]
  | error e => simp [ofResult] at h

/-! ### Rows -/

namespace TaskRow

variable {deadline : Instant} {q r : TaskRow}

/-- A row that is neither pending nor taken back by a requeue before a deadline. -/
structure IsHeld (deadline : Instant) (r : TaskRow) : Prop where
  status : r.status ≠ TaskStatus.pending.text
  lease : ∀ at_ : Instant, at_.IsProper → deadline.atMost at_ = false →
    r.hasEndedLease at_.text = false

/-- A row that was just handed out is held until its deadline, if that has a plain text. -/
theorem isHeld_claimed (hplain : deadline.IsPlain) (now : String) (r : TaskRow) :
    (r.claimed now deadline.text).IsHeld deadline where
  status := by simp [TaskRow.claimed, TaskStatus.text]
  lease at_ hproper hbefore := by
    have htext := hplain.not_text_le hproper hbefore
    simpa [TaskRow.hasEndedLease, TaskRow.claimed] using fun _ => not_le.1 htext

/-- A completed row is held for good: it is not pending and has no lease. -/
theorem isHeld_completed (now : String) (x : Binary64) (r : TaskRow) :
    (r.completed now x).IsHeld deadline where
  status := by simp [TaskRow.completed, TaskStatus.text]
  lease at_ _ _ := by simp [TaskRow.hasEndedLease, TaskRow.completed, TaskStatus.text]

end TaskRow

namespace DatabaseStore

variable {s later : DatabaseStore} {now deadline : Instant} {lease : Span} {t : Task}
  {q r : TaskRow} {c : Call}

/-! ### Claims -/

/-- The row behind a claim that hands out a task: after leases were taken back it was pending, and
it is there afterwards under its lease. So the argument can go on with this row. -/
theorem Readable.exists_claimed (h : Readable s)
    (hclaim : (s.claim now lease).1 = .ok (some t)) :
    ∃ deadline r, now.add? lease = some deadline ∧
      r ∈ (DatabaseStore.rows s.database).map (requeuedRow now) ∧
      r.status = TaskStatus.pending.text ∧ (r.claimed now.text deadline.text).task = t ∧
      r.claimed now.text deadline.text ∈ DatabaseStore.rows (s.claim now lease).2.database := by
  cases hdeadline : now.add? lease with
  | none => simp [DatabaseStore.claim, hdeadline] at hclaim
  | some deadline =>
    have hswept :
        Readable (s.withRows ((DatabaseStore.rows s.database).map (requeuedRow now))) := by
      simpa only [requeue_eq h.table h.triggers] using h.requeue now
    rw [h.inOrder.claim_eq hdeadline] at hclaim ⊢
    rw [handOutNext] at hclaim ⊢
    cases hnext : (DatabaseStore.rows (s.withRows
        ((DatabaseStore.rows s.database).map (requeuedRow now))).database).filter
          (isNext (s.withRows
            ((DatabaseStore.rows s.database).map (requeuedRow now))).database) with
    | nil => simp [hnext, changedAnswer] at hclaim
    | cons r rest =>
      have hr := List.mem_filter.1 (hnext ▸ List.mem_cons_self : r ∈ List.filter _ _)
      have htask := ((hswept.rows r hr.1).claimed now.text deadline.text).toTask_eq
      refine ⟨deadline, r, rfl, hr.1, status_of_isNext hr.2, ?_, ?_⟩
      · simpa [hnext, changedAnswer, htask] using hclaim
      · exact List.mem_map.2 ⟨r, hr.1, by rw [if_pos hr.2]⟩

/-! ### Held rows -/

/-- Taking back leases before a deadline leaves a held row as it is. -/
theorem requeuedRow_of_isHeld (hheld : r.IsHeld deadline) {at_ : Instant}
    (hproper : at_.IsProper) (hbefore : deadline.atMost at_ = false) : requeuedRow at_ r = r := by
  rw [requeuedRow, if_neg (by simp [hheld.lease at_ hproper hbefore])]

/-- A claim before the deadline leaves a held row as it is, and hands out another task: the row is
not pending, and no other row has its identifier. -/
theorem Readable.held_claim (h : Readable s) (hr : r ∈ DatabaseStore.rows s.database)
    (hheld : r.IsHeld deadline) (hbefore : (Call.mk now (.claim lease)).IsBefore deadline) :
    r ∈ DatabaseStore.rows (s.claim now lease).2.database ∧
      ∀ t, (s.claim now lease).1 = .ok (some t) → t.id ≠ r.task.id := by
  cases hend : now.add? lease with
  | none => simp [DatabaseStore.claim, hend, hr]
  | some ends =>
    obtain ⟨hproper, hearly⟩ := hbefore now (Call.requeueTime_of_deadline? hend)
    have hkept : r ∈ (DatabaseStore.rows s.database).map (requeuedRow now) :=
      List.mem_map.2 ⟨r, hr, requeuedRow_of_isHeld hheld hproper hearly⟩
    constructor
    · rw [h.inOrder.claim_eq hend]
      exact List.mem_map.2 ⟨r, hkept, if_neg fun hnext => hheld.status (status_of_isNext hnext)⟩
    · -- The row that is handed out was pending, and there is no other row for its task.
      intro t hclaim hsame
      obtain ⟨_, q, -, hq, hpending, rfl, -⟩ := h.exists_claimed hclaim
      have hswept : Readable (s.withRows
          ((DatabaseStore.rows s.database).map (requeuedRow now))) := by
        simpa only [requeue_eq h.table h.triggers] using h.requeue now
      obtain rfl : q = r := hswept.eq_of_id hq hkept hsame
      exact hheld.status hpending

/-- Recording a task keeps all rows. -/
theorem Readable.mem_enqueue (h : Readable s) (hr : r ∈ DatabaseStore.rows s.database)
    (now : Instant) (owner : Int) (expression : String) (work : Work) :
    r ∈ DatabaseStore.rows (s.enqueue now owner expression work).2.database := by
  rcases h.enqueue_cases now owner expression work with ⟨e, hrefused⟩ | ⟨number, hadded, -⟩
  · rw [hrefused]
    exact hr
  · rw [hadded]
    exact List.mem_append_left _ hr

/-- Registering a login changes no row. -/
theorem rows_createUser (h : InOrder s) (login passwordHash : String) :
    DatabaseStore.rows (s.createUser login passwordHash).2.database =
      DatabaseStore.rows s.database := by
  simp only [DatabaseStore.createUser, Database.insertUser, h.triggered_eq]
  cases s.database.users with
  | none => rfl
  | some table =>
    cases table with
    | loose users => rfl
    | numbered lastId users =>
      dsimp only
      split_ifs <;> rfl

/-- **One call before the deadline leaves a held row as it is, or completes it**, and does not hand
out its task. Both kinds of rows are held again, which is what the induction needs. -/
theorem Readable.held_run (h : Readable s) (hr : r ∈ DatabaseStore.rows s.database)
    (hheld : r.IsHeld deadline) (hbefore : c.IsBefore deadline) :
    ¬ (c.run s).1.HandsOut r.task.id ∧
      (r ∈ DatabaseStore.rows (c.run s).2.database ∨
        ∃ x, c.command = .complete r.task.id x ∧
          r.completed c.now.text x ∈ DatabaseStore.rows (c.run s).2.database) := by
  have hother : (∀ lease, c.command ≠ .claim lease) → ¬ (c.run s).1.HandsOut r.task.id := by
    rintro hcommand ⟨t, hanswer, -⟩
    exact Call.run_ne_claimed hcommand s _ hanswer
  obtain ⟨now, command⟩ := c
  cases command with
  | enqueue owner expression work =>
    exact ⟨hother (by simp), .inl (h.mem_enqueue hr now owner expression work)⟩
  | claim lease =>
    obtain ⟨hkept, hid⟩ := h.held_claim hr hheld hbefore
    refine ⟨?_, .inl hkept⟩
    rintro ⟨t, hanswer, hsame⟩
    exact hid t (StoreAnswer.ok_of_ofResult_claimed hanswer) hsame
  | complete id x =>
    refine ⟨hother (by simp), ?_⟩
    have hafter : (Call.run ⟨now, .complete id x⟩ s).2 =
        s.withRows ((DatabaseStore.rows s.database).map fun r =>
          if r.id = some id then r.completed now.text x else r) :=
      congrArg Prod.snd (h.inOrder.complete_eq now id x)
    rw [hafter]
    by_cases hid : r.id = some id
    · right
      have htask : r.task.id = id := Option.some.inj ((h.rows r hr).id_eq.symm.trans hid)
      exact ⟨x, by rw [htask], List.mem_map.2 ⟨r, hr, if_pos hid⟩⟩
    · exact .inl (List.mem_map.2 ⟨r, hr, if_neg hid⟩)
  | requeue at_ =>
    obtain ⟨hproper, hearly⟩ := hbefore at_ rfl
    refine ⟨hother (by simp), .inl ?_⟩
    show r ∈ DatabaseStore.rows (s.requeue at_).2.database
    rw [requeue_eq h.table h.triggers]
    exact List.mem_map.2 ⟨r, hr, requeuedRow_of_isHeld hheld hproper hearly⟩
  | createUser login passwordHash =>
    refine ⟨hother (by simp), .inl ?_⟩
    show r ∈ DatabaseStore.rows (s.createUser login passwordHash).2.database
    rwa [rows_createUser h.inOrder]
  | get _ => exact ⟨hother (by simp), .inl hr⟩
  | list _ => exact ⟨hother (by simp), .inl hr⟩
  | findUser _ => exact ⟨hother (by simp), .inl hr⟩

/-! ### Histories -/

/-- The calls of a history that come before a deadline. -/
def StepsBefore (deadline : Instant) (steps : List DatabaseStep) : Prop :=
  ∀ c ∈ steps.filterMap DatabaseStep.call?, c.IsBefore deadline

/-- **Until the deadline a held row stays as it is, or is completed**, through any calls and
restarts. A restart opens the same tables, so it is no step for rows. -/
theorem Readable.held_history (h : Readable s) (hr : r ∈ DatabaseStore.rows s.database)
    (hheld : r.IsHeld deadline) {steps : List DatabaseStep} {ids : List String}
    (hhistory : s.history steps = .ok (ids, later)) (hbefore : StepsBefore deadline steps) :
    ∃ q ∈ DatabaseStore.rows later.database, q.task.id = r.task.id ∧ q.IsHeld deadline ∧
      (q = r ∨ q.task.status = .completed ∧
        ∃ c ∈ steps.filterMap DatabaseStep.call?, ∃ x, c.command = .complete r.task.id x) := by
  induction steps generalizing s r ids with
  | nil =>
    obtain ⟨-, rfl⟩ := Prod.mk.inj (Except.ok.inj hhistory)
    exact ⟨r, hr, rfl, hheld, .inl rfl⟩
  | cons step rest ih =>
    cases step with
    | reopen =>
      obtain ⟨opened, hopen, hrest⟩ := history_reopen hhistory
      rw [← h.database_reopen hopen] at hr
      exact ih (h.reopen hopen) hr hheld hrest hbefore
    | call c =>
      obtain ⟨more, hrest⟩ := history_call hhistory
      have hfirst : c.IsBefore deadline := hbefore c (by simp [DatabaseStep.call?])
      have hlater : StepsBefore deadline rest := by
        intro d hd
        refine hbefore d ?_
        rw [List.filterMap_cons]
        exact List.mem_cons_of_mem _ hd
      rcases (h.held_run hr hheld hfirst).2 with hkept | ⟨x, hcommand, hdone⟩
      · obtain ⟨q, hq, hid, hstill, hsame | ⟨hstatus, d, hd, hcomplete⟩⟩ :=
          ih (h.run c) hkept hheld hrest hlater
        · exact ⟨q, hq, hid, hstill, .inl hsame⟩
        · refine ⟨q, hq, hid, hstill, .inr ⟨hstatus, d, ?_, hcomplete⟩⟩
          rw [List.filterMap_cons]
          exact List.mem_cons_of_mem _ hd
      · -- From here on the row in question is the completed one.
        obtain ⟨q, hq, hid, hstill, hend⟩ :=
          ih (h.run c) hdone (TaskRow.isHeld_completed _ _ _) hrest hlater
        refine ⟨q, hq, hid, hstill, .inr ⟨?_, c, by simp [DatabaseStep.call?], x, hcommand⟩⟩
        rcases hend with rfl | ⟨hstatus, -⟩
        · simp [TaskRow.task, TaskRow.completed, TaskStatus.completed.isZeroFree_text.textRead]
        · exact hstatus

/-! ### Leases -/

/-- What a worker can rely on who was handed a task, until the deadline. -/
structure IsHonoured (deadline : Instant) (t : Task) (s : DatabaseStore) : Prop where
  /-- The task is read back as it was handed out. -/
  read : Store.get t.id s = .ok t
  /-- Whatever is called before the deadline, and however often the store is opened again, the task
  stays as it was handed out, or has got a result. -/
  kept : ∀ steps ids later, s.history steps = .ok (ids, later) → StepsBefore deadline steps →
    ∃ u, Store.get t.id later = .ok u ∧ (u = t ∨ u.status = .completed ∧
      ∃ c ∈ steps.filterMap DatabaseStep.call?, ∃ x, c.command = .complete t.id x)
  /-- Nobody else is handed the task before the deadline. -/
  exclusive : ∀ steps ids later, s.history steps = .ok (ids, later) → StepsBefore deadline steps →
    ∀ c : Call, c.IsBefore deadline → ¬ (c.run later).1.HandsOut t.id

/-- What becomes of a lease that ends in a year with a sign. -/
structure IsForfeit (t : Task) (s : DatabaseStore) : Prop where
  read : Store.get t.id s = .ok t
  lease : t.leaseExpiresAt = some .earliest
  /-- A requeue at any plain instant takes the task back. -/
  released : ∀ at_ : Instant, at_.IsPlain →
    Store.get t.id (s.requeue at_).2 = .ok (MemoryStore.released t)

/-- A task in a held row is the worker's until the deadline. -/
theorem Readable.isHonoured (h : Readable s) (hr : r ∈ DatabaseStore.rows s.database)
    (hheld : r.IsHeld deadline) : IsHonoured deadline r.task s where
  read := h.get_task hr
  kept steps ids later hhistory hbefore := by
    obtain ⟨q, hq, hid, -, hend⟩ := h.held_history hr hheld hhistory hbefore
    refine ⟨q.task, by rw [← hid]; exact (h.history hhistory).get_task hq, ?_⟩
    rcases hend with rfl | hdone
    · exact .inl rfl
    · exact .inr hdone
  exclusive steps ids later hhistory hbefore c hnow := by
    obtain ⟨q, hq, hid, hstill, -⟩ := h.held_history hr hheld hhistory hbefore
    rw [← hid]
    exact ((h.history hhistory).held_run hq hstill hnow).1

/-- A task under a lease that ends in another year is taken back by whatever requeue comes next: the
text of its deadline is before all plain ones. -/
theorem Readable.isForfeit (h : Readable s)
    (hr : r.claimed now.text deadline.text ∈ DatabaseStore.rows s.database)
    (hyear : ¬ deadline.HasPlainYear) : IsForfeit (r.claimed now.text deadline.text).task s where
  read := h.get_task hr
  lease := congrArg some (Instant.timeRead_text_of_year hyear)
  released at_ hplain := by
    have hended : (r.claimed now.text deadline.text).hasEndedLease at_.text = true := by
      have htext := (Instant.text_lt_text_of_year hyear hplain).le
      simpa [TaskRow.hasEndedLease, TaskRow.claimed, TaskStatus.text] using htext
    have hreleased : (r.claimed now.text deadline.text).released ∈
        DatabaseStore.rows (s.requeue at_).2.database := by
      rw [requeue_eq h.table h.triggers]
      exact List.mem_map.2 ⟨_, hr, if_pos hended⟩
    rw [← TaskRow.task_released]
    exact (h.requeue at_).get_task hreleased

/-- **Leases that end in the years 0 to 9999 are honoured.** In every state that a store on a
database can get into, a task that is handed out shows when it was started and until when its
lease runs, is read back so, and is neither taken back nor handed out again before the deadline.
A lease that ends in another year is lost with the next requeue. -/
theorem leases_are_honoured (h : s.IsReachable) (hnow : now.IsProper)
    (hclaim : (s.claim now lease).1 = .ok (some t)) :
    ∃ deadline, now.add? lease = some deadline ∧
      (now.HasPlainYear → t.startedAt = some now) ∧
      (deadline.HasPlainYear → t.leaseExpiresAt = some deadline ∧
        IsHonoured deadline t (s.claim now lease).2) ∧
      (¬ deadline.HasPlainYear → IsForfeit t (s.claim now lease).2) := by
  have hreadable := h.readable
  obtain ⟨deadline, r, hdeadline, -, -, rfl, hrow⟩ := hreadable.exists_claimed hclaim
  have hafter := hreadable.claim now lease
  refine ⟨deadline, hdeadline, fun hyear => ?_, fun hyear => ?_, fun hyear => ?_⟩
  · exact congrArg some (hnow.isPlain hyear).timeRead_text
  · have hplain : deadline.IsPlain := (hnow.of_add? hdeadline).isPlain hyear
    refine ⟨congrArg some hplain.timeRead_text, ?_⟩
    exact hafter.isHonoured hrow (TaskRow.isHeld_claimed hplain now.text r)
  · exact hafter.isForfeit hrow hyear

/-- A task that is claimed for a minute is the worker's for this minute. -/
theorem leases_are_honoured_minute :
    IsReachable (runCalls empty oneTask) ∧ (⟨1700000002, 0⟩ : Instant).IsProper ∧
      ((runCalls empty oneTask).claim ⟨1700000002, 0⟩ (.ofSeconds 60)).1 =
        .ok (some (claimedTask 1700000002)) ∧
      IsHonoured ⟨1700000062, 0⟩ (claimedTask 1700000002)
        ((runCalls empty oneTask).claim ⟨1700000002, 0⟩ (.ofSeconds 60)).2 := by
  have hreachable : IsReachable (runCalls empty oneTask) := isReachable_runCalls oneTask
  have hnow : (⟨1700000002, 0⟩ : Instant).IsProper := by decide
  have hclaim : ((runCalls empty oneTask).claim ⟨1700000002, 0⟩ (.ofSeconds 60)).1 =
      .ok (some (claimedTask 1700000002)) := by decide +kernel
  obtain ⟨deadline, hdeadline, -, hhonoured, -⟩ := leases_are_honoured hreachable hnow hclaim
  obtain rfl : (⟨1700000062, 0⟩ : Instant) = deadline := by
    have hadd : (⟨1700000002, 0⟩ : Instant).add? (.ofSeconds 60) = some ⟨1700000062, 0⟩ := by
      decide
    exact Option.some.inj (hadd.symm.trans hdeadline)
  have hyear : (⟨1700000062, 0⟩ : Instant).HasPlainYear :=
    Instant.hasPlainYear_of_seconds (by decide) (by decide)
  exact ⟨hreachable, hnow, hclaim, (hhonoured hyear).2⟩

/-- The task as it is shown to a worker who claims it for 300 thousand million seconds: its lease
would end in the year 11530. -/
def overlongTask : Task :=
  { claimedTask 1700000002 with leaseExpiresAt := some .earliest }

/-- A lease that ends in the year 11530 is granted, but not shown, and is taken back while it
runs, both by a requeue and by another claim at the same instant. -/
theorem overlong_lease_is_lost :
    IsReachable (runCalls empty oneTask) ∧
      (⟨1700000002, 0⟩ : Instant).add? (.ofSeconds 300000000000) = some ⟨301700000002, 0⟩ ∧
      ((runCalls empty oneTask).claim ⟨1700000002, 0⟩ (.ofSeconds 300000000000)).1 =
        .ok (some overlongTask) ∧
      overlongTask.leaseExpiresAt ≠ some ⟨301700000002, 0⟩ ∧
      (⟨301700000002, 0⟩ : Instant).atMost ⟨1700000002, 0⟩ = false ∧
      (((runCalls empty oneTask).claim ⟨1700000002, 0⟩ (.ofSeconds 300000000000)).2.requeue
        ⟨1700000002, 0⟩).1 = .ok 1 ∧
      (((runCalls empty oneTask).claim ⟨1700000002, 0⟩ (.ofSeconds 300000000000)).2.claim
        ⟨1700000002, 0⟩ (.ofSeconds 60)).1 = .ok (some (claimedTask 1700000002)) := by
  refine ⟨isReachable_runCalls oneTask, ?_, ?_, ?_, ?_, ?_, ?_⟩
  · decide
  · decide +kernel
  · decide
  · decide
  · decide +kernel
  · decide +kernel

end DatabaseStore

end ArithService
