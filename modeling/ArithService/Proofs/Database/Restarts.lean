import Mathlib
import ArithService.Proofs.Database.Store
import ArithService.Proofs.Store.Creation
import ArithService.Proofs.Store.Exclusive

/-!
# Identifiers tell the order of creation, also across restarts

A store on a database that is closed and opened again goes on after the greatest identifier in
its tables. So identifiers grow over the whole life of the database, whatever the clock does
between two openings.

## Main Definitions

* `DatabaseStep`, `DatabaseStore.history` — calls, and closing and opening again
* `DatabaseStore.TellsCreation` — what the tables say about the identifiers given out

## Design Notes

The number of the latest task is not stored, and numbers that were used up by refused tasks are
forgotten when the store is closed. The invariant therefore carries some number that is at least
the greatest stored one; opening replaces it by just that one (`Sound.reopened`).
-/

namespace ArithService

/-- A step in the life of a database. -/
inductive DatabaseStep where
  | call (c : Call)
  /-- The store is closed, and the database is opened again. -/
  | reopen
deriving DecidableEq, Repr

/-- The calls among steps. -/
def DatabaseStep.call? : DatabaseStep → Option Call
  | call c => some c
  | reopen => none

/-! ### The greatest identifier -/

/-- Of texts that grow the last one is the greatest: a search that prefers greater texts ends
there. -/
theorem foldl_newest {prefer : Option String → String → Option String}
    (hfirst : ∀ id, prefer none id = some id)
    (hgreater : ∀ newest id, newest < id → prefer (some newest) id = some id)
    {ids : List String} (hids : ids.Pairwise (· < ·)) :
    ids.foldl prefer none = ids.getLast? := by
  induction ids using List.reverseRecOn with
  | nil => rfl
  | append_singleton ids id ih =>
    obtain ⟨hbefore, -, hlast⟩ := List.pairwise_append.1 hids
    rw [List.foldl_append, ih hbefore, List.getLast?_concat]
    cases hnewest : ids.getLast? with
    | none => exact hfirst id
    | some newest =>
      have hlt : newest < id := hlast newest (List.mem_of_getLast? hnewest) id (by simp)
      exact hgreater newest id hlt

namespace Database

/-- The greatest identifier is the last one, where they grow and can be read back. Within the bounds
of the clock they do, as texts of one length; elsewhere the search may end at another one. -/
theorem newestId_eq {db : Database} {rows : List TaskRow} {ids : List String}
    (htasks : db.tasks = .table TaskColumn.all rows) (hrows : rows.map (·.id) = ids.map some)
    (hids : ids.Pairwise (· < ·)) (hread : ∀ id ∈ ids, textRead id = id) :
    db.newestId = .ok ids.getLast? := by
  have hstored : rows.filterMap (·.id) = ids := by
    have hgiven : (rows.map (·.id)).filterMap id = (ids.map some).filterMap id := by rw [hrows]
    simpa [List.filterMap_map] using hgiven
  simp only [newestId, readTasks_eq htasks, hstored]
  rw [foldl_newest (fun _ => rfl) (fun newest id hlt => if_pos hlt) hids]
  cases hlast : ids.getLast? with
  | none => rfl
  | some id => rw [Option.map_some, hread id (List.mem_of_getLast? hlast)]

end Database

namespace DatabaseStore

/-! ### Histories -/

/-- The identifiers given out in a sequence of steps, in order, and the store afterwards. -/
def history (s : DatabaseStore) :
    List DatabaseStep → Except StoreError (List String × DatabaseStore)
  | [] => .ok ([], s)
  | .call c :: rest => do
    let (ids, last) ← history (c.run s).2 rest
    return ((c.run s).1.newId?.toList ++ ids, last)
  | .reopen :: rest => do
    let s ← (open_ s.database).1
    history s rest

/-- A history that starts with a call is that call and a history after it. The identifier that it
gives out is left aside, as invariants are not about it. -/
theorem history_call {s later : DatabaseStore} {c : Call} {steps : List DatabaseStep}
    {ids : List String} (hhistory : s.history (.call c :: steps) = .ok (ids, later)) :
    ∃ more, (c.run s).2.history steps = .ok (more, later) := by
  rw [DatabaseStore.history] at hhistory
  cases hrest : (c.run s).2.history steps with
  | error e => simp [hrest, bind, Except.bind] at hhistory
  | ok result =>
    obtain ⟨more, final⟩ := result
    simp only [hrest, bind, Except.bind, pure, Except.pure, Except.ok.injEq,
      Prod.mk.injEq] at hhistory
    exact ⟨more, by rw [hhistory.2]⟩

/-- A history that starts with a restart opens the same tables and goes on there. -/
theorem history_reopen {s later : DatabaseStore} {steps : List DatabaseStep}
    {ids : List String} (hhistory : s.history (.reopen :: steps) = .ok (ids, later)) :
    ∃ opened, (open_ s.database).1 = .ok opened ∧ opened.history steps = .ok (ids, later) := by
  rw [DatabaseStore.history] at hhistory
  cases hopen : (open_ s.database).1 with
  | error e => simp [hopen, bind, Except.bind] at hhistory
  | ok opened => exact ⟨opened, rfl, by simpa [hopen, bind, Except.bind] using hhistory⟩

/-- **What every call and every restart keeps, a whole history keeps.** An invariant of databases is
therefore shown for one call and for one restart only. -/
theorem history_induction {Kept : DatabaseStore → Prop}
    (hcall : ∀ {s : DatabaseStore}, Kept s → ∀ c : Call, Kept (c.run s).2)
    (hreopen : ∀ {s opened : DatabaseStore}, Kept s → (open_ s.database).1 = .ok opened →
      Kept opened)
    {s later : DatabaseStore} {steps : List DatabaseStep} {ids : List String} (hkept : Kept s)
    (hhistory : s.history steps = .ok (ids, later)) : Kept later := by
  induction steps generalizing s ids with
  | nil =>
    obtain ⟨-, rfl⟩ := Prod.mk.inj (Except.ok.inj hhistory)
    exact hkept
  | cons step rest ih =>
    cases step with
    | call c =>
      obtain ⟨more, hrest⟩ := history_call hhistory
      exact ih (hcall hkept c) hrest
    | reopen =>
      obtain ⟨opened, hopen, hrest⟩ := history_reopen hhistory
      exact ih (hreopen hkept hopen) hrest

/-- What the tables say about the identifiers given out so far, in order. -/
structure TellsCreation (ids : List String) (s : DatabaseStore) : Prop where
  /-- The tables hold just these identifiers. -/
  rows : (rows s.database).map (·.id) = ids.map some
  /-- The stored times of creation are in the order of the identifiers. -/
  texts : ∀ q ∈ DatabaseStore.rows s.database, ∀ r ∈ DatabaseStore.rows s.database,
    q.createdAt < r.createdAt ↔ TaskRow.idBefore q.id r.id = true
  /-- The greatest identifier is the latest one. -/
  newest : s.database.newestId = .ok ids.getLast?
  /-- Opening the database goes on after the latest identifier. -/
  reopened : open_ s.database =
    (.ok { s with lastNumber := ArithService.lastNumber ids.getLast? }, s.database)
  /-- A task of a known owner is recorded, under an identifier greater than all others. -/
  records : ∀ now owner expression work, now.IsClockReading →
    s.database.isUser owner = .ok true →
    ∃ id, (s.enqueue now owner expression work).1 = .ok id ∧ ∀ a ∈ ids, a < id

variable {last : Int} {s : DatabaseStore} {ids : List String}

/-- The identifiers in the rows are those of the tasks, and so those that were given out. -/
theorem Sound.rows_map_id (h : Sound last s) (hids : CreatedUnder ids s.tasks) :
    (DatabaseStore.rows s.database).map (·.id) = ids.map some := by
  rw [← hids.ids, tasks, List.map_map, List.map_map]
  exact List.map_congr_left fun r hr => (h.rows r hr).id_eq

theorem Sound.pairwise_ids (h : Sound last s) (hids : CreatedUnder ids s.tasks) :
    ids.Pairwise (· < ·) := by
  rw [← hids.ids]
  exact List.pairwise_map.2 h.sorted

/-- So the greatest identifier of a sound store is the latest one. -/
theorem Sound.newestId_eq (h : Sound last s) (hids : CreatedUnder ids s.tasks) :
    s.database.newestId = .ok ids.getLast? := by
  refine Database.newestId_eq h.table (h.rows_map_id hids) (h.pairwise_ids hids) fun id hid => ?_
  obtain ⟨n, -, rfl⟩ := hids.exists_number hid
  exact (isZeroFree_taskId n).textRead

/-- Opening the database of a sound store changes nothing but the number that it goes on from. -/
theorem Sound.open_eq (h : Sound last s) (hids : CreatedUnder ids s.tasks) :
    open_ s.database =
      (.ok { s with lastNumber := ArithService.lastNumber ids.getLast? }, s.database) := by
  simp only [open_, Database.upgrade_eq h.migrations, h.newestId_eq hids]

/-- The greatest stored number is at most the latest one, and bounds all stored numbers. It may be
less, if the latest one was used up by a task that was refused. -/
theorem Sound.lastNumber_le (h : Sound last s) (hids : CreatedUnder ids s.tasks) :
    0 ≤ ArithService.lastNumber ids.getLast? ∧ ArithService.lastNumber ids.getLast? ≤ last ∧
      ∀ r ∈ DatabaseStore.rows s.database, r.IsSound (ArithService.lastNumber ids.getLast?) := by
  have hstored : ∀ r ∈ DatabaseStore.rows s.database, r.task.id ∈ ids := fun r hr => by
    rw [← hids.ids]
    exact List.mem_map_of_mem (List.mem_map_of_mem hr)
  cases hlast : ids.getLast? with
  | none =>
    rw [List.getLast?_eq_none_iff] at hlast
    refine ⟨le_rfl, h.number_nonneg, fun r hr => absurd (hstored r hr) ?_⟩
    simp [hlast]
  | some newest =>
    obtain ⟨before, hsplit⟩ := List.getLast?_eq_some_iff.1 hlast
    have hnewest : newest ∈ s.tasks.map (·.id) := by
      rw [hids.ids]
      exact List.mem_of_getLast? hlast
    -- The latest task has a row, and the row has a number.
    obtain ⟨t, ht, hid⟩ := List.mem_map.1 hnewest
    obtain ⟨r, hr, rfl⟩ := List.mem_map.1 ht
    obtain ⟨n, hrow, hnumber, hle, -⟩ := (h.rows r hr).number
    have htask : newest = taskId n := by
      rw [(h.rows r hr).id_eq, Option.some.injEq] at hrow
      rw [← hid, hrow]
    have hread : ArithService.lastNumber (some newest) = n := by
      rw [ArithService.lastNumber, htask]
      simp [taskNumber_taskId hnumber.isInt64]
    rw [hread]
    refine ⟨by have := hnumber.1; omega, hle, fun q hq => ?_⟩
    obtain ⟨m, hqRow, hqNumber, -, hqCreated⟩ := (h.rows q hq).number
    refine ⟨⟨m, hqRow, hqNumber, ?_, hqCreated⟩, (h.rows q hq).status, (h.rows q hq).lease⟩
    have hqTask : q.task.id = taskId m := by
      rw [(h.rows q hq).id_eq, Option.some.injEq] at hqRow
      exact hqRow
    -- Every identifier is the latest one or comes before it.
    have horder := h.pairwise_ids hids
    have hmem := hstored q hq
    rw [hsplit] at horder hmem
    rcases List.mem_append.1 hmem with hbefore | hsame
    · have hlt := (List.pairwise_append.1 horder).2.2 _ hbefore newest (by simp)
      rw [hqTask, htask, taskId_lt_iff hqNumber hnumber] at hlt
      exact hlt.le
    · rw [List.mem_singleton.1 hsame, htask] at hqTask
      exact ((taskId_inj hnumber.isInt64 hqNumber.isInt64).1 hqTask).ge

/-- The store that is opened again is sound, with the greatest stored number. A number that was used
up in vain may be given out again then, which no table tells. -/
theorem Sound.reopened (h : Sound last s) (hids : CreatedUnder ids s.tasks) :
    Sound (ArithService.lastNumber ids.getLast?)
      { s with lastNumber := ArithService.lastNumber ids.getLast? } where
  number := rfl
  number_nonneg := (h.lastNumber_le hids).1
  users := h.users
  triggers := h.triggers
  migrations := h.migrations
  table := h.table
  rows := (h.lastNumber_le hids).2.2
  sorted := h.sorted

/-- A call appends the identifier that it gives out. -/
theorem Sound.createdUnder_run (h : Sound last s) (hids : CreatedUnder ids s.tasks) {c : Call}
    (hnow : c.now.IsPlain) (hfits : c.NumberFits last) :
    CreatedUnder (ids ++ (c.run s).1.newId?.toList) (c.run s).2.tasks := by
  by_cases henqueue : c.isEnqueue = true
  · obtain ⟨now, command⟩ := c
    cases command with
    | enqueue owner expression work =>
      have hrun : Call.run ⟨now, .enqueue owner expression work⟩ s =
          (.ofResult .taskId (s.enqueue now owner expression work).1,
            (s.enqueue now owner expression work).2) := rfl
      obtain ⟨lastId, users, husers⟩ := h.users
      by_cases howner : users.any (·.id = owner) = true
      · obtain ⟨hanswer, htasks, -⟩ := h.enqueue_known (hfits rfl) husers howner expression work
        rw [hrun, hanswer, htasks]
        exact hids.record (hfits rfl) rfl rfl
      · rw [hrun, h.enqueue_eq (hfits rfl) husers, if_neg howner]
        simp only [StoreAnswer.ofResult, StoreAnswer.newId?, Option.toList_none, List.append_nil]
        exact hids
    | _ => simp [Call.isEnqueue] at henqueue
  · rw [Call.newId?_run (by simpa using henqueue), Option.toList_none, List.append_nil]
    obtain ⟨now, command⟩ := c
    cases command with
    | enqueue _ _ _ => exact absurd rfl henqueue
    | claim lease =>
      show CreatedUnder ids (s.claim now lease).2.tasks
      have hswept : CreatedUnder ids (s.requeue now).2.tasks := hids.requeue (h.requeuedAs now)
      cases hdeadline : now.add? lease with
      | none =>
        simp only [DatabaseStore.claim, hdeadline]
        exact hids
      | some deadline =>
        cases holdest : (s.requeue now).2.tasks.find? (·.status = .pending) with
        | none =>
          rw [h.claim_none hdeadline holdest]
          exact hswept
        | some oldest =>
          rw [(h.claim_some hnow hdeadline holdest).2.1]
          exact hswept.updateTask _ (fun _ => rfl) fun _ => rfl
    | complete id x =>
      show CreatedUnder ids (s.complete now id x).2.tasks
      by_cases hfound : ∃ t ∈ s.tasks, t.id = id
      · rw [(h.complete_found hnow x hfound).2.1]
        exact hids.updateTask _ (fun _ => rfl) fun _ => rfl
      · rw [h.complete_missing now x fun t ht hid => hfound ⟨t, ht, hid⟩]
        exact hids
    | requeue at_ => exact hids.requeue (h.requeuedAs at_)
    | createUser login passwordHash =>
      show CreatedUnder ids (s.createUser login passwordHash).2.tasks
      rw [(h.createUser login passwordHash).2]
      exact hids
    | get _ => exact hids
    | list _ => exact hids
    | findUser _ => exact hids

/-- The state of a database after some tasks were recorded within the bounds of the clock. -/
def Holds (ids : List String) (used : Nat) (s : DatabaseStore) : Prop :=
  ∃ last, Sound last s ∧ HasRoom last used ∧ CreatedUnder ids s.tasks

theorem holds_empty : Holds [] 0 empty := by
  have htasks : empty.tasks = [] := rfl
  exact ⟨0, sound_empty, hasRoom_zero, htasks ▸ .nil⟩

/-- One call within the bounds leaves room for one task fewer, at most. -/
theorem Holds.run {used : Nat} (h : Holds ids used s) {c : Call} (hnow : c.now.IsClockReading)
    (hused : c.isEnqueue = true → used < 10 ^ 16) :
    Holds (ids ++ (c.run s).1.newId?.toList) (if c.isEnqueue then used + 1 else used)
      (c.run s).2 := by
  obtain ⟨last, hsound, hroom, hids⟩ := h
  have hfits : c.NumberFits last := hroom.numberFits hused hnow
  exact ⟨_, hsound.run hnow.isPlain hfits, hroom.call hnow hfits,
    hsound.createdUnder_run hids hnow.isPlain hfits⟩

/-- A restart neither fails nor uses up a number. -/
theorem Holds.reopen {used : Nat} (h : Holds ids used s) :
    ∃ reopened, (open_ s.database).1 = .ok reopened ∧ Holds ids used reopened := by
  obtain ⟨last, hsound, hroom, hids⟩ := h
  obtain ⟨hnonneg, hle, -⟩ := hsound.lastNumber_le hids
  exact ⟨_, by rw [hsound.open_eq hids], _, hsound.reopened hids, ⟨hnonneg, hle.trans hroom.bound⟩,
    hids⟩

/-- Every history within the bounds can be carried out, and appends the identifiers that it gives
out. That it can be is part of what is proved: opening a database might fail. -/
theorem Holds.history {steps : List DatabaseStep} {used : Nat} (h : Holds ids used s)
    (hcount : used + (steps.filterMap DatabaseStep.call?).countP Call.isEnqueue < 10 ^ 16)
    (hclock : ∀ c ∈ steps.filterMap DatabaseStep.call?, c.now.IsClockReading) :
    ∃ more final, s.history steps = .ok (more, final) ∧
      Holds (ids ++ more)
        (used + (steps.filterMap DatabaseStep.call?).countP Call.isEnqueue) final := by
  induction steps generalizing ids used s with
  | nil => exact ⟨[], s, rfl, by simpa using h⟩
  | cons step rest ih =>
    cases step with
    | reopen =>
      obtain ⟨reopened, hopen, hholds⟩ := h.reopen
      obtain ⟨more, final, hrest, hfinal⟩ := ih hholds hcount hclock
      refine ⟨more, final, ?_, hfinal⟩
      rw [DatabaseStore.history, hopen]
      exact hrest
    | call c =>
      have hcalls : (DatabaseStep.call c :: rest).filterMap DatabaseStep.call? =
          c :: rest.filterMap DatabaseStep.call? := rfl
      rw [hcalls, List.countP_cons] at hcount
      rw [hcalls] at hclock
      have hused : c.isEnqueue = true → used < 10 ^ 16 := by
        intro henqueue
        rw [if_pos henqueue] at hcount
        omega
      have htotal : (if c.isEnqueue then used + 1 else used) +
          (rest.filterMap DatabaseStep.call?).countP Call.isEnqueue =
          used + (c :: rest.filterMap DatabaseStep.call?).countP Call.isEnqueue := by
        rw [List.countP_cons]
        split_ifs <;> omega
      obtain ⟨more, final, hrest, hfinal⟩ := ih (h.run (hclock c (by simp)) hused)
        (by rwa [htotal, List.countP_cons]) fun d hd => hclock d (by simp [hd])
      refine ⟨(c.run s).1.newId?.toList ++ more, final, ?_, ?_⟩
      · rw [DatabaseStore.history, hrest]
        rfl
      · rwa [htotal, List.append_assoc] at hfinal

/-- Where there is room for another task, the tables tell the order of creation. -/
theorem Holds.tellsCreation {used : Nat} (h : Holds ids used s) (hused : used < 10 ^ 16) :
    CreationOrder ids s ∧ TellsCreation ids s := by
  obtain ⟨last, hsound, hroom, hids⟩ := h
  refine ⟨hids.creationOrder hsound.sorted hsound.task?_eq, hsound.rows_map_id hids,
    fun q hq r hr => ?_, hsound.newestId_eq hids, hsound.open_eq hids,
    fun now owner expression work hnow howner => ?_⟩
  · obtain ⟨m, hqId, hm, -, hqCreated⟩ := (hsound.rows q hq).number
    obtain ⟨n, hrId, hn, -, hrCreated⟩ := (hsound.rows r hr).number
    rw [hqCreated, hrCreated, hqId, hrId,
      Instant.text_ofNanoseconds_lt_iff (Instant.isPlain_ofNanoseconds hm.isInt64)
        (Instant.isPlain_ofNanoseconds hn.isInt64)]
    simp [TaskRow.idBefore, taskId_lt_iff hm hn]
  · obtain ⟨lastId, users, husers⟩ := hsound.users
    have hknown : users.any (·.id = owner) = true := by
      simpa [Database.isUser, husers] using howner
    have hdue : IsTaskNumber (numberDue last now) :=
      hroom.numberFits (c := ⟨now, .enqueue owner expression work⟩) (fun _ => hused) hnow rfl
    refine ⟨_, (hsound.enqueue_known hdue husers hknown expression work).1, fun a ha => ?_⟩
    rw [← hids.ids] at ha
    obtain ⟨t, ht, rfl⟩ := List.mem_map.1 ha
    exact hsound.id_lt hdue ht

end DatabaseStore

/-! ### Both stores -/

/-- **Identifiers tell the order of creation.** Within the bounds of the clock and with fewer
than 10^16 tasks, every run in memory and every history of a database from the empty one on,
with any number of restarts, gives out identifiers that grow, and the tasks under them were
created in this order. -/
theorem ids_tell_creation {steps : List DatabaseStep}
    (hcount : (steps.filterMap DatabaseStep.call?).countP Call.isEnqueue < 10 ^ 16)
    (hclock : ∀ c ∈ steps.filterMap DatabaseStep.call?, c.now.IsClockReading) :
    (CreationOrder (newIds MemoryStore.empty (steps.filterMap DatabaseStep.call?))
        (runCalls MemoryStore.empty (steps.filterMap DatabaseStep.call?)) ∧
      (runCalls MemoryStore.empty (steps.filterMap DatabaseStep.call?)).tasks.map (·.id) =
        newIds MemoryStore.empty (steps.filterMap DatabaseStep.call?) ∧
      (newIds MemoryStore.empty (steps.filterMap DatabaseStep.call?)).length =
        (steps.filterMap DatabaseStep.call?).countP Call.isEnqueue) ∧
    ∃ ids s, DatabaseStore.empty.history steps = .ok (ids, s) ∧ CreationOrder ids s ∧
      s.TellsCreation ids := by
  constructor
  · have hnone : CreatedUnder [] MemoryStore.empty.tasks := .nil
    have hfit := numbersFit_zero hcount hclock
    obtain ⟨hsound, hids⟩ := MemoryStore.sound_empty.createdUnder_runCalls hnone hfit
    exact ⟨hids.creationOrder hsound.sorted fun id => MemoryStore.task?_eq id _, hids.ids,
      MemoryStore.sound_empty.length_newIds hfit⟩
  · obtain ⟨ids, s, hhistory, hholds⟩ :=
      DatabaseStore.holds_empty.history (by rwa [Nat.zero_add]) hclock
    exact ⟨ids, s, hhistory, hholds.tellsCreation (by rwa [Nat.zero_add])⟩

/-- A database that is opened again after its first task, when the clock has gone back by years,
and once more after a task that was refused. -/
def oneTaskReopened : List DatabaseStep :=
  oneTask.map .call ++
    [.reopen, .call ⟨⟨1600000000, 0⟩, .enqueue 1 "3+3" (.binary "3" .add "3")⟩,
      .call ⟨⟨1600000000, 0⟩, .enqueue 2 "4+4" (.binary "4" .add "4")⟩, .reopen,
      .call ⟨⟨1600000001, 0⟩, .enqueue 1 "5+5" (.binary "5" .add "5")⟩]

/-- Three identifiers grow by one although the clock has gone back. -/
theorem ids_tell_creation_reopened :
    (oneTaskReopened.filterMap DatabaseStep.call?).countP Call.isEnqueue < 10 ^ 16 ∧
      (∀ c ∈ oneTaskReopened.filterMap DatabaseStep.call?, c.now.IsClockReading) ∧
      ∃ s, DatabaseStore.empty.history oneTaskReopened =
          .ok ([taskId 1700000001000000000, taskId 1700000001000000001,
            taskId 1700000001000000002], s) ∧
        CreationOrder [taskId 1700000001000000000, taskId 1700000001000000001,
          taskId 1700000001000000002] s := by
  have hcount : (oneTaskReopened.filterMap DatabaseStep.call?).countP Call.isEnqueue < 10 ^ 16 := by
    decide
  have hclock : ∀ c ∈ oneTaskReopened.filterMap DatabaseStep.call?, c.now.IsClockReading := by
    decide
  obtain ⟨ids, s, hhistory, horder, -⟩ := (ids_tell_creation hcount hclock).2
  have hids : (DatabaseStore.empty.history oneTaskReopened).toOption.map (·.1) =
      some [taskId 1700000001000000000, taskId 1700000001000000001,
        taskId 1700000001000000002] := by
    decide +kernel
  rw [hhistory] at hids
  obtain rfl := Option.some.inj hids
  exact ⟨hcount, hclock, s, hhistory, horder⟩

end ArithService
