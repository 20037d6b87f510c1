import Mathlib
import ArithService.Proofs.Store.Lifecycle

/-!
# The two stores agree

The store in memory and the store on a database give the same answers to the same calls.

## Main Definitions

* `Task.Agrees`, `StoreAnswer.Agrees` — the same, with results compared as numbers
* `KnownOwners`, `StoreCommand.storedTexts` — what the rules of the tables ask of a run
* `Simulates` — the state of a database store is the state of a memory store

## Design Notes

One call preserves the simulation and gives agreeing answers (`Simulates.run`); a run follows by
induction. The tasks of the database are the tasks in memory, except that a column keeps results
without the sign of zero (`Task.stored`).
-/

namespace ArithService

/-! ### Agreement -/

/-- The same task, with results that are equal as numbers. -/
structure Task.Agrees (t u : Task) : Prop where
  fields : u = { t with result := u.result }
  result : Option.Rel (fun x y => x.sameNumber y = true) t.result u.result

/-- The same answer, with the results of tasks compared as numbers. -/
inductive StoreAnswer.Agrees : StoreAnswer → StoreAnswer → Prop where
  | same (a : StoreAnswer) : Agrees a a
  | claimed {t u : Task} (h : t.Agrees u) : Agrees (.claimed (some t)) (.claimed (some u))
  | task {t u : Task} (h : t.Agrees u) : Agrees (.task t) (.task u)
  | tasks {ts us : List Task} (h : List.Forall₂ Task.Agrees ts us) : Agrees (.tasks ts) (.tasks us)

/-- The texts that a call gives a store to keep. -/
def StoreCommand.storedTexts : StoreCommand → List String
  | .enqueue _ expression work =>
    [expression, work.columns.1, work.columns.2.1, work.columns.2.2]
  | .createUser login passwordHash => [login, passwordHash]
  | _ => []

/-- A call does not record a task for somebody who is no user. -/
def Call.KnowsOwner (c : Call) (s : MemoryStore) : Prop :=
  ∀ owner expression work, c.command = .enqueue owner expression work →
    ∃ u ∈ s.users, u.id = owner

/-- In a run, tasks are only recorded for users. -/
def KnownOwners (s : MemoryStore) : List Call → Prop
  | [] => True
  | c :: rest => c.KnowsOwner s ∧ KnownOwners (c.run s).2 rest

/-! ### The simulation -/

/-- A task as a table keeps it. -/
def Task.stored (t : Task) : Task := { t with result := t.result.bind storedNumber }

/-- A task whose result is a number agrees with what a table keeps of it, which may lack the sign of
zero. -/
theorem Task.agrees_stored {t : Task} (h : t.result ≠ some .nan) : t.Agrees t.stored where
  fields := rfl
  result := by
    cases hresult : t.result with
    | none => simp [Task.stored, hresult]
    | some x =>
      have hnan : x ≠ .nan := fun hx => h (by rw [hresult, hx])
      obtain ⟨y, hy, hsame⟩ := storedNumber_sameNumber hnan
      simpa [Task.stored, hresult, hy] using Option.Rel.some (Binary64.sameNumber_comm hsame)

/-- A task that a table keeps, up to the sign of zero. -/
structure Task.FitsColumns (t : Task) : Prop where
  deadline : ∀ deadline, t.leaseExpiresAt = some deadline → deadline.IsPlain
  result : t.result ≠ some .nan

/-- The state of a database store is the state of a memory store. -/
structure Simulates (last : Int) (m : MemoryStore) (d : DatabaseStore) : Prop where
  memory : m.Sound last
  database : d.Sound last
  tasks : d.tasks = m.tasks.map Task.stored
  users : d.database.users = some (.numbered m.lastUser m.users)
  texts : ∀ u ∈ m.users, IsZeroFree u.login ∧ IsZeroFree u.passwordHash
  fits : ∀ t ∈ m.tasks, t.FitsColumns

theorem simulates_empty : Simulates 0 .empty .empty where
  memory := MemoryStore.sound_empty
  database := DatabaseStore.sound_empty
  tasks := rfl
  users := rfl
  texts := by simp [MemoryStore.empty]
  fits := by simp [MemoryStore.empty]

section Steps

variable {last : Int} {m : MemoryStore} {d : DatabaseStore}

/-- Both stores take back the same leases and count them alike. At a plain instant texts are
compared as times are. -/
theorem Simulates.requeue (h : Simulates last m d) {at_ : Instant} (hat : at_.IsPlain) :
    (d.requeue at_).1 = .ok (m.requeue at_).1 ∧
      Simulates last (m.requeue at_).2 (d.requeue at_).2 := by
  have hdeadlines : ∀ t ∈ d.tasks, ∀ deadline, t.leaseExpiresAt = some deadline →
      deadline.IsPlain := by
    rw [h.tasks]
    intro t ht
    obtain ⟨u, hu, rfl⟩ := List.mem_map.1 ht
    exact (h.fits u hu).deadline
  obtain ⟨hcount, htasks⟩ := h.database.requeue_tasks hat hdeadlines
  refine ⟨?_, h.memory.requeue at_, h.database.requeue at_, ?_, ?_, h.texts, ?_⟩
  · rw [hcount, h.tasks, List.filter_map, List.length_map]
    rfl
  · rw [htasks, h.tasks]
    simp only [MemoryStore.requeue, List.map_map]
    refine List.map_congr_left fun t _ => ?_
    -- What a table loses of a result does not matter to its lease.
    by_cases hended : t.hasEndedLease at_ = true
    · have hstored : t.stored.hasEndedLease at_ = true := hended
      simp only [Function.comp_apply, if_pos hended, if_pos hstored]
      rfl
    · have hstored : ¬ t.stored.hasEndedLease at_ = true := hended
      simp only [Function.comp_apply, if_neg hended, if_neg hstored]
  · rw [h.database.requeue_eq]
    exact h.users
  · intro t ht
    obtain ⟨u, hu, rfl⟩ := List.mem_map.1 ht
    split_ifs
    · exact ⟨by simp [MemoryStore.released], (h.fits u hu).result⟩
    · exact h.fits u hu

/-- The oldest pending task is the same, since a table does not change what a status is. -/
theorem Simulates.oldestPending (h : Simulates last m d) :
    d.tasks.find? (·.status = .pending) = m.oldestPending.map Task.stored := by
  rw [h.tasks, List.find?_map]
  rfl

/-- A change of the same task on both sides keeps the simulation, if storing the changed task is
changing the stored one. -/
theorem Simulates.updateTask (h : Simulates last m d) {id : String} {change : Task → Task}
    {storedChange : Task → Task} {after : DatabaseStore} (hid : ∀ t, (change t).id = t.id)
    (hsound : after.Sound last) (husers : after.database.users = d.database.users)
    (htasks : after.tasks = MemoryStore.updateTask id storedChange d.tasks)
    (hstored : ∀ t, storedChange t.stored = (change t).stored)
    (hfits : ∀ t ∈ m.tasks, (change t).FitsColumns) :
    Simulates last { m with tasks := MemoryStore.updateTask id change m.tasks } after where
  memory := h.memory.updateTask id hid
  database := hsound
  tasks := by
    rw [htasks, h.tasks, MemoryStore.updateTask, MemoryStore.updateTask, List.map_map, List.map_map]
    refine List.map_congr_left fun t _ => ?_
    by_cases hsame : t.id = id
    · have hstoredId : t.stored.id = id := hsame
      simp only [Function.comp_apply, if_pos hsame, if_pos hstoredId, hstored]
    · have hstoredId : ¬ t.stored.id = id := hsame
      simp only [Function.comp_apply, if_neg hsame, if_neg hstoredId]
  users := husers.trans h.users
  texts := h.texts
  fits t ht := by
    obtain ⟨u, hu, rfl⟩ := List.mem_map.1 ht
    split_ifs
    · exact hfits u hu
    · exact h.fits u hu

/-- Both stores hand out the same task, or none. The deadline has to be plain, as the text of any
other is read back as another time. -/
theorem Simulates.claim (h : Simulates last m d) {now : Instant} {lease : Span}
    (hplain : Call.IsPlain ⟨now, .claim lease⟩ (Call.run ⟨now, .claim lease⟩ m).1) :
    StoreAnswer.Agrees (.ofResult .claimed (m.claim now lease).1)
        (.ofResult .claimed (d.claim now lease).1) ∧
      Simulates last (m.claim now lease).2 (d.claim now lease).2 := by
  have hnow : now.IsPlain := hplain.now
  cases hdeadline : now.add? lease with
  | none =>
    simp only [MemoryStore.claim, DatabaseStore.claim, hdeadline]
    exact ⟨.same _, h⟩
  | some deadline =>
    obtain ⟨-, hrequeue⟩ := h.requeue hnow
    have hsame := hrequeue.oldestPending
    cases holdest : (m.requeue now).2.oldestPending with
    | none =>
      rw [holdest, Option.map_none] at hsame
      rw [h.database.claim_none hdeadline hsame]
      simp only [MemoryStore.claim, hdeadline, holdest]
      exact ⟨.same _, hrequeue⟩
    | some oldest =>
      rw [holdest, Option.map_some] at hsame
      obtain ⟨hanswer, htasks, husers, hsound⟩ := h.database.claim_some hnow hdeadline hsame
      have hclaim : m.claim now lease =
          (.ok (some (MemoryStore.claimed now deadline oldest)),
            { (m.requeue now).2 with
              tasks := MemoryStore.updateTask oldest.id (MemoryStore.claimed now deadline)
                (m.requeue now).2.tasks }) := by
        simp only [MemoryStore.claim, hdeadline, holdest]
      have hasked : Call.deadline? ⟨now, .claim lease⟩ = some deadline := hdeadline
      have hgiven : (Call.run ⟨now, .claim lease⟩ m).1 =
          .claimed (some (MemoryStore.claimed now deadline oldest)) := by
        show StoreAnswer.ofResult .claimed (m.claim now lease).1 = _
        rw [hclaim]
        rfl
      -- The answer shows the deadline as it is read back, so it has to be a plain one.
      have hplainDeadline : deadline.IsPlain := hplain.isPlain_deadline hgiven hasked
      have hread : Retention.columns.instant deadline = deadline :=
        Retention.isFaithful_columns.instant hplainDeadline
      rw [hread] at hanswer htasks
      have hmem : oldest ∈ (m.requeue now).2.tasks := List.mem_of_find?_eq_some holdest
      rw [hclaim, hanswer]
      constructor
      · exact .claimed (Task.agrees_stored (t := MemoryStore.claimed now deadline oldest)
          (hrequeue.fits oldest hmem).result)
      · refine hrequeue.updateTask (fun _ => rfl) hsound ?_ htasks (fun _ => rfl) ?_
        · rw [husers, h.database.requeue_eq]
          rfl
        · intro t ht
          refine ⟨fun d hd => ?_, (hrequeue.fits t ht).result⟩
          rwa [← Option.some.inj hd]

/-- Both stores record a result, or miss its task. NaN is left out: a table would keep no result at
all. -/
theorem Simulates.complete (h : Simulates last m d) {now : Instant} (hnow : now.IsPlain)
    (id : String) {x : Binary64} (hnumber : x ≠ .nan) :
    (m.complete now id x).1 = (d.complete now id x).1 ∧
      Simulates last (m.complete now id x).2 (d.complete now id x).2 := by
  cases hfind : m.tasks.find? (·.id = id) with
  | none =>
    have hmissing : ∀ t ∈ d.tasks, t.id ≠ id := by
      rw [h.tasks]
      intro t ht
      obtain ⟨u, hu, rfl⟩ := List.mem_map.1 ht
      have hother : u.id ≠ id := by simpa using List.find?_eq_none.1 hfind u hu
      exact hother
    have hcomplete : m.complete now id x = (.error (.noTask id), m) := by
      simp only [MemoryStore.complete, MemoryStore.get, hfind]
    rw [h.database.complete_missing now x hmissing, hcomplete]
    exact ⟨rfl, h⟩
  | some t =>
    have hid : t.id = id := by simpa using List.find?_some hfind
    have hfound : ∃ t ∈ d.tasks, t.id = id := by
      rw [h.tasks]
      exact ⟨_, List.mem_map_of_mem (List.mem_of_find?_eq_some hfind), hid⟩
    obtain ⟨hanswer, htasks, husers, hsound⟩ := h.database.complete_found hnow x hfound
    have hcomplete : m.complete now id x =
        (.ok (), { m with
          tasks := MemoryStore.updateTask id (MemoryStore.completed now x) m.tasks }) := by
      simp only [MemoryStore.complete, MemoryStore.get, hfind]
    rw [hcomplete]
    refine ⟨hanswer.symm, h.updateTask (fun _ => rfl) hsound husers htasks (fun _ => rfl) ?_⟩
    intro u _
    exact ⟨by simp [MemoryStore.completed], fun hnan => hnumber (Option.some.inj hnan)⟩

/-- Both stores record the same task under the same identifier. A table would refuse an owner who is
no user, and cut off texts at a zero character. -/
theorem Simulates.enqueue (h : Simulates last m d) {now : Instant}
    (hdue : IsTaskNumber (numberDue last now)) {owner : Int} {expression : String} {work : Work}
    (howner : ∃ u ∈ m.users, u.id = owner)
    (htexts : ∀ text ∈ (StoreCommand.enqueue owner expression work).storedTexts,
      IsZeroFree text) :
    (m.enqueue now owner expression work).1 = (d.enqueue now owner expression work).1 ∧
      Simulates (numberDue last now) (m.enqueue now owner expression work).2
        (d.enqueue now owner expression work).2 := by
  have hknown : m.users.any (·.id = owner) = true := by simpa using howner
  obtain ⟨hanswer, htasks, husers, hsound⟩ :=
    h.database.enqueue_known hdue h.users hknown expression work
  have hmemory := h.memory.enqueue hdue owner expression work
  -- Without zero characters the texts of the task are read back whole.
  have hfresh : Retention.columns.submitted (.fresh (taskId (numberDue last now)) owner expression
      work (.ofNanoseconds (numberDue last now))) =
      .fresh (taskId (numberDue last now)) owner expression work
        (.ofNanoseconds (numberDue last now)) := by
    simp only [StoreCommand.storedTexts, List.forall_mem_cons] at htexts
    obtain ⟨hexpression, hleft, hright, hoperation, -⟩ := htexts
    simp only [Retention.submitted, Task.fresh, Retention.columns_text, hexpression.textRead,
      hleft.textRead, hright.textRead, hoperation.textRead]
  rw [hfresh] at htasks
  rw [h.memory.enqueue_eq hdue] at hmemory ⊢
  refine ⟨hanswer.symm, hmemory, hsound, ?_, husers.trans h.users, h.texts, ?_⟩
  · rw [htasks, h.tasks, List.map_append]
    rfl
  · intro t ht
    rcases List.mem_append.1 ht with ht | ht
    · exact h.fits t ht
    · rw [List.mem_singleton.1 ht]
      exact ⟨by simp [Task.fresh], by simp [Task.fresh]⟩

/-- Both stores register a user under the same number, or refuse a login that is taken. -/
theorem Simulates.createUser (h : Simulates last m d) {login passwordHash : String}
    (htexts : ∀ text ∈ (StoreCommand.createUser login passwordHash).storedTexts,
      IsZeroFree text) :
    (m.createUser login passwordHash).1 = (d.createUser login passwordHash).1 ∧
      Simulates last (m.createUser login passwordHash).2 (d.createUser login passwordHash).2 := by
  have hmemory := h.memory.createUser login passwordHash
  have hdatabase := h.database.createUser login passwordHash
  rw [DatabaseStore.createUser_eq h.database.triggers h.users] at hdatabase ⊢
  cases hfind : m.users.find? (·.login = login) with
  | some u =>
    have htaken : m.users.any (·.login = login) = true :=
      List.any_eq_true.2
        ⟨u, List.mem_of_find?_eq_some hfind, by simpa using List.find?_some hfind⟩
    simp only [MemoryStore.createUser, MemoryStore.findUser, hfind, if_pos htaken]
    exact ⟨trivial, h⟩
  | none =>
    have hfree : ¬ m.users.any (·.login = login) = true := by
      rw [List.find?_eq_none] at hfind
      simpa using hfind
    rw [if_neg hfree] at hdatabase ⊢
    simp only [MemoryStore.createUser, MemoryStore.findUser, hfind] at hmemory ⊢
    refine ⟨trivial, hmemory, hdatabase.1, hdatabase.2.trans h.tasks, rfl, ?_, h.fits⟩
    intro u hu
    rcases List.mem_append.1 hu with hu | hu
    · exact h.texts u hu
    · rw [List.mem_singleton.1 hu]
      exact ⟨htexts _ (by simp [StoreCommand.storedTexts]),
        htexts _ (by simp [StoreCommand.storedTexts])⟩

/-- Both stores find the same user: logins are compared up to the first zero character on one side,
and there is none. -/
theorem Simulates.findUser (h : Simulates last m d) (login : String) :
    .ok (m.findUser login) = d.findUser login := by
  simp only [MemoryStore.findUser, DatabaseStore.findUser, Database.findLogin, h.users]
  cases hfind : m.users.find? (·.login = login) with
  | none => rfl
  | some u =>
    obtain ⟨hlogin, hhash⟩ := h.texts u (List.mem_of_find?_eq_some hfind)
    simp only [Option.map_some, hlogin.textRead, hhash.textRead]

theorem Simulates.get (h : Simulates last m d) (id : String) :
    StoreAnswer.Agrees (.ofResult .task (m.get id)) (.ofResult .task (d.get id)) := by
  have hsame : d.tasks.find? (·.id = id) = (m.tasks.find? (·.id = id)).map Task.stored := by
    rw [h.tasks, List.find?_map]
    rfl
  rw [h.database.readable.get_eq, hsame, MemoryStore.get]
  cases hfind : m.tasks.find? (·.id = id) with
  | none => exact .same _
  | some t => exact .task (Task.agrees_stored (h.fits t (List.mem_of_find?_eq_some hfind)).result)

/-- Both stores list the same tasks in the same order, although only one of them sorts by time. -/
theorem Simulates.list (h : Simulates last m d) (owner : Int) :
    StoreAnswer.Agrees (.tasks (m.list owner)) (.ofResult .tasks (d.list owner)) := by
  have hsame : d.tasks.reverse.filter (·.owner = owner) = (m.list owner).map Task.stored := by
    rw [h.tasks, ← List.map_reverse, List.filter_map]
    rfl
  rw [h.database.list_eq, hsame]
  refine .tasks ?_
  rw [List.forall₂_map_right_iff, List.forall₂_same]
  intro t ht
  have hmem : t ∈ m.tasks := List.mem_reverse.1 (List.mem_filter.1 ht).1
  exact Task.agrees_stored (h.fits t hmem).result

/-- **One call gives agreeing answers and keeps the simulation.** The conditions are asked of the
store in memory alone, so that a run can be judged without a database. -/
theorem Simulates.run (h : Simulates last m d) {c : Call} (hplain : c.IsPlain (c.run m).1)
    (hfits : c.NumberFits last) (hnumber : ∀ id, c.command ≠ .complete id .nan)
    (howner : c.KnowsOwner m) (htexts : ∀ text ∈ c.command.storedTexts, IsZeroFree text) :
    StoreAnswer.Agrees (c.run m).1 (c.run d).1 ∧
      Simulates (c.numberAfter last) (c.run m).2 (c.run d).2 := by
  obtain ⟨now, command⟩ := c
  cases command with
  | enqueue owner expression work =>
    rw [Call.numberAfter_of_enqueue rfl hfits]
    obtain ⟨hanswer, hnext⟩ :=
      h.enqueue (hfits rfl) (howner owner expression work rfl) htexts
    refine ⟨?_, hnext⟩
    show StoreAnswer.Agrees _ (.ofResult .taskId (d.enqueue now owner expression work).1)
    rw [← hanswer]
    exact .same _
  | claim lease => exact h.claim hplain
  | complete id x =>
    obtain ⟨hanswer, hnext⟩ := h.complete hplain.now id fun hx => hnumber id (hx ▸ rfl)
    refine ⟨?_, hnext⟩
    show StoreAnswer.Agrees _ (.ofResult (fun _ => .done) (d.complete now id x).1)
    rw [← hanswer]
    exact .same _
  | get id => exact ⟨h.get id, h⟩
  | list owner => exact ⟨h.list owner, h⟩
  | requeue at_ =>
    obtain ⟨hanswer, hnext⟩ := h.requeue (hplain.requeue at_ rfl)
    refine ⟨?_, hnext⟩
    show StoreAnswer.Agrees _ (.ofResult .count (d.requeue at_).1)
    rw [hanswer]
    exact .same _
  | createUser login passwordHash =>
    obtain ⟨hanswer, hnext⟩ := h.createUser htexts
    refine ⟨?_, hnext⟩
    show StoreAnswer.Agrees _ (.ofResult .userId (d.createUser login passwordHash).1)
    rw [← hanswer]
    exact .same _
  | findUser login =>
    refine ⟨?_, h⟩
    show StoreAnswer.Agrees _ (.ofResult .user (d.findUser login))
    rw [← h.findUser]
    exact .same _

end Steps

/-! ### Runs -/

theorem Simulates.answers {calls : List Call} {last : Int} {m : MemoryStore} {d : DatabaseStore}
    (h : Simulates last m d) (hplain : PlainRun m calls) (hfit : NumbersFit last calls)
    (hnumbers : ∀ c ∈ calls, ∀ id, c.command ≠ .complete id .nan) (howners : KnownOwners m calls)
    (htexts : ∀ c ∈ calls, ∀ text ∈ c.command.storedTexts, IsZeroFree text) :
    List.Forall₂ StoreAnswer.Agrees (answers m calls) (answers d calls) := by
  -- The simulation is carried from call to call; the conditions on a run are split off its head.
  induction calls generalizing last m d with
  | nil => exact .nil
  | cons c rest ih =>
    obtain ⟨hanswer, hnext⟩ :=
      h.run hplain.1 hfit.1 (hnumbers c (by simp)) howners.1 (htexts c (by simp))
    exact .cons hanswer (ih hnext hplain.2 hfit.2 (fun e he => hnumbers e (by simp [he]))
      howners.2 fun e he => htexts e (by simp [he]))

/-- **The two stores agree**: in every orderly run for known owners with texts without zero
characters, both give the same answers from the start, results compared as numbers. -/
theorem stores_agree (calls : List Call) (horderly : IsOrderly MemoryStore.empty calls)
    (howners : KnownOwners MemoryStore.empty calls)
    (htexts : ∀ c ∈ calls, ∀ text ∈ c.command.storedTexts, IsZeroFree text) :
    List.Forall₂ StoreAnswer.Agrees (answers MemoryStore.empty calls)
      (answers DatabaseStore.empty calls) :=
  simulates_empty.answers horderly.plain (numbersFit_zero horderly.count horderly.clock)
    horderly.numbers howners htexts

theorem knownOwners_oneResult : KnownOwners MemoryStore.empty oneResult := by
  refine ⟨?_, ?_, ?_, ?_, trivial⟩
  · intro owner expression work hcommand
    cases hcommand
  · intro owner expression work hcommand
    cases hcommand
    exact ⟨⟨1, "ada", "hash"⟩, by decide, rfl⟩
  · intro owner expression work hcommand
    cases hcommand
  · intro owner expression work hcommand
    cases hcommand

theorem isZeroFree_oneResult :
    ∀ c ∈ oneResult, ∀ text ∈ c.command.storedTexts, IsZeroFree text := by
  simp [oneResult, oneTask, claimAt, StoreCommand.storedTexts, Work.columns, Operator.text,
    Operator.symbol, IsZeroFree]

/-- The two stores agree on a task from its claim to its result. -/
theorem stores_agree_oneResult :
    List.Forall₂ StoreAnswer.Agrees (answers MemoryStore.empty oneResult)
      (answers DatabaseStore.empty oneResult) :=
  stores_agree oneResult (isOrderly_oneResult _) knownOwners_oneResult isZeroFree_oneResult

end ArithService
