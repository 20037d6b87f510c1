import Mathlib
import ArithService.Proofs.Store.Moves

/-!
# The store in memory keeps tasks

## Main Definitions

* `MemoryStore.Sound` — tasks in the order of their numbers, none after the latest number

## Design Notes

A new task has the greatest identifier, so it is recorded behind the others. Every other change
is a map over the tasks that keeps the identifiers (`Sound.map`).
-/

namespace ArithService

namespace MemoryStore

/-- Tasks stand in the order of their numbers, and the latest number is the greatest. -/
structure Sound (last : Int) (s : MemoryStore) : Prop where
  number : s.lastNumber = last
  number_nonneg : 0 ≤ last
  ids : ∀ t ∈ s.tasks, ∃ n, t.id = taskId n ∧ IsTaskNumber n ∧ n ≤ last
  sorted : s.tasks.Pairwise (·.id < ·.id)

theorem sound_empty : Sound 0 empty where
  number := rfl
  number_nonneg := le_rfl
  ids := by simp [empty]
  sorted := by simp [empty]

/-! ### Looking up -/

/-- What is known of the task with an identifier is the first task that has it; on a sound store
there is no second one. -/
theorem task?_eq (id : String) (s : MemoryStore) :
    Store.task? id s = s.tasks.find? (·.id = id) := by
  show (s.get id).toOption = _
  unfold get
  cases s.tasks.find? (·.id = id) <;> rfl

theorem task?_empty (id : String) : Store.task? id empty = none := by
  rw [task?_eq]
  rfl

theorem get_cases (id : String) (s : MemoryStore) :
    (∃ t, Store.get id s = .ok t ∧ t.id = id) ∨ Store.get id s = .error (.noTask id) := by
  show (∃ t, s.get id = .ok t ∧ t.id = id) ∨ s.get id = .error (.noTask id)
  unfold get
  cases hfind : s.tasks.find? (·.id = id) with
  | none => exact .inr rfl
  | some t => exact .inl ⟨t, rfl, by simpa using List.find?_some hfind⟩

/-! ### Recording -/

/-- A task with a greater identifier than all others is recorded behind them. In general tasks are
put in their place among the others, which no proof about sound stores has to look at. -/
theorem insertTask_eq_append {t : Task} {ts : List Task} (h : ∀ u ∈ ts, u.id < t.id) :
    insertTask t ts = ts ++ [t] := by
  induction ts with
  | nil => rfl
  | cons u rest ih =>
    -- The new task goes behind the first one, and the rest is the induction.
    have hlt : u.id < t.id := h u (by simp)
    have hrest : insertTask t rest = rest ++ [t] := ih fun v hv => h v (by simp [hv])
    rw [insertTask, if_neg (String.lt_asymm hlt), if_neg (ne_of_gt hlt), hrest]
    rfl

variable {last : Int} {s : MemoryStore}

/-- A number that is due is greater than the numbers of all tasks, and its text is greater than
theirs, all of them having 19 digits. -/
theorem Sound.id_lt (h : Sound last s) {now : Instant} (hdue : IsTaskNumber (numberDue last now))
    {t : Task} (ht : t ∈ s.tasks) : t.id < taskId (numberDue last now) := by
  obtain ⟨n, hid, hnumber, hle⟩ := h.ids t ht
  rw [hid, taskId_lt_iff hnumber hdue]
  exact lt_of_le_of_lt hle (lt_numberDue last now)

/-- The task that a call records, if the number that is due is a task number. Nobody asks who the
owner is. -/
theorem Sound.enqueue_eq (h : Sound last s) {now : Instant}
    (hdue : IsTaskNumber (numberDue last now)) (owner : Int) (expression : String) (work : Work) :
    s.enqueue now owner expression work =
      (.ok (taskId (numberDue last now)),
        { s with
          tasks := s.tasks ++ [.fresh (taskId (numberDue last now)) owner expression work
            (.ofNanoseconds (numberDue last now))]
          lastNumber := numberDue last now }) := by
  have hnext : nextNumber s.lastNumber now = some (numberDue last now) := by
    rw [h.number, nextNumber_eq hdue]
  simp only [enqueue, hnext, Task.fresh]
  rw [insertTask_eq_append fun t ht => h.id_lt hdue ht]

theorem Sound.enqueue (h : Sound last s) {now : Instant}
    (hdue : IsTaskNumber (numberDue last now)) (owner : Int) (expression : String) (work : Work) :
    Sound (numberDue last now) (s.enqueue now owner expression work).2 := by
  rw [h.enqueue_eq hdue]
  refine ⟨rfl, h.number_nonneg.trans (lt_numberDue last now).le, ?_, ?_⟩
  · intro t ht
    rcases List.mem_append.1 ht with ht | ht
    · obtain ⟨n, hid, hnumber, hle⟩ := h.ids t ht
      exact ⟨n, hid, hnumber, hle.trans (lt_numberDue last now).le⟩
    · rw [List.mem_singleton.1 ht]
      exact ⟨_, rfl, hdue, le_rfl⟩
  · refine List.pairwise_append.2 ⟨h.sorted, by simp, fun t ht u hu => ?_⟩
    rw [List.mem_singleton.1 hu]
    exact h.id_lt hdue ht

/-! ### Changing tasks -/

/-- A change of tasks that keeps their identifiers keeps the order. All calls but recording are of
this form. -/
theorem Sound.map (h : Sound last s) {change : Task → Task}
    (hid : ∀ t, (change t).id = t.id) : Sound last { s with tasks := s.tasks.map change } where
  number := h.number
  number_nonneg := h.number_nonneg
  ids t ht := by
    obtain ⟨u, hu, rfl⟩ := List.mem_map.1 ht
    rw [hid]
    exact h.ids u hu
  sorted := by
    refine List.pairwise_map.2 (h.sorted.imp fun hlt => ?_)
    rwa [hid, hid]

theorem Sound.updateTask (h : Sound last s) (id : String) {change : Task → Task}
    (hid : ∀ t, (change t).id = t.id) :
    Sound last { s with tasks := updateTask id change s.tasks } := by
  refine h.map fun t => ?_
  split_ifs
  · exact hid t
  · rfl

theorem Sound.requeue (h : Sound last s) (at_ : Instant) : Sound last (s.requeue at_).2 := by
  refine h.map fun t => ?_
  split_ifs <;> rfl

/-- Handing out keeps the store sound, also where no deadline can be computed and nothing is handed
out. -/
theorem Sound.claim (h : Sound last s) (now : Instant) (lease : Span) :
    Sound last (s.claim now lease).2 := by
  unfold MemoryStore.claim
  split
  · exact h
  · simp only
    split
    · exact h.requeue now
    · exact (h.requeue now).updateTask _ fun _ => rfl

theorem Sound.complete (h : Sound last s) (now : Instant) (id : String) (x : Binary64) :
    Sound last (s.complete now id x).2 := by
  unfold MemoryStore.complete
  split
  · exact h
  · exact h.updateTask _ fun _ => rfl

theorem Sound.createUser (h : Sound last s) (login passwordHash : String) :
    Sound last (s.createUser login passwordHash).2 := by
  unfold MemoryStore.createUser
  split
  · exact h
  · exact ⟨h.number, h.number_nonneg, h.ids, h.sorted⟩

/-- Every call preserves the invariant, and moves the last number on if it records a task. This is
the step of every induction over runs. -/
theorem Sound.run (h : Sound last s) {c : Call} (hfits : c.NumberFits last) :
    Sound (c.numberAfter last) (c.run s).2 := by
  obtain ⟨now, command⟩ := c
  cases command with
  | enqueue owner expression work =>
    rw [Call.numberAfter_of_enqueue rfl hfits]
    exact h.enqueue (hfits rfl) owner expression work
  | claim lease => exact h.claim now lease
  | complete id x => exact h.complete now id x
  | get id => exact h
  | list owner => exact h
  | requeue at_ => exact h.requeue at_
  | createUser login passwordHash => exact h.createUser login passwordHash
  | findUser login => exact h

/-! ### Moves -/

/-- A lease that has ended may be taken back. In memory instants are compared as such, so this holds
of all of them. -/
theorem mayBeTakenBack {t : Task} {at_ : Instant} (h : t.hasEndedLease at_ = true) :
    t.MayBeTakenBack at_ := by
  unfold Task.hasEndedLease at h
  rw [Bool.and_eq_true, decide_eq_true_eq] at h
  obtain ⟨hstatus, hlease⟩ := h
  cases hdeadline : t.leaseExpiresAt with
  | none => simp [hdeadline] at hlease
  | some deadline =>
    exact ⟨hstatus, deadline, hdeadline, fun _ _ => by simpa [hdeadline] using hlease⟩

/-- Task by task, a requeue leaves everything alone except tasks whose lease has ended. -/
theorem requeuedAs (at_ : Instant) (s : MemoryStore) :
    List.Forall₂ (Task.RequeuedAs at_) s.tasks (s.requeue at_).2.tasks := by
  rw [requeue, List.forall₂_map_right_iff, List.forall₂_same]
  intro t _
  split_ifs with hended
  · exact .inr ⟨mayBeTakenBack hended, rfl⟩
  · exact .inl rfl

/-- What a claim does to the task with any identifier: it is handed out, or taken back before
another one is handed out, or left alone. -/
theorem move_claim (h : Sound last s) {now : Instant} {lease : Span} (id : String) :
    TaskMove .exact ⟨now, .claim lease⟩ (Call.run ⟨now, .claim lease⟩ s).1 id (Store.task? id s)
      (Store.task? id (Call.run ⟨now, .claim lease⟩ s).2) := by
  have hrun : Call.run ⟨now, .claim lease⟩ s =
      (.ofResult .claimed (s.claim now lease).1, (s.claim now lease).2) := rfl
  rw [hrun, task?_eq, task?_eq]
  cases hdeadline : now.add? lease with
  | none =>
    simp only [claim, hdeadline]
    exact .untouched (by simp [StoreAnswer.ofResult]) (by simp) id _
  | some deadline =>
    have hasked : Call.deadline? ⟨now, .claim lease⟩ = some deadline := hdeadline
    have htime : Call.requeueTime ⟨now, .claim lease⟩ = some now :=
      Call.requeueTime_of_deadline? hasked
    cases holdest : (s.requeue now).2.oldestPending with
    | none =>
      simp only [claim, hdeadline, holdest]
      exact .requeue htime (by simp [StoreAnswer.ofResult]) (by simp) (requeuedAs now s) id
    | some oldest =>
      have hmem : oldest ∈ (s.requeue now).2.tasks := List.mem_of_find?_eq_some holdest
      have hpending : oldest.status = .pending := by simpa using List.find?_some holdest
      simp only [claim, hdeadline, holdest]
      exact .handOut hasked htime (by simp) (requeuedAs now s) (h.requeue now).sorted hmem
        hpending rfl id

theorem move_complete {now : Instant} {id : String} {x : Binary64} (other : String) :
    TaskMove .exact ⟨now, .complete id x⟩ (Call.run ⟨now, .complete id x⟩ s).1 other
      (Store.task? other s) (Store.task? other (Call.run ⟨now, .complete id x⟩ s).2) := by
  have hrun : Call.run ⟨now, .complete id x⟩ s =
      (.ofResult (fun _ => .done) (s.complete now id x).1, (s.complete now id x).2) := rfl
  rw [hrun, task?_eq, task?_eq]
  cases hfind : s.tasks.find? (·.id = id) with
  | none =>
    simp only [complete, get, hfind]
    exact .complete_missing rfl rfl (by simpa using hfind) other
  | some t =>
    have hfound : ∃ t ∈ s.tasks, t.id = id :=
      ⟨t, List.mem_of_find?_eq_some hfind, by simpa using List.find?_some hfind⟩
    simp only [complete, get, hfind]
    exact .complete rfl rfl hfound other

/-- **The store in memory keeps tasks, and loses nothing.** Everything that was proved of runs from
`KeepsTasks` is there for the store in memory from here on. -/
theorem keepsTasks : KeepsTasks .exact Sound where
  faithful := Retention.isFaithful_exact
  sound_run h _ hfits := h.run hfits
  get id _ := get_cases id _
  prepare _ := rfl
  move {last s c} id h _ hfits := by
    obtain ⟨now, command⟩ := c
    cases command with
    | enqueue owner expression work =>
      have hrun : Call.run ⟨now, .enqueue owner expression work⟩ s =
          (.ofResult .taskId (s.enqueue now owner expression work).1,
            (s.enqueue now owner expression work).2) := rfl
      rw [hrun, h.enqueue_eq (hfits rfl), task?_eq, task?_eq]
      exact .record rfl rfl (hfits rfl) (fun t ht => ne_of_lt (h.id_lt (hfits rfl) ht)) id
    | claim lease => exact move_claim h id
    | complete other x => exact move_complete id
    | requeue at_ =>
      have hrun : Call.run ⟨now, .requeue at_⟩ s =
          (.count (s.requeue at_).1, (s.requeue at_).2) := rfl
      rw [hrun, task?_eq, task?_eq]
      exact .requeue rfl (by simp) (by simp) (requeuedAs at_ s) id
    | createUser login passwordHash =>
      have htasks : (s.createUser login passwordHash).2.tasks = s.tasks := by
        unfold createUser
        split <;> rfl
      have hsame : Store.task? id (Call.run ⟨now, .createUser login passwordHash⟩ s).2 =
          Store.task? id s := by
        rw [task?_eq, task?_eq, ← htasks]
        rfl
      rw [hsame]
      exact .untouched (fun _ => Call.run_ne_claimed (by simp) s _) (by simp) id _
    | get other => exact .untouched (fun _ => Call.run_ne_claimed (by simp) s _) (by simp) id _
    | list owner => exact .untouched (fun _ => Call.run_ne_claimed (by simp) s _) (by simp) id _
    | findUser login =>
      exact .untouched (fun _ => Call.run_ne_claimed (by simp) s _) (by simp) id _

end MemoryStore

end ArithService
