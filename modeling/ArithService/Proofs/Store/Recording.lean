import Mathlib
import ArithService.Proofs.Expression.Work
import ArithService.Proofs.Store.Reading
import ArithService.Proofs.Store.Users

/-!
# What recording a task changes

A task that is recorded is found from then on, and nothing else in the store changes. Where it
cannot be recorded, nothing changes but the counter.

## Main Definitions

* `nextTask` — the task that a store records next
* `IsUnused` — there is a next number, and it is not that of another task
* `Records` — a store that has one more task, and is as it was otherwise
* `StoreError.RefusesNumber` — how a store fails that has no use for the next number
* `RecordsTasks` — what every store does to a task that is to be recorded
* `MemoryStore.IsNumbered` — identifiers with numbers up to the last one

## Design Notes

Whether the next number is unused decides everything, so a store is described once for either case.
In memory the counter is never set back, and the next number is unused as long as there is one
(`IsNumbered.isUnused_iff`). On a database it goes on from the greatest text after a restart, which
need not be the greatest number: it is as long as identifiers have one length
(`DatabaseStore.Sound.isUnused`).
-/

namespace ArithService

/-- The task that is recorded next, after the latest number. -/
def nextTask (last : Int) (now : Instant) (owner : Int) (expression : String) (work : Work) :
    Task :=
  .fresh (taskId (numberDue last now)) owner expression work
    (.ofNanoseconds (numberDue last now))

/-- A number is given out next, and it is not that of a task. -/
structure IsUnused (last : Int) (now : Instant) (tasks : List Task) : Prop where
  given : nextNumber last now = some (numberDue last now)
  unused : ∀ t ∈ tasks, t.id ≠ taskId (numberDue last now)

/-- How a store fails that has no use for the next number: the call is broken off if there is none,
and a statement fails if it is taken. -/
def StoreError.RefusesNumber (next : Option Int) (e : StoreError) : Prop :=
  match next with
  | none => e = .brokenOff
  | some _ => ∃ detail, e = .query detail

/-- A store has one more task, and is as it was otherwise. -/
structure Records {σ : Type} [Store σ] (users : σ → List User) (tasks : σ → List Task) (t : Task)
    (before after : σ) : Prop where
  found : Store.get t.id after = .ok t
  others : ∀ id, id ≠ t.id → Store.get id after = Store.get id before
  added : (tasks after).Perm (t :: tasks before)
  users : users after = users before

/-- What every store does to a task of a known user that is to be recorded for an expression that
has a value: it is recorded as it is where its number is unused, and not at all elsewhere. -/
structure RecordsTasks {σ : Type} [Store σ] (last : σ → Int) (users : σ → List User)
    (tasks : σ → List Task) (Sound : σ → Prop) : Prop where
  records : ∀ {s : σ} {now : Instant} {owner : Int} {expression : String} {work : Work}, Sound s →
    Work.ofText expression = .ok work → (∃ u ∈ users s, u.id = owner) →
    IsUnused (last s) now (tasks s) →
    (Store.enqueue now owner expression work s).1 =
        .ok (nextTask (last s) now owner expression work).id ∧
      Records users tasks (nextTask (last s) now owner expression work) s
        (Store.enqueue now owner expression work s).2
  fails : ∀ {s : σ} {now : Instant} {owner : Int} (expression : String) (work : Work), Sound s →
    (∃ u ∈ users s, u.id = owner) → ¬ IsUnused (last s) now (tasks s) →
    ∃ e, (Store.enqueue now owner expression work s).1 = .error e ∧
      e.RefusesNumber (nextNumber (last s) now) ∧
      tasks (Store.enqueue now owner expression work s).2 = tasks s ∧
      users (Store.enqueue now owner expression work s).2 = users s

namespace MemoryStore

variable {t : Task} {ts : List Task}

/-- A task is put into a list as one more, if no other one has its identifier. Where one has, it
would be replaced. -/
theorem perm_insertTask (hnew : ∀ u ∈ ts, u.id ≠ t.id) : (insertTask t ts).Perm (t :: ts) := by
  induction ts with
  | nil => exact .refl _
  | cons u rest ih =>
    obtain ⟨hfirst, hrest⟩ := List.forall_mem_cons.1 hnew
    rw [insertTask, if_neg hfirst.symm]
    split_ifs
    · exact .refl _
    · exact ((ih hrest).cons u).trans (.swap t u rest)

/-- A task that is put into a list is found under its identifier, and the others as before. -/
theorem find?_insertTask (t : Task) (ts : List Task) (id : String) :
    (insertTask t ts).find? (·.id = id) =
      if t.id = id then some t else ts.find? (·.id = id) := by
  -- A task with the same identifier is replaced, so nothing is asked of the other identifiers.
  induction ts with
  | nil => by_cases hid : t.id = id <;> simp [insertTask, hid]
  | cons u rest ih =>
    rw [insertTask]
    by_cases hid : t.id = id
    · rw [if_pos hid]
      split_ifs with hbefore hsame
      · simp [hid]
      · simp [hid]
      · have hother : u.id ≠ id := fun hu => hsame (hid.trans hu.symm)
        rw [List.find?_cons_of_neg (by simpa using hother), ih, if_pos hid]
    · rw [if_neg hid]
      split_ifs with hbefore hsame
      · rw [List.find?_cons_of_neg (by simpa using hid)]
      · have hother : u.id ≠ id := fun hu => hid (hsame.trans hu)
        rw [List.find?_cons_of_neg (by simpa using hid),
          List.find?_cons_of_neg (by simpa using hother)]
      · rw [List.find?_cons, List.find?_cons, ih, if_neg hid]

/-- What recording a task comes to, whatever its number is. -/
theorem enqueue_eq_insertTask {s : MemoryStore} {now : Instant}
    (hgiven : nextNumber s.lastNumber now = some (numberDue s.lastNumber now)) (owner : Int)
    (expression : String) (work : Work) :
    s.enqueue now owner expression work =
      (.ok (nextTask s.lastNumber now owner expression work).id,
        { s with tasks := insertTask (nextTask s.lastNumber now owner expression work) s.tasks
                 lastNumber := numberDue s.lastNumber now }) := by
  simp only [enqueue, hgiven]
  rfl

/-! ### Numbers in memory -/

/-- The identifiers of all tasks have numbers of 64 bits, up to the last one that was given out. -/
def IsNumbered (s : MemoryStore) : Prop :=
  ∀ t ∈ s.tasks, ∃ n, IsInt64 n ∧ n ≤ s.lastNumber ∧ t.id = taskId n

section Numbers

variable {s o : MemoryStore}

/-- Changes that keep the identifiers and the counter keep the numbers. No call but one that records
a task does more. -/
theorem IsNumbered.of_ids (h : IsNumbered s) (hlast : o.lastNumber = s.lastNumber)
    (hids : ∀ t ∈ o.tasks, ∃ u ∈ s.tasks, t.id = u.id) : IsNumbered o := by
  intro t ht
  obtain ⟨u, hu, hid⟩ := hids t ht
  rw [hid, hlast]
  exact h u hu

theorem exists_id_of_mem_map {change : Task → Task} (hid : ∀ u, (change u).id = u.id)
    (ht : t ∈ ts.map change) : ∃ u ∈ ts, t.id = u.id := by
  obtain ⟨u, hu, rfl⟩ := List.mem_map.1 ht
  exact ⟨u, hu, hid u⟩

theorem IsNumbered.requeue (h : IsNumbered s) (at_ : Instant) : IsNumbered (s.requeue at_).2 :=
  h.of_ids rfl fun _ ht => exists_id_of_mem_map (fun u => by split_ifs <;> rfl) ht

theorem IsNumbered.updateTask (h : IsNumbered s) (id : String) {change : Task → Task}
    (hid : ∀ u, (change u).id = u.id) :
    IsNumbered { s with tasks := updateTask id change s.tasks } := by
  refine h.of_ids rfl fun _ ht => exists_id_of_mem_map (fun u => ?_) ht
  split_ifs
  · exact hid u
  · rfl

/-- A new task has a number behind all others. Where there is no number for it, it is not
recorded. -/
theorem IsNumbered.enqueue (h : IsNumbered s) (now : Instant) (owner : Int) (expression : String)
    (work : Work) : IsNumbered (s.enqueue now owner expression work).2 := by
  cases hnext : nextNumber s.lastNumber now with
  | none =>
    simp only [MemoryStore.enqueue, hnext]
    exact h
  | some number =>
    have hdue := (nextNumber_eq_some_iff.1 hnext).2
    have hlast := lt_numberDue s.lastNumber now
    simp only [MemoryStore.enqueue, hnext]
    intro t ht
    rcases mem_insertTask ht with rfl | hold
    · exact ⟨number, isInt64_of_nextNumber hnext, le_rfl, rfl⟩
    · obtain ⟨n, hn, hle, hid⟩ := h t hold
      exact ⟨n, hn, show n ≤ number by omega, hid⟩

/-- **One call keeps tasks numbered**, whatever the clock shows. -/
theorem IsNumbered.run (h : IsNumbered s) (c : Call) : IsNumbered (c.run s).2 := by
  obtain ⟨now, command⟩ := c
  cases command with
  | enqueue owner expression work => exact h.enqueue now owner expression work
  | claim lease =>
    show IsNumbered (s.claim now lease).2
    unfold MemoryStore.claim
    split
    · exact h
    · dsimp only
      split
      · exact h.requeue now
      · exact (h.requeue now).updateTask _ fun _ => rfl
  | complete id x =>
    show IsNumbered (s.complete now id x).2
    unfold MemoryStore.complete
    split
    · exact h
    · exact h.updateTask id fun _ => rfl
  | requeue at_ => exact h.requeue at_
  | createUser login passwordHash =>
    show IsNumbered (s.createUser login passwordHash).2
    unfold MemoryStore.createUser
    split <;> exact h
  | get _ => exact h
  | list _ => exact h
  | findUser _ => exact h

theorem IsNumbered.runCalls (h : IsNumbered s) (calls : List Call) :
    IsNumbered (runCalls s calls) := by
  induction calls generalizing s with
  | nil => exact h
  | cons c rest ih => exact ih (h.run c)

/-- Every state that can be got into is numbered. Nothing is assumed of the clock, unlike for
`Sound`. -/
theorem IsReachable.isNumbered (h : s.IsReachable) : IsNumbered s := by
  obtain ⟨calls, rfl⟩ := h
  have hempty : IsNumbered empty := by simp [IsNumbered, empty]
  exact hempty.runCalls calls

/-- **The next number is unused as long as there is one.** No other number is that of a task that
was recorded before, even where identifiers are of different lengths. -/
theorem IsNumbered.isUnused_iff (h : IsNumbered s) {now : Instant} :
    IsUnused s.lastNumber now s.tasks ↔ s.lastNumber + 1 < 2 ^ 63 := by
  constructor
  · intro hunused
    exact (nextNumber_eq_some_iff.1 hunused.given).1
  · intro hroom
    have hgiven := nextNumber_of_room hroom now
    refine ⟨hgiven, fun t ht hid => ?_⟩
    obtain ⟨n, hn, hle, htask⟩ := h t ht
    rw [htask, taskId_inj hn (isInt64_of_nextNumber hgiven)] at hid
    have hlast := lt_numberDue s.lastNumber now
    omega

end Numbers

/-- **The store in memory records tasks**, whoever their owners are. -/
theorem recordsTasks :
    RecordsTasks lastNumber MemoryStore.users MemoryStore.tasks IsNumbered where
  records {s now owner expression work} _ _ _ hunused := by
    show (s.enqueue now owner expression work).1 = _ ∧
      Records _ _ _ s (s.enqueue now owner expression work).2
    rw [enqueue_eq_insertTask hunused.given]
    refine ⟨rfl, ?_, ?_, perm_insertTask hunused.unused, rfl⟩
    · show MemoryStore.get _ _ = _
      rw [MemoryStore.get]
      dsimp only
      rw [find?_insertTask, if_pos rfl]
    · intro id hother
      show MemoryStore.get _ _ = MemoryStore.get _ _
      rw [MemoryStore.get, MemoryStore.get]
      dsimp only
      rw [find?_insertTask, if_neg hother.symm]
  fails {s now owner} expression work h _ hused := by
    -- In memory no number is taken, so there is none left.
    have hnone : nextNumber s.lastNumber now = none :=
      nextNumber_eq_none_iff.2 (h.isUnused_iff.not.1 hused)
    have hresult : Store.enqueue now owner expression work s = (.error .brokenOff, s) := by
      show s.enqueue now owner expression work = _
      simp only [MemoryStore.enqueue, hnone]
    rw [hresult, hnone]
    exact ⟨_, rfl, rfl, rfl, rfl⟩

end MemoryStore

end ArithService
