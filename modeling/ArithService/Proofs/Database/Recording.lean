import Mathlib
import ArithService.Proofs.Database.Users
import ArithService.Proofs.Store.Recording

/-!
# What recording a task changes on a database

## Design Notes

An insertion is checked against the identifiers in the table and against the users. In a regular
store these are the only ways in which it can fail (`Regular.enqueue_eq`, `Regular.enqueue_taken`).
-/

namespace ArithService

namespace DatabaseStore

variable {s : DatabaseStore}

/-- A number is unused if no row has its identifier. What is checked at insertion are rows, and what
`IsUnused` speaks of are tasks; in a regular store each row is the row of a task. -/
theorem Regular.rows_of_isUnused (h : Regular s) {now : Instant}
    (hunused : IsUnused s.lastNumber now s.tasks) :
    (rows s.database).any (·.id = some (taskId (numberDue s.lastNumber now))) = false := by
  rw [List.any_eq_false]
  intro r hr
  rw [(h.readable.rows r hr).id_eq]
  simpa using hunused.unused r.task (List.mem_map_of_mem hr)

/-- A user is known to the database by the row for the user. -/
theorem Regular.isUser_eq (h : Regular s) {owner : Int} (howner : ∃ u ∈ s.users, u.id = owner) :
    s.database.isUser owner = .ok true := by
  rw [Database.isUser, h.table]
  simpa using howner

/-- A task of a known user is recorded in a row at the end, if its number is unused. -/
theorem Regular.enqueue_eq (h : Regular s) {now : Instant} {owner : Int}
    (howner : ∃ u ∈ s.users, u.id = owner) (hunused : IsUnused s.lastNumber now s.tasks)
    (expression : String) (work : Work) :
    s.enqueue now owner expression work =
      (.ok (nextTask s.lastNumber now owner expression work).id,
        { s.withRows (rows s.database ++
            [.ofTask (nextTask s.lastNumber now owner expression work)]) with
          lastNumber := numberDue s.lastNumber now }) := by
  simp only [DatabaseStore.enqueue, hunused.given, TaskRow.ofTask, Task.fresh, h.isUser_eq howner,
    Database.insertTask_eq h.readable.table h.readable.triggers, h.rows_of_isUnused hunused,
    Option.isSome_some]
  rfl

/-- Where the number is taken, the table refuses the row, and only the number is used up. -/
theorem Regular.enqueue_taken (h : Regular s) {now : Instant} {owner : Int}
    (howner : ∃ u ∈ s.users, u.id = owner)
    (hgiven : nextNumber s.lastNumber now = some (numberDue s.lastNumber now))
    (htaken : ∃ t ∈ s.tasks, t.id = taskId (numberDue s.lastNumber now)) (expression : String)
    (work : Work) :
    s.enqueue now owner expression work =
      (.error (queryFault "enqueue" (.notUnique "tasks.id")),
        { s with lastNumber := numberDue s.lastNumber now }) := by
  have hrow : (rows s.database).any
      (·.id = some (taskId (numberDue s.lastNumber now))) = true := by
    obtain ⟨t, ht, hid⟩ := htaken
    obtain ⟨r, hr, rfl⟩ := List.mem_map.1 ht
    rw [List.any_eq_true]
    exact ⟨r, hr, by rw [(h.readable.rows r hr).id_eq, hid, decide_eq_true_eq]⟩
  simp only [DatabaseStore.enqueue, hgiven, TaskRow.ofTask, Task.fresh, h.isUser_eq howner,
    Database.insertTask_eq h.readable.table h.readable.triggers, hrow, Option.isSome_some,
    Bool.and_self, if_true]

/-- A task behind the others is found, and the others as before. No row is found twice, as the new
identifier is not among the old ones. -/
theorem Readable.get_append {o : DatabaseStore} (h : Readable s) (ho : Readable o) {t : Task}
    (htasks : o.tasks = s.tasks ++ [t]) (hnew : ∀ u ∈ s.tasks, u.id ≠ t.id) :
    o.get t.id = .ok t ∧ ∀ id, id ≠ t.id → o.get id = s.get id := by
  constructor
  · have hnone : s.tasks.find? (·.id = t.id) = none := by
      rw [List.find?_eq_none]
      intro u hu
      simpa using hnew u hu
    rw [ho.get_eq, htasks, List.find?_append, hnone]
    simp
  · intro id hother
    rw [ho.get_eq, h.get_eq, htasks, List.find?_append,
      List.find?_cons_of_neg (by simpa using hother.symm), List.find?_nil, Option.or_none]

/-- **The store on a database records tasks.** -/
theorem recordsTasks :
    RecordsTasks lastNumber DatabaseStore.users DatabaseStore.tasks Regular where
  records {s now owner expression work} h hwork howner hunused := by
    have hafter := h.readable.enqueue now owner expression work
    show (s.enqueue now owner expression work).1 = _ ∧
      Records _ _ _ s (s.enqueue now owner expression work).2
    have htasks : (s.enqueue now owner expression work).2.tasks =
        s.tasks ++ [nextTask s.lastNumber now owner expression work] := by
      rw [h.enqueue_eq howner hunused]
      show (rows s.database ++ [_]).map TaskRow.task = _
      rw [List.map_append, List.map_singleton, nextTask,
        TaskRow.task_ofTask (isInt64_of_nextNumber hunused.given),
        Retention.isFaithful_columns.submitted_fresh hwork]
      rfl
    obtain ⟨hfound, hothers⟩ := h.readable.get_append hafter htasks hunused.unused
    refine ⟨?_, hfound, hothers, ?_, ?_⟩
    · rw [h.enqueue_eq howner hunused]
    · rw [htasks]
      exact List.perm_append_singleton _ _
    · rw [h.enqueue_eq howner hunused]
      rfl
  fails {s now owner} expression work h howner hused := by
    show ∃ e, (s.enqueue now owner expression work).1 = _ ∧ _ ∧
      (s.enqueue now owner expression work).2.tasks = _ ∧
      (s.enqueue now owner expression work).2.users = _
    by_cases hroom : s.lastNumber + 1 < 2 ^ 63
    · have hgiven := nextNumber_of_room hroom now
      have htaken : ∃ t ∈ s.tasks, t.id = taskId (numberDue s.lastNumber now) := by
        by_contra hfree
        push Not at hfree
        exact hused ⟨hgiven, hfree⟩
      rw [h.enqueue_taken howner hgiven htaken, hgiven]
      exact ⟨_, rfl, ⟨_, rfl⟩, rfl, rfl⟩
    · have hnone : nextNumber s.lastNumber now = none := nextNumber_eq_none_iff.2 hroom
      have hresult : s.enqueue now owner expression work = (.error .brokenOff, s) := by
        simp only [DatabaseStore.enqueue, hnone]
      rw [hresult, hnone]
      exact ⟨_, rfl, rfl, rfl, rfl⟩

/-- The number that is due is unused. -/
theorem Sound.isUnused {last : Int} (h : Sound last s) {now : Instant}
    (hdue : IsTaskNumber (numberDue last now)) : IsUnused s.lastNumber now s.tasks := by
  rw [h.number]
  exact ⟨nextNumber_eq hdue, fun t ht => ne_of_lt (h.id_lt hdue ht)⟩

end DatabaseStore

end ArithService
