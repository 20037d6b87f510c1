import Mathlib
import ArithService.Proofs.Store.Memory

/-!
# Identifiers tell the order of creation

The identifiers that a store gives out grow, as texts and as numbers, and the number in an
identifier is the time at which its task was created.

## Main Definitions

* `newIds` — the identifiers given out in a run
* `CreationOrder` — what identifiers say about the tasks of a store
* `CreatedUnder` — tasks that were created under given identifiers

## Design Notes

The invariant is about a list of tasks: it holds the identifiers given out so far, in order, and
each identifier is the one of its time of creation. A call appends the identifier that it gives
out and touches neither identifiers nor times of creation otherwise, so that both stores share
all lemmas but the one that goes through their operations (`Sound.createdUnder_run`).
-/

namespace ArithService

/-! ### Identifiers that are given out -/

/-- The identifier that an answer gives out. -/
def StoreAnswer.newId? : StoreAnswer → Option String
  | .taskId id => some id
  | _ => none

theorem StoreAnswer.newId?_ofResult {α : Type} {succeeded : α → StoreAnswer}
    (h : ∀ x, (succeeded x).newId? = none) (result : Except StoreError α) :
    (ofResult succeeded result).newId? = none := by
  cases result with
  | ok x => exact h x
  | error e => rfl

section Runs

variable {σ : Type} [Store σ]

/-- The identifiers given out in a run, in order. -/
def newIds (s : σ) (calls : List Call) : List String :=
  (answers s calls).filterMap StoreAnswer.newId?

theorem newIds_cons (s : σ) (c : Call) (rest : List Call) :
    newIds s (c :: rest) = (c.run s).1.newId?.toList ++ newIds (c.run s).2 rest := by
  rw [newIds, answers, List.filterMap_cons]
  cases (c.run s).1.newId? <;> rfl

/-- Only recording a task gives out an identifier, so a run can be counted by its calls. -/
theorem Call.newId?_run {c : Call} (hcommand : c.isEnqueue = false) (s : σ) :
    (c.run s).1.newId? = none := by
  obtain ⟨now, command⟩ := c
  cases command with
  | enqueue _ _ _ => simp [Call.isEnqueue] at hcommand
  | claim _ => exact StoreAnswer.newId?_ofResult (fun _ => rfl) _
  | complete _ _ => exact StoreAnswer.newId?_ofResult (fun _ => rfl) _
  | get _ => exact StoreAnswer.newId?_ofResult (fun _ => rfl) _
  | list _ => exact StoreAnswer.newId?_ofResult (fun _ => rfl) _
  | requeue _ => exact StoreAnswer.newId?_ofResult (fun _ => rfl) _
  | createUser _ _ => exact StoreAnswer.newId?_ofResult (fun _ => rfl) _
  | findUser _ => exact StoreAnswer.newId?_ofResult (fun _ => rfl) _

/-- What the identifiers given out so far, in order, say about the tasks of a store. -/
structure CreationOrder (ids : List String) (s : σ) : Prop where
  /-- Every identifier is greater than all before it, as a text and as a number. -/
  increasing : ids.Pairwise fun a b =>
    a < b ∧ ∃ m n, taskNumber a = some m ∧ taskNumber b = some n ∧ m < n
  /-- No identifier is given out twice. -/
  distinct : ids.Nodup
  /-- There is a task under every identifier that was given out, and under no other. -/
  recorded : ∀ id, id ∈ ids ↔ ∃ t, Store.get id s = .ok t
  /-- The number in an identifier is the time of creation. -/
  dated : ∀ id t, Store.get id s = .ok t →
    t.id = id ∧ id = taskId t.createdAt.nanoseconds ∧
      taskNumber id = some t.createdAt.nanoseconds
  /-- The texts of the times of creation are in the order of the identifiers. -/
  ordered : ∀ a b t u, Store.get a s = .ok t → Store.get b s = .ok u →
    (t.createdAt.text < u.createdAt.text ↔ a < b)

end Runs

/-! ### Tasks created under identifiers -/

/-- A task whose identifier is the one of its time of creation. -/
def Task.IsDated (t : Task) : Prop :=
  ∃ n, IsTaskNumber n ∧ t.id = taskId n ∧ t.createdAt = .ofNanoseconds n

/-- Tasks that were created under the given identifiers, in the same order. -/
structure CreatedUnder (ids : List String) (ts : List Task) : Prop where
  ids : ts.map (·.id) = ids
  dated : ∀ t ∈ ts, t.IsDated

namespace CreatedUnder

variable {ids : List String} {ts : List Task}

theorem nil : CreatedUnder [] [] := ⟨rfl, by simp⟩

/-- Changes that keep identifiers and times of creation. Handing out and completing are of this
form. -/
theorem map (h : CreatedUnder ids ts) {change : Task → Task} (hid : ∀ t, (change t).id = t.id)
    (hcreated : ∀ t, (change t).createdAt = t.createdAt) :
    CreatedUnder ids (ts.map change) where
  ids := by
    rw [List.map_map, ← h.ids]
    exact List.map_congr_left fun t _ => hid t
  dated t ht := by
    obtain ⟨u, hu, rfl⟩ := List.mem_map.1 ht
    obtain ⟨n, hnumber, hunder, htime⟩ := h.dated u hu
    exact ⟨n, hnumber, (hid u).trans hunder, (hcreated u).trans htime⟩

theorem updateTask (h : CreatedUnder ids ts) (id : String) {change : Task → Task}
    (hid : ∀ t, (change t).id = t.id) (hcreated : ∀ t, (change t).createdAt = t.createdAt) :
    CreatedUnder ids (MemoryStore.updateTask id change ts) := by
  refine h.map (fun t => ?_) fun t => ?_
  · split_ifs
    · exact hid t
    · rfl
  · split_ifs
    · exact hcreated t
    · rfl

/-- Taking back leases. -/
theorem requeue (h : CreatedUnder ids ts) {at_ : Instant} {after : List Task}
    (hrequeued : List.Forall₂ (Task.RequeuedAs at_) ts after) : CreatedUnder ids after := by
  induction hrequeued generalizing ids with
  | nil => exact h
  | @cons t u rest after hfirst _ ih =>
    have hrest : CreatedUnder (rest.map (·.id)) after :=
      ih ⟨rfl, fun v hv => h.dated v (by simp [hv])⟩
    have hdated : u.IsDated := by
      obtain ⟨n, hnumber, hunder, htime⟩ := h.dated t (by simp)
      refine ⟨n, hnumber, hfirst.id_eq.trans hunder, ?_⟩
      rcases hfirst with rfl | ⟨-, rfl⟩
      · exact htime
      · exact htime
    constructor
    · rw [← h.ids, List.map_cons, List.map_cons, hfirst.id_eq, hrest.ids]
    · intro v hv
      rcases List.mem_cons.1 hv with rfl | hv
      · exact hdated
      · exact hrest.dated v hv

/-- One more task, under the identifier of its time of creation. It is put behind the others, where
the greatest one belongs. -/
theorem record (h : CreatedUnder ids ts) {n : Int} (hnumber : IsTaskNumber n) {t : Task}
    (hid : t.id = taskId n) (hcreated : t.createdAt = .ofNanoseconds n) :
    CreatedUnder (ids ++ [taskId n]) (ts ++ [t]) where
  ids := by rw [List.map_append, h.ids, List.map_singleton, hid]
  dated u hu := by
    rcases List.mem_append.1 hu with hu | hu
    · exact h.dated u hu
    · rw [List.mem_singleton.1 hu]
      exact ⟨n, hnumber, hid, hcreated⟩

/-- Every identifier is the one of some number. -/
theorem exists_number (h : CreatedUnder ids ts) {id : String} (hid : id ∈ ids) :
    ∃ n, IsTaskNumber n ∧ id = taskId n := by
  rw [← h.ids] at hid
  obtain ⟨t, ht, rfl⟩ := List.mem_map.1 hid
  obtain ⟨n, hnumber, hunder, -⟩ := h.dated t ht
  exact ⟨n, hnumber, hunder⟩

/-- A store that finds such tasks by their identifiers, and holds them in order, tells the order of
creation. Nothing else has to be known of the store. -/
theorem creationOrder {σ : Type} [Store σ] {s : σ} (h : CreatedUnder ids ts)
    (hsorted : ts.Pairwise (·.id < ·.id))
    (hfind : ∀ id, Store.task? id s = ts.find? (·.id = id)) : CreationOrder ids s := by
  have hids : ids.Pairwise (· < ·) := by
    rw [← h.ids]
    exact List.pairwise_map.2 hsorted
  have hget : ∀ {id : String} {t : Task}, Store.get id s = .ok t → t ∈ ts ∧ t.id = id := by
    intro id t hget
    have htask := Store.task?_eq_some_iff.2 hget
    rw [hfind] at htask
    exact ⟨List.mem_of_find?_eq_some htask, by simpa using List.find?_some htask⟩
  refine ⟨hids.imp_of_mem fun {a b} ha hb hlt => ⟨hlt, ?_⟩, hids.imp fun hlt => ne_of_lt hlt,
    fun id => ⟨fun hid => ?_, ?_⟩, fun id t ht => ?_, fun a b t u ht hu => ?_⟩
  · obtain ⟨m, hm, rfl⟩ := h.exists_number ha
    obtain ⟨n, hn, rfl⟩ := h.exists_number hb
    exact ⟨m, n, taskNumber_taskId hm.isInt64, taskNumber_taskId hn.isInt64,
      (taskId_lt_iff hm hn).1 hlt⟩
  · rw [← h.ids] at hid
    obtain ⟨t, ht, rfl⟩ := List.mem_map.1 hid
    have hdistinct : (ts.map (·.id)).Nodup :=
      List.pairwise_map.2 (hsorted.imp fun hlt => ne_of_lt hlt)
    exact ⟨t, Store.task?_eq_some_iff.1
      ((hfind _).trans ((find?_eq_some_iff_mem hdistinct).2 ht))⟩
  · rintro ⟨t, ht⟩
    rw [← h.ids, ← (hget ht).2]
    exact List.mem_map_of_mem (hget ht).1
  · obtain ⟨hmem, rfl⟩ := hget ht
    obtain ⟨n, hnumber, hunder, htime⟩ := h.dated t hmem
    rw [htime, Instant.nanoseconds_ofNanoseconds, hunder]
    exact ⟨rfl, rfl, taskNumber_taskId hnumber.isInt64⟩
  · obtain ⟨htMem, rfl⟩ := hget ht
    obtain ⟨huMem, rfl⟩ := hget hu
    obtain ⟨m, hm, htUnder, htTime⟩ := h.dated t htMem
    obtain ⟨n, hn, huUnder, huTime⟩ := h.dated u huMem
    rw [htTime, huTime, htUnder, huUnder, taskId_lt_iff hm hn,
      Instant.text_ofNanoseconds_lt_iff (Instant.isPlain_ofNanoseconds hm.isInt64)
        (Instant.isPlain_ofNanoseconds hn.isInt64)]

end CreatedUnder

/-! ### The store in memory -/

namespace MemoryStore

variable {last : Int} {s : MemoryStore} {ids : List String}

/-- A call appends the identifier that it gives out. -/
theorem Sound.createdUnder_run (h : Sound last s) (hids : CreatedUnder ids s.tasks) {c : Call}
    (hfits : c.NumberFits last) :
    CreatedUnder (ids ++ (c.run s).1.newId?.toList) (c.run s).2.tasks := by
  by_cases henqueue : c.isEnqueue = true
  · obtain ⟨now, command⟩ := c
    cases command with
    | enqueue owner expression work =>
      have hrun : Call.run ⟨now, .enqueue owner expression work⟩ s =
          (.ofResult .taskId (s.enqueue now owner expression work).1,
            (s.enqueue now owner expression work).2) := rfl
      rw [hrun, h.enqueue_eq (hfits rfl)]
      exact hids.record (hfits rfl) rfl rfl
    | _ => simp [Call.isEnqueue] at henqueue
  · rw [Call.newId?_run (by simpa using henqueue), Option.toList_none, List.append_nil]
    obtain ⟨now, command⟩ := c
    cases command with
    | enqueue _ _ _ => exact absurd rfl henqueue
    | claim lease =>
      show CreatedUnder ids (s.claim now lease).2.tasks
      unfold MemoryStore.claim
      split
      · exact hids
      · have hswept : CreatedUnder ids (s.requeue now).2.tasks := hids.requeue (requeuedAs now s)
        dsimp only
        split
        · exact hswept
        · exact hswept.updateTask _ (fun _ => rfl) fun _ => rfl
    | complete id x =>
      show CreatedUnder ids (s.complete now id x).2.tasks
      unfold MemoryStore.complete
      split
      · exact hids
      · exact hids.updateTask _ (fun _ => rfl) fun _ => rfl
    | requeue at_ => exact hids.requeue (requeuedAs at_ s)
    | createUser login passwordHash =>
      show CreatedUnder ids (s.createUser login passwordHash).2.tasks
      unfold MemoryStore.createUser
      split <;> exact hids
    | get _ => exact hids
    | list _ => exact hids
    | findUser _ => exact hids

/-- In memory every task is recorded that there is a number for. On a database an unknown owner uses
up a number in vain. -/
theorem Sound.length_newIds {calls : List Call} (h : Sound last s) (hfit : NumbersFit last calls) :
    (newIds s calls).length = calls.countP Call.isEnqueue := by
  induction calls generalizing last s with
  | nil => rfl
  | cons c rest ih =>
    have hfirst : (c.run s).1.newId?.toList.length = if c.isEnqueue then 1 else 0 := by
      have hnumber := hfit.1
      obtain ⟨now, command⟩ := c
      cases command with
      | enqueue owner expression work =>
        have hrun : (Call.run ⟨now, .enqueue owner expression work⟩ s).1 =
            .ofResult .taskId (s.enqueue now owner expression work).1 := rfl
        rw [hrun, h.enqueue_eq (hnumber rfl)]
        rfl
      | _ => rw [Call.newId?_run rfl]; rfl
    rw [newIds_cons, List.length_append, ih (h.run hfit.1) hfit.2, hfirst, List.countP_cons,
      Nat.add_comm]

/-- A run appends the identifiers that it gives out, by induction over its calls. -/
theorem Sound.createdUnder_runCalls {calls : List Call} (h : Sound last s)
    (hids : CreatedUnder ids s.tasks) (hfit : NumbersFit last calls) :
    Sound (numberAfter last calls) (runCalls s calls) ∧
      CreatedUnder (ids ++ newIds s calls) (runCalls s calls).tasks := by
  induction calls generalizing last s ids with
  | nil => exact ⟨h, by simpa [newIds, answers, runCalls] using hids⟩
  | cons c rest ih =>
    obtain ⟨hfirst, hrest⟩ := hfit
    rw [newIds_cons, ← List.append_assoc]
    exact ih (h.run hfirst) (h.createdUnder_run hids hfirst) hrest

end MemoryStore

end ArithService
