import Mathlib
import ArithService.Proofs.Store.Memory

/-!
# What is read of tasks

A list of the tasks of a user is determined by the tasks under the identifiers, so two stores
with the same tasks for a user list the same.

## Main Definitions

* `SameTasksOf` — two stores with the same tasks for a user
* `ReadsTasks` — a store that finds tasks one by one and in lists, in the same order always
* `MemoryStore.IsReachable` — a state that the store in memory can get into

## Design Notes

Nothing is asked of the clock. Identifiers may then be in another order than their numbers, but
the order of a list is still a property of its tasks, in memory as on a database; which one it is
does not matter, as long as it tells any two tasks of a list apart.
-/

namespace ArithService

/-- Two stores with the same tasks for a user. -/
def SameTasksOf {σ : Type} [Store σ] (user : Int) (s o : σ) : Prop :=
  ∀ t : Task, t.owner = user → (Store.get t.id s = .ok t ↔ Store.get t.id o = .ok t)

/-- A store that finds tasks one by one and in lists. The tasks of a list are related by an order
that does not depend on the store. -/
structure ReadsTasks {σ : Type} [Store σ] (newer : Task → Task → Prop) (s : σ) : Prop where
  get : ∀ id, (∃ t, Store.get id s = .ok t ∧ t.id = id) ∨ Store.get id s = .error (.noTask id)
  list : ∀ user, ∃ ts, Store.list user s = .ok ts ∧ ts.Pairwise newer ∧
    ∀ t, t ∈ ts ↔ t.owner = user ∧ Store.get t.id s = .ok t

namespace ReadsTasks

variable {σ : Type} [Store σ] {newer : Task → Task → Prop} {s o : σ}

/-- What is found under an identifier is the task of this identifier. -/
theorem id_eq (h : ReadsTasks newer s) {id : String} {t : Task} (hget : Store.get id s = .ok t) :
    t.id = id := by
  rcases h.get id with ⟨u, hsome, hid⟩ | hnone
  · obtain rfl := Except.ok.inj (hget.symm.trans hsome)
    exact hid
  · simp [hnone] at hget

/-- Lists in the same order with the same tasks are the same. The order need not be total: it is
enough that it tells any two of their tasks apart. -/
theorem eq_of_pairwise {ts us : List Task} (hasymm : ∀ t u, newer t u → ¬ newer u t)
    (hts : ts.Pairwise newer) (hus : us.Pairwise newer) (hmem : ∀ t, t ∈ ts ↔ t ∈ us) :
    ts = us := by
  have hnodup : ∀ {vs : List Task}, vs.Pairwise newer → vs.Nodup := fun h =>
    h.imp fun {t u} hnewer => by
      rintro rfl
      exact hasymm t t hnewer hnewer
  have hperm : ts.Perm us := (List.perm_ext_iff_of_nodup (hnodup hts) (hnodup hus)).2 hmem
  exact hperm.eq_of_pairwise (fun t u _ _ htu hut => absurd hut (hasymm t u htu)) hts hus

/-- **Stores with the same tasks for a user list the same tasks.** What other users have leaves no
trace in a list. -/
theorem list_eq (hs : ReadsTasks newer s) (ho : ReadsTasks newer o)
    (hasymm : ∀ t u, newer t u → ¬ newer u t) {user : Int} (hsame : SameTasksOf user s o) :
    Store.list user s = Store.list user o := by
  obtain ⟨ts, hts, htsOrder, htsMem⟩ := hs.list user
  obtain ⟨us, hus, husOrder, husMem⟩ := ho.list user
  rw [hts, hus]
  refine congrArg _ (eq_of_pairwise hasymm htsOrder husOrder fun t => ?_)
  rw [htsMem, husMem]
  exact and_congr_right fun howner => hsame t howner

/-- Stores that list the same tasks have the same tasks, so lists say all there is to know of
them. -/
theorem sameTasksOf (hs : ReadsTasks newer s) (ho : ReadsTasks newer o) {user : Int}
    (hlist : Store.list user s = Store.list user o) : SameTasksOf user s o := by
  obtain ⟨ts, hts, -, htsMem⟩ := hs.list user
  obtain ⟨us, hus, -, husMem⟩ := ho.list user
  rw [hts, hus] at hlist
  obtain rfl := Except.ok.inj hlist
  intro t howner
  have hmem := (htsMem t).symm.trans (husMem t)
  simpa only [howner, true_and] using hmem

end ReadsTasks

namespace MemoryStore

/-- A state that the store in memory can get into, whatever the clock shows. -/
def IsReachable (s : MemoryStore) : Prop := ∃ calls, runCalls empty calls = s

variable {s : MemoryStore}

theorem mem_insertTask {t u : Task} {ts : List Task} (h : u ∈ insertTask t ts) :
    u = t ∨ u ∈ ts := by
  induction ts with
  | nil => exact .inl (by simpa [insertTask] using h)
  | cons v rest ih =>
    rw [insertTask] at h
    split_ifs at h with hbefore hsame
    · simpa using h
    · rcases List.mem_cons.1 h with rfl | h
      · exact .inl rfl
      · exact .inr (by simp [h])
    · rcases List.mem_cons.1 h with rfl | h
      · exact .inr (by simp)
      · exact (ih h).imp_right fun hrest => by simp [hrest]

/-- A task is put at its place in the order of identifiers, whatever its identifier is. So there is
an order even where numbers are of different lengths. -/
theorem pairwise_insertTask (t : Task) {ts : List Task} (h : ts.Pairwise (·.id < ·.id)) :
    (insertTask t ts).Pairwise (·.id < ·.id) := by
  induction ts with
  | nil => simp [insertTask]
  | cons v rest ih =>
    obtain ⟨hfirst, hrest⟩ := List.pairwise_cons.1 h
    rw [insertTask]
    split_ifs with hbefore hsame
    · refine List.pairwise_cons.2 ⟨fun u hu => ?_, h⟩
      rcases List.mem_cons.1 hu with rfl | hu
      · exact hbefore
      · exact hbefore.trans (hfirst u hu)
    · exact List.pairwise_cons.2 ⟨fun u hu => hsame ▸ hfirst u hu, hrest⟩
    · refine List.pairwise_cons.2 ⟨fun u hu => ?_, ih hrest⟩
      rcases mem_insertTask hu with rfl | hu
      · exact lt_of_le_of_ne (not_lt.1 hbefore) (Ne.symm hsame)
      · exact hfirst u hu

/-- Changes that keep identifiers keep the order. -/
theorem pairwise_map {ts : List Task} (h : ts.Pairwise (·.id < ·.id)) {change : Task → Task}
    (hid : ∀ t, (change t).id = t.id) : (ts.map change).Pairwise (·.id < ·.id) :=
  List.pairwise_map.2 (h.imp fun hlt => by rwa [hid, hid])

theorem pairwise_updateTask {ts : List Task} (h : ts.Pairwise (·.id < ·.id)) (id : String)
    {change : Task → Task} (hid : ∀ t, (change t).id = t.id) :
    (updateTask id change ts).Pairwise (·.id < ·.id) := by
  refine pairwise_map h fun t => ?_
  split_ifs
  · exact hid t
  · rfl

theorem pairwise_requeue (h : s.tasks.Pairwise (·.id < ·.id)) (at_ : Instant) :
    (s.requeue at_).2.tasks.Pairwise (·.id < ·.id) := by
  refine pairwise_map h fun t => ?_
  split_ifs <;> rfl

/-- Tasks stay in the order of their identifiers, by one call and so by all. -/
theorem pairwise_run (h : s.tasks.Pairwise (·.id < ·.id)) (c : Call) :
    (c.run s).2.tasks.Pairwise (·.id < ·.id) := by
  obtain ⟨now, command⟩ := c
  cases command with
  | enqueue owner expression work =>
    show (s.enqueue now owner expression work).2.tasks.Pairwise _
    unfold enqueue
    split
    · exact h
    · exact pairwise_insertTask _ h
  | claim lease =>
    show (s.claim now lease).2.tasks.Pairwise _
    unfold claim
    split
    · exact h
    · dsimp only
      split
      · exact pairwise_requeue h now
      · exact pairwise_updateTask (pairwise_requeue h now) _ fun _ => rfl
  | complete id x =>
    show (s.complete now id x).2.tasks.Pairwise _
    unfold complete
    split
    · exact h
    · exact pairwise_updateTask h _ fun _ => rfl
  | requeue at_ => exact pairwise_requeue h at_
  | createUser login passwordHash =>
    show (s.createUser login passwordHash).2.tasks.Pairwise _
    unfold createUser
    split <;> exact h
  | get _ => exact h
  | list _ => exact h
  | findUser _ => exact h

theorem pairwise_runCalls (h : s.tasks.Pairwise (·.id < ·.id)) (calls : List Call) :
    (runCalls s calls).tasks.Pairwise (·.id < ·.id) := by
  induction calls generalizing s with
  | nil => exact h
  | cons c rest ih => exact ih (pairwise_run h c)

/-- In memory, tasks are listed from the greatest identifier down, and a lookup finds what is in the
lists. -/
theorem IsReachable.readsTasks (h : s.IsReachable) :
    ReadsTasks (fun t u => u.id < t.id) s where
  get id := get_cases id s
  list user := by
    obtain ⟨calls, rfl⟩ := h
    have hsorted : (runCalls empty calls).tasks.Pairwise (·.id < ·.id) :=
      pairwise_runCalls (by simp [empty]) calls
    have hdistinct : ((runCalls empty calls).tasks.map (·.id)).Nodup :=
      List.pairwise_map.2 (hsorted.imp fun hlt => ne_of_lt hlt)
    refine ⟨_, rfl, (List.pairwise_reverse.2 hsorted).filter _, fun t => ?_⟩
    show t ∈ (runCalls empty calls).tasks.reverse.filter (·.owner = user) ↔ _
    rw [← Store.task?_eq_some_iff, task?_eq, find?_eq_some_iff_mem hdistinct]
    simp [and_comm]

end MemoryStore

end ArithService
