import Mathlib
import ArithService.Proofs.Store.Creation

/-!
# Draining a store

Claims, one after the other, hand out the pending tasks from the oldest to the latest, each once,
and then nothing, as long as no lease ends meanwhile. Where leases do end, each claim still hands
out the oldest task that is pending once they were taken back. Lists show the tasks of an owner from
the latest to the oldest, each once.

## Main Definitions

* `OldestFirst` — the tasks of a store that meet a condition, in the order of their creation
* `GrantedClaim` — a claim with the deadline of its lease
* `handOuts` — the answers of claims that drain a list of tasks
* `DrainsInOrder` — what claims and lists are answered
* `KeepsOrder` — how a store keeps its tasks in order

## Main Results

* `filter_pending_handOut` — handing out the first pending task leaves the others
* `KeepsOrder.answers_claims` — claims one after the other
* `KeepsOrder.drainsInOrder` — a store that keeps its tasks in order drains in order

## Design Notes

The induction is over the claims, and the pending tasks get fewer by one with each. It carries all
tasks, as a lease that was there before must not end during the later claims either.
-/

namespace ArithService

/-! ### Tasks in order -/

section Order

variable {σ : Type} [Store σ]

/-- The tasks of a store that meet a condition, each once, in the order of their creation, which is
the order of their identifiers. -/
structure OldestFirst (s : σ) (p : Task → Prop) (ts : List Task) : Prop where
  mem : ∀ t, t ∈ ts ↔ Store.get t.id s = .ok t ∧ p t
  ordered : ts.Pairwise fun t u =>
    t.id < u.id ∧ t.createdAt.nanoseconds < u.createdAt.nanoseconds

/-- Identifiers of dated tasks are ordered as their times of creation. -/
theorem Task.IsDated.id_lt_iff {t u : Task} (ht : t.IsDated) (hu : u.IsDated) :
    t.id < u.id ↔ t.createdAt.nanoseconds < u.createdAt.nanoseconds := by
  obtain ⟨m, hm, htId, htTime⟩ := ht
  obtain ⟨n, hn, huId, huTime⟩ := hu
  rw [htId, huId, htTime, huTime, taskId_lt_iff hm hn, Instant.nanoseconds_ofNanoseconds,
    Instant.nanoseconds_ofNanoseconds]

end Order

/-! ### Claims -/

/-- A claim whose lease ends in the supported range of dates. -/
structure GrantedClaim where
  now : Instant
  lease : Span
  deadline : Instant
  granted : now.add? lease = some deadline

namespace GrantedClaim

/-- The call. -/
def call (c : GrantedClaim) : Call := ⟨c.now, .claim c.lease⟩

/-- A task as the claim hands it out. -/
def handOut (c : GrantedClaim) (t : Task) : Task := MemoryStore.claimed c.now c.deadline t

/-- Whether the claim is within the years 0 to 9999. -/
structure IsPlain (c : GrantedClaim) : Prop where
  now : c.now.IsPlain
  deadline : c.deadline.IsPlain

/-- Tasks after the first pending one was handed out. -/
def handOutFrom (c : GrantedClaim) (ts : List Task) : List Task :=
  match ts.find? (·.status = .pending) with
  | none => ts
  | some t => MemoryStore.updateTask t.id c.handOut ts

end GrantedClaim

/-- The answers of claims that hand out the tasks of a list, one after the other. -/
def handOuts : List GrantedClaim → List Task → List StoreAnswer
  | [], _ => []
  | c :: rest, ts => .claimed (ts.head?.map c.handOut) :: handOuts rest ts.tail

/-- Where no task has the identifier, nothing is changed. -/
theorem updateTask_of_notMem {id : String} {ts : List Task} (h : ∀ t ∈ ts, t.id ≠ id)
    (change : Task → Task) : MemoryStore.updateTask id change ts = ts :=
  (List.map_congr_left fun t ht => if_neg (h t ht)).trans (List.map_id _)

/-- Where the first pending task is changed and no longer pending, the other pending ones are
left. -/
theorem filter_pending_updateTask {ts : List Task} (hsorted : ts.Pairwise (·.id < ·.id)) {t : Task}
    (hfirst : ts.find? (·.status = .pending) = some t) {change : Task → Task}
    (hchange : (change t).status ≠ .pending) :
    (MemoryStore.updateTask t.id change ts).filter (·.status = .pending) =
      (ts.filter (·.status = .pending)).tail := by
  induction ts with
  | nil => simp at hfirst
  | cons u rest ih =>
    obtain ⟨hbefore, hrest⟩ := List.pairwise_cons.1 hsorted
    have hcons : MemoryStore.updateTask t.id change (u :: rest) =
        (if u.id = t.id then change u else u) :: MemoryStore.updateTask t.id change rest := rfl
    by_cases hpending : u.status = .pending
    · -- The first task is changed, and no other task has its identifier.
      obtain rfl : u = t := by simpa [hpending] using hfirst
      rw [hcons, if_pos rfl, updateTask_of_notMem fun v hv => ne_of_gt (hbefore v hv),
        List.filter_cons_of_neg (by simpa using hchange),
        List.filter_cons_of_pos (by simpa using hpending), List.tail_cons]
    · have hlater : rest.find? (·.status = .pending) = some t := by
        simpa [hpending] using hfirst
      have hother : u.id ≠ t.id := ne_of_lt (hbefore t (List.mem_of_find?_eq_some hlater))
      rw [hcons, if_neg hother, List.filter_cons_of_neg (by simpa using hpending),
        List.filter_cons_of_neg (by simpa using hpending), ih hrest hlater]

/-- **Handing out the first pending task leaves the other pending ones.** -/
theorem filter_pending_handOut {ts : List Task} (hsorted : ts.Pairwise (·.id < ·.id))
    (c : GrantedClaim) :
    (c.handOutFrom ts).filter (·.status = .pending) =
      (ts.filter (·.status = .pending)).tail := by
  unfold GrantedClaim.handOutFrom
  cases hfirst : ts.find? (·.status = .pending) with
  | none =>
    have hnone : ts.filter (·.status = .pending) = [] :=
      List.filter_eq_nil_iff.2 (List.find?_eq_none.1 hfirst)
    simp only [hnone, List.tail_nil]
  | some t =>
    exact filter_pending_updateTask hsorted hfirst
      (by simp [GrantedClaim.handOut, MemoryStore.claimed])

/-- No lease of tasks has ended by an instant. -/
def NoLeaseEndsBy (at_ : Instant) (ts : List Task) : Prop :=
  ∀ t ∈ ts, ∀ deadline, t.leaseExpiresAt = some deadline → deadline.atMost at_ = false

/-- Of the leases after a claim, one is new. -/
theorem noLeaseEndsBy_handOutFrom {ts : List Task} {at_ : Instant} (h : NoLeaseEndsBy at_ ts)
    {c : GrantedClaim} (hlease : c.deadline.atMost at_ = false) :
    NoLeaseEndsBy at_ (c.handOutFrom ts) := by
  unfold GrantedClaim.handOutFrom
  split
  · exact h
  · intro t ht deadline hdeadline
    obtain ⟨u, hu, rfl⟩ := List.mem_map.1 ht
    split_ifs at hdeadline
    · obtain rfl : c.deadline = deadline := Option.some.inj hdeadline
      exact hlease
    · exact h u hu deadline hdeadline

/-! ### Stores -/

section Stores

variable {σ : Type} [Store σ]

/-- What claims and lists are answered in a state of a store. -/
structure DrainsInOrder (s : σ) : Prop where
  /-- While no lease ends, claims hand out the pending tasks, the oldest first, and then nothing. -/
  drain : ∃ pending, OldestFirst s (·.status = .pending) pending ∧
    ∀ claims : List GrantedClaim, (∀ c ∈ claims, c.IsPlain) →
      (∀ c ∈ claims, ∀ t, Store.get t.id s = .ok t → ∀ deadline,
        t.leaseExpiresAt = some deadline → deadline.atMost c.now = false) →
      (claims.Pairwise fun c later => c.deadline.atMost later.now = false) →
      answers s (claims.map GrantedClaim.call) = handOuts claims pending
  /-- A claim hands out the oldest of the tasks that are pending once leases were taken back. -/
  claim : ∀ c : GrantedClaim, c.IsPlain → ∃ pending,
    OldestFirst (Store.requeue c.now s).2 (·.status = .pending) pending ∧
    (Store.claim c.now c.lease s).1 = .ok (pending.head?.map c.handOut)
  /-- A list shows all tasks of an owner, the latest first. -/
  list : ∀ owner, ∃ ts, Store.list owner s = .ok ts ∧ OldestFirst s (·.owner = owner) ts.reverse

/-- A store keeps its tasks in the order of their identifiers: what this comes to where they are
looked up, taken back, handed out and listed, in states with an invariant. -/
structure KeepsOrder (tasks : σ → List Task) (I : σ → Prop) : Prop where
  find {s : σ} : I s → ∀ id, Store.task? id s = (tasks s).find? (·.id = id)
  sorted {s : σ} : I s → (tasks s).Pairwise (·.id < ·.id)
  dated {s : σ} : I s → ∀ t ∈ tasks s, t.IsDated
  requeue {s : σ} (at_ : Instant) : I s → I (Store.requeue at_ s).2
  requeue_self {s : σ} {at_ : Instant} : I s → at_.IsPlain → NoLeaseEndsBy at_ (tasks s) →
    tasks (Store.requeue at_ s).2 = tasks s
  claim {s : σ} {c : GrantedClaim} : I s → c.IsPlain →
    (Store.claim c.now c.lease s).1 =
        .ok (((tasks (Store.requeue c.now s).2).find? (·.status = .pending)).map c.handOut) ∧
      tasks (Store.claim c.now c.lease s).2 = c.handOutFrom (tasks (Store.requeue c.now s).2) ∧
      I (Store.claim c.now c.lease s).2
  list {s : σ} (owner : Int) : I s →
    Store.list owner s = .ok ((tasks s).reverse.filter (·.owner = owner))

namespace KeepsOrder

variable {tasks : σ → List Task} {I : σ → Prop} {s : σ}

/-- A task that is found is one of the tasks. -/
theorem mem_of_get (h : KeepsOrder tasks I) (hi : I s) {t : Task}
    (hget : Store.get t.id s = .ok t) : t ∈ tasks s := by
  have hfind := Store.task?_eq_some_iff.2 hget
  rw [h.find hi] at hfind
  exact List.mem_of_find?_eq_some hfind

/-- The tasks are found. -/
theorem get_of_mem (h : KeepsOrder tasks I) (hi : I s) {t : Task} (ht : t ∈ tasks s) :
    Store.get t.id s = .ok t := by
  have hdistinct : ((tasks s).map (·.id)).Nodup :=
    List.pairwise_map.2 ((h.sorted hi).imp fun hlt => ne_of_lt hlt)
  rwa [← Store.task?_eq_some_iff, h.find hi, find?_eq_some_iff_mem hdistinct]

/-- The tasks that meet a condition, in order. -/
theorem oldestFirst (h : KeepsOrder tasks I) (hi : I s) (p : Task → Prop) [DecidablePred p] :
    OldestFirst s p ((tasks s).filter fun t => p t) where
  mem t := by
    rw [List.mem_filter, decide_eq_true_eq]
    exact and_congr_left fun _ => ⟨h.get_of_mem hi, h.mem_of_get hi⟩
  ordered := by
    refine ((h.sorted hi).imp_of_mem fun ht hu hlt => ⟨hlt, ?_⟩).filter _
    exact ((h.dated hi _ ht).id_lt_iff (h.dated hi _ hu)).1 hlt

/-- **While no lease ends, claims hand out the pending tasks one after the other.** -/
theorem answers_claims (h : KeepsOrder tasks I) {claims : List GrantedClaim} (hi : I s)
    (hplain : ∀ c ∈ claims, c.IsPlain) (hthere : ∀ c ∈ claims, NoLeaseEndsBy c.now (tasks s))
    (hset : claims.Pairwise fun c later => c.deadline.atMost later.now = false) :
    answers s (claims.map GrantedClaim.call) =
      handOuts claims ((tasks s).filter (·.status = .pending)) := by
  induction claims generalizing s with
  | nil => rfl
  | cons c rest ih =>
    obtain ⟨hfirst, hrest⟩ := List.pairwise_cons.1 hset
    have hc := hplain c (by simp)
    obtain ⟨hanswer, htasks, hnext⟩ := h.claim hi hc
    rw [h.requeue_self hi hc.now (hthere c (by simp))] at hanswer htasks
    have hlater := ih hnext (fun d hd => hplain d (by simp [hd]))
      (fun d hd => by
        rw [htasks]
        exact noLeaseEndsBy_handOutFrom (hthere d (by simp [hd])) (hfirst d hd)) hrest
    rw [htasks, filter_pending_handOut (h.sorted hi)] at hlater
    have hrun : (c.call.run s).1 =
        .claimed (((tasks s).filter (·.status = .pending)).head?.map c.handOut) := by
      rw [List.head?_filter]
      exact congrArg (StoreAnswer.ofResult .claimed) hanswer
    rw [List.map_cons, answers, hrun, handOuts]
    exact congrArg _ hlater

/-- **A store that keeps its tasks in order drains in order.** -/
theorem drainsInOrder (h : KeepsOrder tasks I) (hi : I s) : DrainsInOrder s where
  drain := by
    refine ⟨_, h.oldestFirst hi (·.status = .pending), fun claims hplain hthere hset => ?_⟩
    exact h.answers_claims hi hplain (fun c hc t ht => hthere c hc t (h.get_of_mem hi ht)) hset
  claim c hc := by
    refine ⟨_, h.oldestFirst (h.requeue c.now hi) (·.status = .pending), ?_⟩
    rw [List.head?_filter]
    exact (h.claim hi hc).1
  list owner := by
    refine ⟨_, h.list owner hi, ?_⟩
    rw [List.filter_reverse, List.reverse_reverse]
    exact h.oldestFirst hi (·.owner = owner)

end KeepsOrder

end Stores

/-! ### The store in memory -/

namespace MemoryStore

/-- A state of the store in memory that calls in the years 0 to 9999 lead to, as long as the numbers
of tasks have 19 digits. -/
inductive IsReached : MemoryStore → Prop
  | empty : IsReached empty
  | call {s : MemoryStore} {c : Call} (h : IsReached s) (hnow : c.now.IsPlain)
      (hfits : c.NumberFits s.lastNumber) : IsReached (c.run s).2

/-- Whether tasks are kept in the order of their creation. -/
def IsOrdered (s : MemoryStore) : Prop :=
  Sound s.lastNumber s ∧ ∃ ids, CreatedUnder ids s.tasks

variable {s : MemoryStore}

theorem IsOrdered.of_sound {last : Int} {ids : List String} (h : Sound last s)
    (hids : CreatedUnder ids s.tasks) : IsOrdered s :=
  ⟨h.number.symm ▸ h, ids, hids⟩

theorem IsOrdered.run (h : IsOrdered s) {c : Call} (hfits : c.NumberFits s.lastNumber) :
    IsOrdered (c.run s).2 := by
  obtain ⟨hsound, ids, hids⟩ := h
  exact .of_sound (hsound.run hfits) (hsound.createdUnder_run hids hfits)

theorem IsReached.isOrdered (h : IsReached s) : IsOrdered s := by
  induction h with
  | empty => exact .of_sound sound_empty .nil
  | call _ _ hfits ih => exact ih.run hfits

/-- Where no lease has ended, none is taken back. -/
theorem requeue_self {at_ : Instant} (h : NoLeaseEndsBy at_ s.tasks) :
    (s.requeue at_).2.tasks = s.tasks := by
  refine (List.map_congr_left fun t ht => if_neg ?_).trans (List.map_id _)
  cases hlease : t.leaseExpiresAt with
  | none => simp [Task.hasEndedLease, hlease]
  | some deadline => simp [Task.hasEndedLease, hlease, h t ht deadline hlease]

/-- The store in memory keeps its tasks in order. -/
theorem keepsOrder : KeepsOrder MemoryStore.tasks IsOrdered where
  find _ id := task?_eq id _
  sorted h := h.1.sorted
  dated h := by
    obtain ⟨-, ids, hids⟩ := h
    exact hids.dated
  requeue at_ h := h.run (c := ⟨at_, .requeue at_⟩) (by simp [Call.NumberFits, Call.isEnqueue])
  requeue_self _ _ hleases := requeue_self hleases
  claim {s c} h _ := by
    refine ⟨?_, ?_, h.run (c := c.call) (by simp [Call.NumberFits, Call.isEnqueue,
      GrantedClaim.call])⟩
    · show (s.claim c.now c.lease).1 = .ok (((s.requeue c.now).2.oldestPending).map c.handOut)
      simp only [claim, c.granted]
      cases (s.requeue c.now).2.oldestPending <;> rfl
    · show (s.claim c.now c.lease).2.tasks = match (s.requeue c.now).2.oldestPending with
        | none => (s.requeue c.now).2.tasks
        | some t => updateTask t.id c.handOut (s.requeue c.now).2.tasks
      simp only [claim, c.granted]
      cases (s.requeue c.now).2.oldestPending <;> rfl
  list _ _ := rfl

end MemoryStore

end ArithService
