import Mathlib
import ArithService.Proofs.Database.Restarts
import ArithService.Proofs.Store.Draining

/-!
# Draining a store on a database

## Main Definitions

* `DatabaseStore.IsReached` — the states that calls in the years 0 to 9999, and restarts, lead to

## Main Results

* `draining_keeps_order` — both stores drain in order

## Design Notes

Whether a lease has ended is decided on texts, and what is asked of leases is asked of the instants
that are read back of them. A lease that ends in a year with a sign is read back as the earliest
instant, which no instant of the years 0 to 9999 is before, so a text that has not to end is one of
these years (`TaskRow.IsSound.not_hasEndedLease`).
-/

namespace ArithService

/-- The earliest instant is before the years 0 to 9999, so a lease that is read back as this one
counts as ended. -/
theorem Instant.IsPlain.earliest_atMost {t : Instant} (h : t.IsPlain) :
    Instant.earliest.atMost t = true := by
  by_contra hlater
  have hseconds : t.seconds ≤ Instant.earliest.seconds := by
    have hnot := Instant.not_atMost_iff.1 (Bool.eq_false_iff.2 hlater)
    omega
  have hday : t.seconds / 86400 ≤ Instant.earliest.seconds / 86400 :=
    Int.ediv_le_ediv (by decide) hseconds
  have hyear := Instant.year_le_of_day_le hday
  have hearliest : Instant.earliest.date.year = -262143 := by decide
  have hnonneg := h.year_nonneg
  unfold Instant.date at hearliest hnonneg
  omega

/-- The lease of a row has not ended if that of its task has not. For this direction nothing has to
be asked of the deadline. -/
theorem TaskRow.IsSound.not_hasEndedLease {last : Int} {r : TaskRow} (h : r.IsSound last)
    {at_ : Instant} (hat : at_.IsPlain)
    (hlater : ∀ deadline, r.task.leaseExpiresAt = some deadline → deadline.atMost at_ = false) :
    r.hasEndedLease at_.text = false := by
  cases htext : r.leaseExpiresAt with
  | none => simp [hasEndedLease, htext]
  | some text =>
    obtain ⟨deadline, hproper, rfl⟩ := h.lease text htext
    have hread := hlater (timeRead deadline.text) (by simp [task, htext])
    by_cases hyear : deadline.HasPlainYear
    · have hdeadline : deadline.IsPlain := hproper.isPlain hyear
      rw [hdeadline.timeRead_text] at hread
      have hnot := hdeadline.not_text_le hat.proper hread
      simp [hasEndedLease, htext, not_le.1 hnot]
    · rw [Instant.timeRead_text_of_year hyear, hat.earliest_atMost] at hread
      simp at hread

namespace DatabaseStore

/-- A state of a store on a database that calls in the years 0 to 9999 and restarts lead to, as long
as the numbers of tasks have 19 digits. -/
inductive IsReached : DatabaseStore → Prop
  | empty : IsReached empty
  | call {s : DatabaseStore} {c : Call} (h : IsReached s) (hnow : c.now.IsPlain)
      (hfits : c.NumberFits s.lastNumber) : IsReached (c.run s).2
  | reopen {s opened : DatabaseStore} (h : IsReached s)
      (hopen : (open_ s.database).1 = .ok opened) : IsReached opened

/-- Whether tasks are kept in the order of their creation. -/
def IsOrdered (s : DatabaseStore) : Prop :=
  Sound s.lastNumber s ∧ ∃ ids, CreatedUnder ids s.tasks

variable {s : DatabaseStore}

theorem IsOrdered.of_sound {last : Int} {ids : List String} (h : Sound last s)
    (hids : CreatedUnder ids s.tasks) : IsOrdered s :=
  ⟨h.number.symm ▸ h, ids, hids⟩

/-- Every such state keeps its tasks in order, by calls and by restarts. -/
theorem IsReached.isOrdered (h : IsReached s) : IsOrdered s := by
  induction h with
  | empty =>
    obtain ⟨last, hsound, -, hids⟩ := holds_empty
    exact .of_sound hsound hids
  | call _ hnow hfits ih =>
    obtain ⟨hsound, ids, hids⟩ := ih
    exact .of_sound (hsound.run hnow hfits) (hsound.createdUnder_run hids hnow hfits)
  | reopen _ hopen ih =>
    obtain ⟨hsound, ids, hids⟩ := ih
    rw [hsound.open_eq hids] at hopen
    obtain rfl := Except.ok.inj hopen
    exact .of_sound (hsound.reopened hids) hids

/-- Where no lease has ended, none is taken back. -/
theorem Sound.requeue_self {last : Int} (h : Sound last s) {at_ : Instant} (hat : at_.IsPlain)
    (hleases : NoLeaseEndsBy at_ s.tasks) : (s.requeue at_).2.tasks = s.tasks := by
  rw [h.requeue_eq]
  show ((DatabaseStore.rows s.database).map (requeuedRow at_)).map TaskRow.task = s.tasks
  rw [List.map_map]
  refine List.map_congr_left fun r hr => ?_
  have hrunning := (h.rows r hr).not_hasEndedLease hat (hleases r.task (List.mem_map_of_mem hr))
  rw [Function.comp_apply, requeuedRow, if_neg (by simp [hrunning])]

/-- What a claim that has a deadline hands out, after leases were taken back. -/
theorem Sound.claim_granted {last : Int} (h : Sound last s) {c : GrantedClaim} (hc : c.IsPlain) :
    (s.claim c.now c.lease).1 =
        .ok (((s.requeue c.now).2.tasks.find? (·.status = .pending)).map c.handOut) ∧
      (s.claim c.now c.lease).2.tasks = c.handOutFrom (s.requeue c.now).2.tasks := by
  have hread : Retention.columns.instant c.deadline = c.deadline := by
    rw [Retention.columns_instant, hc.deadline.timeRead_text]
  unfold GrantedClaim.handOutFrom
  cases holdest : (s.requeue c.now).2.tasks.find? (·.status = .pending) with
  | none =>
    rw [h.claim_none c.granted holdest]
    exact ⟨rfl, rfl⟩
  | some oldest =>
    obtain ⟨hanswer, htasks, -⟩ := h.claim_some hc.now c.granted holdest
    rw [hanswer, htasks, hread]
    exact ⟨rfl, rfl⟩

/-- A store on a database keeps its tasks in order, which is all that draining asks of a store. -/
theorem keepsOrder : KeepsOrder DatabaseStore.tasks IsOrdered where
  find h id := h.1.task?_eq id
  sorted h := h.1.sorted
  dated h := by
    obtain ⟨-, ids, hids⟩ := h
    exact hids.dated
  requeue at_ h := by
    obtain ⟨hsound, ids, hids⟩ := h
    exact .of_sound (hsound.requeue at_) (hids.requeue (hsound.requeuedAs at_))
  requeue_self h hat hleases := h.1.requeue_self hat hleases
  claim {s c} h hc := by
    obtain ⟨hsound, ids, hids⟩ := h
    obtain ⟨hanswer, htasks⟩ := hsound.claim_granted hc
    refine ⟨hanswer, htasks, .of_sound (hsound.claim hc.now c.lease)
      (hsound.createdUnder_run (c := c.call) hids hc.now ?_)⟩
    simp [Call.NumberFits, Call.isEnqueue, GrantedClaim.call]
  list owner h := h.1.list_eq owner

end DatabaseStore

/-! ### Both stores -/

/-- **Draining and listing lose and duplicate nothing.** In every state that calls in the years 0 to
9999 lead to, and restarts on a database: while no lease ends, claims hand out just the tasks that
were pending, each once, from the oldest to the latest, and then nothing; any claim hands out the
oldest task that is pending once leases were taken back; and a list shows just the tasks of an
owner, each once, from the latest to the oldest. -/
theorem draining_keeps_order :
    (∀ s : MemoryStore, s.IsReached → DrainsInOrder s) ∧
      ∀ s : DatabaseStore, s.IsReached → DrainsInOrder s :=
  ⟨fun _ h => MemoryStore.keepsOrder.drainsInOrder h.isOrdered,
    fun _ h => DatabaseStore.keepsOrder.drainsInOrder h.isOrdered⟩

/-- A claim for a minute. -/
def firstClaim : GrantedClaim :=
  ⟨⟨1700000002, 0⟩, .ofSeconds 60, ⟨1700000062, 0⟩, by decide⟩

/-- Another claim for a minute, a second later. -/
def secondClaim : GrantedClaim :=
  ⟨⟨1700000003, 0⟩, .ofSeconds 60, ⟨1700000063, 0⟩, by decide⟩

/-- Whether two claims drain a store of one task. -/
def DrainsOneTask {σ : Type} [Store σ] (s : σ) : Prop :=
  ∃ pending, OldestFirst s (·.status = .pending) pending ∧
    handOuts [firstClaim, secondClaim] pending =
      [.claimed (some (claimedTask 1700000002)), .claimed none]

theorem DrainsInOrder.drainsOneTask {σ : Type} [Store σ] {s : σ} (h : DrainsInOrder s)
    (hnone : ∀ t, Store.get t.id s = .ok t → t.leaseExpiresAt = none)
    (hanswers : answers s ([firstClaim, secondClaim].map GrantedClaim.call) =
      [.claimed (some (claimedTask 1700000002)), .claimed none]) : DrainsOneTask s := by
  obtain ⟨pending, hpending, hdrain⟩ := h.drain
  have hplain : ∀ c ∈ [firstClaim, secondClaim], c.IsPlain := by
    intro c hc
    have hcases : c = firstClaim ∨ c = secondClaim := by simpa using hc
    rcases hcases with rfl | rfl
    · exact ⟨isPlain_of_seconds (by decide) (by decide), isPlain_of_seconds (by decide) (by decide)⟩
    · exact ⟨isPlain_of_seconds (by decide) (by decide), isPlain_of_seconds (by decide) (by decide)⟩
  have hthere : ∀ c ∈ [firstClaim, secondClaim], ∀ t, Store.get t.id s = .ok t → ∀ deadline,
      t.leaseExpiresAt = some deadline → deadline.atMost c.now = false := by
    intro c _ t ht deadline hdeadline
    simp [hnone t ht] at hdeadline
  have hset : [firstClaim, secondClaim].Pairwise fun c later =>
      c.deadline.atMost later.now = false := by
    decide
  exact ⟨pending, hpending, (hdrain _ hplain hthere hset).symm.trans hanswers⟩

/-- Of two claims the first one hands out the only task, and the second one nothing. -/
theorem draining_keeps_order_oneTask :
    (runCalls MemoryStore.empty oneTask).IsReached ∧
      DrainsOneTask (runCalls MemoryStore.empty oneTask) ∧
      (runCalls DatabaseStore.empty oneTask).IsReached ∧
      DrainsOneTask (runCalls DatabaseStore.empty oneTask) := by
  have hmemory : (runCalls MemoryStore.empty oneTask).IsReached :=
    .call (.call .empty (isPlain_of_seconds (by decide) (by decide)) (by decide))
      (isPlain_of_seconds (by decide) (by decide)) (by decide)
  have hdatabase : (runCalls DatabaseStore.empty oneTask).IsReached :=
    .call (.call .empty (isPlain_of_seconds (by decide) (by decide)) (by decide))
      (isPlain_of_seconds (by decide) (by decide)) (by decide)
  refine ⟨hmemory, ?_, hdatabase, ?_⟩
  · refine (draining_keeps_order.1 _ hmemory).drainsOneTask (fun t ht => ?_) (by decide +kernel)
    have hunleased : ∀ t ∈ (runCalls MemoryStore.empty oneTask).tasks, t.leaseExpiresAt = none := by
      decide
    exact hunleased t (MemoryStore.keepsOrder.mem_of_get hmemory.isOrdered ht)
  · refine (draining_keeps_order.2 _ hdatabase).drainsOneTask (fun t ht => ?_) (by decide +kernel)
    have hunleased : ∀ t ∈ (runCalls DatabaseStore.empty oneTask).tasks,
        t.leaseExpiresAt = none := by
      decide +kernel
    exact hunleased t (DatabaseStore.keepsOrder.mem_of_get hdatabase.isOrdered ht)

end ArithService
