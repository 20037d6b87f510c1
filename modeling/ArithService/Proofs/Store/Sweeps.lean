import Mathlib
import ArithService.Proofs.Store.Calls
import ArithService.Store.Memory

/-!
# Sweeps change no answer

Taking back leases that have ended can be left to the next claim. A sweep in between changes
what can be read of a task in the meantime, and nothing that is answered to those who record,
claim or complete tasks.

## Main Definitions

* `Call.isSweep`, `Call.isServed` — calls that only take back leases, and calls whose answers
  do not depend on them
* `servedAnswers` — the answers of a run that do not depend on sweeps
* `SweepsInTime` — no sweep is ahead of the clock of a later claim
* `Leasing` — records as a sweep sees them
* `Leasing.Trails` — a record that sweeps may have reached, and the same record without them

## Design Notes

One run with sweeps is compared with the same run without them. In between two claims a record
may be pending in the one and under an ended lease in the other, and if it is completed then, it
stays without the time at which it was started. The next claim settles the first difference,
because its own reading of the clock is not before the sweep (`Leasing.Trails.settle`); the
second one shows in no answer. The two stores compare instants and texts, and `Leasing` is what
the argument needs of either.
-/

namespace ArithService

/-! ### Runs with sweeps -/

/-- The instant by which a sweep takes back leases. -/
def Call.sweepTime (c : Call) : Option Instant :=
  match c.command with
  | .requeue at_ => some at_
  | _ => none

/-- Whether a call takes back leases and does nothing else. -/
def Call.isSweep (c : Call) : Bool := c.sweepTime.isSome

/-- Whether a call asks for a task. -/
def Call.isClaim (c : Call) : Bool :=
  match c.command with
  | .claim _ => true
  | _ => false

/-- Whether a call is answered in the same way with sweeps and without them. Reading a task shows
whether it has been taken back. -/
def Call.isServed (c : Call) : Bool :=
  match c.command with
  | .get _ => false
  | .list _ => false
  | .requeue _ => false
  | _ => true

/-- The instants of a call are of the years 0 to 9999. -/
structure Call.HasPlainTimes (c : Call) : Prop where
  now : c.now.IsPlain
  sweep : ∀ at_ ∈ c.sweepTime, at_.IsPlain

/-- No sweep is ahead of the clock of a later claim. -/
def SweepsInTime (calls : List Call) : Prop :=
  calls.Pairwise fun c d => d.isClaim = true → ∀ at_ ∈ c.sweepTime, at_.atMost d.now = true

instance (calls : List Call) : Decidable (SweepsInTime calls) :=
  inferInstanceAs (Decidable (calls.Pairwise _))

section Runs

variable {σ : Type} [Store σ]

/-- The answers of a run that do not depend on sweeps. -/
def servedAnswers (s : σ) : List Call → List StoreAnswer
  | [] => []
  | c :: rest =>
    if c.isServed then (c.run s).1 :: servedAnswers (c.run s).2 rest
    else servedAnswers (c.run s).2 rest

/-- A relation between a store in a run with sweeps, at some instants, and the store in the run
without them: no operation that is answered to clients and workers can tell the two apart. -/
structure IgnoresSweeps (Trails : List Instant → σ → σ → Prop) : Prop where
  requeue : ∀ {sweeps s o} at_, Trails sweeps s o →
    Trails (at_ :: sweeps) (Store.requeue at_ s).2 o
  enqueue : ∀ {sweeps s o} now owner expression work, Trails sweeps s o →
    (Store.enqueue now owner expression work s).1 = (Store.enqueue now owner expression work o).1 ∧
      Trails sweeps (Store.enqueue now owner expression work s).2
        (Store.enqueue now owner expression work o).2
  claim : ∀ {sweeps s o} {now : Instant} lease, Trails sweeps s o → now.IsPlain →
    (∀ n ∈ sweeps, n.IsPlain ∧ n.atMost now = true) →
    (Store.claim now lease s).1 = (Store.claim now lease o).1 ∧
      Trails sweeps (Store.claim now lease s).2 (Store.claim now lease o).2
  complete : ∀ {sweeps s o} now id x, Trails sweeps s o →
    (Store.complete now id x s).1 = (Store.complete now id x o).1 ∧
      Trails sweeps (Store.complete now id x s).2 (Store.complete now id x o).2
  createUser : ∀ {sweeps s o} login passwordHash, Trails sweeps s o →
    (Store.createUser login passwordHash s).1 = (Store.createUser login passwordHash o).1 ∧
      Trails sweeps (Store.createUser login passwordHash s).2
        (Store.createUser login passwordHash o).2
  findUser : ∀ {sweeps s o} login, Trails sweeps s o →
    Store.findUser login s = Store.findUser login o

variable {Trails : List Instant → σ → σ → Prop} {sweeps : List Instant} {s o : σ}

/-- A call that is no sweep is answered in the same way in both runs. Looks at tasks keep the
relation, too, but show what a sweep did. -/
theorem IgnoresSweeps.run (h : IgnoresSweeps Trails) {c : Call} (htrails : Trails sweeps s o)
    (hsweep : c.isSweep = false) (hnow : c.now.IsPlain)
    (hbefore : c.isClaim = true → ∀ n ∈ sweeps, n.IsPlain ∧ n.atMost c.now = true) :
    (c.isServed = true → (c.run s).1 = (c.run o).1) ∧ Trails sweeps (c.run s).2 (c.run o).2 := by
  obtain ⟨now, command⟩ := c
  cases command with
  | enqueue owner expression work =>
    obtain ⟨hanswer, hafter⟩ := h.enqueue now owner expression work htrails
    exact ⟨fun _ => congrArg (StoreAnswer.ofResult .taskId) hanswer, hafter⟩
  | claim lease =>
    obtain ⟨hanswer, hafter⟩ := h.claim lease htrails hnow (hbefore rfl)
    exact ⟨fun _ => congrArg (StoreAnswer.ofResult .claimed) hanswer, hafter⟩
  | complete id x =>
    obtain ⟨hanswer, hafter⟩ := h.complete now id x htrails
    exact ⟨fun _ => congrArg (StoreAnswer.ofResult fun _ => .done) hanswer, hafter⟩
  | get id => exact ⟨by simp [Call.isServed], htrails⟩
  | list owner => exact ⟨by simp [Call.isServed], htrails⟩
  | requeue at_ => simp [Call.isSweep, Call.sweepTime] at hsweep
  | createUser login passwordHash =>
    obtain ⟨hanswer, hafter⟩ := h.createUser login passwordHash htrails
    exact ⟨fun _ => congrArg (StoreAnswer.ofResult .userId) hanswer, hafter⟩
  | findUser login =>
    exact ⟨fun _ => congrArg (StoreAnswer.ofResult .user) (h.findUser login htrails), htrails⟩

/-- A run without its sweeps gives the same answers. The induction carries the sweeps so far, none
of which is ahead of a claim to come. -/
theorem IgnoresSweeps.servedAnswers_eq (h : IgnoresSweeps Trails) {calls : List Call}
    (htrails : Trails sweeps s o) (hplain : ∀ c ∈ calls, c.HasPlainTimes)
    (horder : SweepsInTime calls)
    (hbefore : ∀ n ∈ sweeps, n.IsPlain ∧
      ∀ c ∈ calls, c.isClaim = true → n.atMost c.now = true) :
    servedAnswers s calls = servedAnswers o (calls.filter (!·.isSweep)) := by
  -- The sweeps so far are kept, since a later claim is compared with all of them.
  induction calls generalizing sweeps s o with
  | nil => rfl
  | cons c rest ih =>
    rw [List.forall_mem_cons] at hplain
    obtain ⟨hnow, hlater⟩ := List.pairwise_cons.1 horder
    have hrest : ∀ n ∈ sweeps, n.IsPlain ∧
        ∀ d ∈ rest, d.isClaim = true → n.atMost d.now = true :=
      fun n hn => ⟨(hbefore n hn).1, (List.forall_mem_cons.1 (hbefore n hn).2).2⟩
    cases hsweep : c.isSweep with
    | true =>
      obtain ⟨now, command⟩ := c
      cases command with
      | requeue at_ =>
        refine ih (h.requeue at_ htrails) hplain.2 hlater (List.forall_mem_cons.2 ⟨?_, hrest⟩)
        exact ⟨hplain.1.sweep at_ rfl, fun d hd hclaim => hnow d hd hclaim at_ rfl⟩
      | _ => simp [Call.isSweep, Call.sweepTime] at hsweep
    | false =>
      obtain ⟨hanswer, hafter⟩ := h.run htrails hsweep hplain.1.now fun hclaim n hn =>
        ⟨(hbefore n hn).1, (List.forall_mem_cons.1 (hbefore n hn).2).1 hclaim⟩
      have hsame := ih hafter hplain.2 hlater hrest
      rw [List.filter_cons_of_pos (by simp [hsweep]), servedAnswers, servedAnswers, hsame]
      split_ifs with hserved
      · rw [hanswer hserved]
      · rfl

end Runs

/-! ### Records -/

/-- Records with a lease, as a sweep sees them. -/
structure Leasing (ρ : Type) where
  /-- Whether the lease of a record has ended by an instant. -/
  ended : Instant → ρ → Bool
  /-- A record as it was before it was claimed. -/
  released : ρ → ρ
  /-- Finished records that differ at most in when they were started. -/
  FinishedAlike : ρ → ρ → Prop
  ended_released : ∀ n r, ended n (released r) = false
  ended_finished : ∀ {q r}, FinishedAlike q r → ∀ n, ended n q = false ∧ ended n r = false
  ended_mono : ∀ {n now : Instant} {r}, n.IsPlain → now.IsPlain → n.atMost now = true →
    ended n r = true → ended now r = true

namespace Leasing

variable {ρ : Type} {L : Leasing ρ} {sweeps : List Instant} {q r : ρ}

/-- A record after leases were taken back at an instant. -/
def release (L : Leasing ρ) (at_ : Instant) (r : ρ) : ρ :=
  if L.ended at_ r then L.released r else r

/-- A record in a run with sweeps, and the same record in the run without them. -/
inductive Trails (L : Leasing ρ) (sweeps : List Instant) : ρ → ρ → Prop where
  | same (r : ρ) : Trails L sweeps r r
  /-- A sweep has taken back the lease, and no claim has been made since. -/
  | released {r : ρ} {n : Instant} (hn : n ∈ sweeps) (hended : L.ended n r = true) :
      Trails L sweeps (L.released r) r
  | finished {q r : ρ} (h : L.FinishedAlike q r) : Trails L sweeps q r

/-- A sweep of the one run is made up for: what it takes back is remembered with the instant at
which it did. -/
theorem Trails.sweep (h : L.Trails sweeps q r) (at_ : Instant) :
    L.Trails (at_ :: sweeps) (L.release at_ q) r := by
  cases h with
  | same =>
    unfold release
    split_ifs with hended
    · exact .released (List.mem_cons_self ..) hended
    · exact .same _
  | released hn hended =>
    rw [release, L.ended_released]
    exact .released (List.mem_cons_of_mem _ hn) hended
  | finished hfinished =>
    rw [release, (L.ended_finished hfinished at_).1]
    exact .finished hfinished

/-- **Taking back leases in both runs settles what sweeps have done**, if no sweep was later: a
lease that a sweep took back has ended for the later instant as well. -/
theorem Trails.settle (h : L.Trails sweeps q r) {now : Instant} (hnow : now.IsPlain)
    (hbefore : ∀ n ∈ sweeps, n.IsPlain ∧ n.atMost now = true) :
    L.Trails [] (L.release now q) (L.release now r) := by
  cases h with
  | same => exact .same _
  | released hn hended =>
    obtain ⟨hplain, hle⟩ := hbefore _ hn
    have hagain : L.ended now r = true := L.ended_mono hplain hnow hle hended
    rw [release, release, L.ended_released, hagain]
    exact .same _
  | finished hfinished =>
    obtain ⟨hleft, hright⟩ := L.ended_finished hfinished now
    rw [release, release, hleft, hright]
    exact .finished hfinished

/-- Where no sweep is open, records are the same or finished alike. -/
theorem Trails.settled (h : L.Trails [] q r) : q = r ∨ L.FinishedAlike q r := by
  cases h with
  | same => exact .inl rfl
  | released hn _ => simp at hn
  | finished hfinished => exact .inr hfinished

theorem Trails.of_settled (h : L.Trails [] q r) : L.Trails sweeps q r := by
  rcases h.settled with rfl | hfinished
  · exact .same _
  · exact .finished hfinished

/-- Without open sweeps, records that are not finished are the same, and a claim looks at no
others. -/
theorem filter_eq {qs rs : List ρ} (h : List.Forall₂ (L.Trails []) qs rs) {p : ρ → Bool}
    (hfinished : ∀ q r, L.FinishedAlike q r → p q = false ∧ p r = false) :
    qs.filter p = rs.filter p := by
  induction h with
  | nil => rfl
  | cons hfirst _ ih =>
    rcases hfirst.settled with rfl | halike
    · rw [List.filter_cons, List.filter_cons, ih]
    · obtain ⟨hleft, hright⟩ := hfinished _ _ halike
      rw [List.filter_cons_of_neg (by simp [hleft]), List.filter_cons_of_neg (by simp [hright]), ih]

/-- What holds of records in both runs alike is found in both or in neither. -/
theorem any_eq {qs rs : List ρ} (h : List.Forall₂ (L.Trails sweeps) qs rs) {p : ρ → Bool}
    (hsame : ∀ q r, L.Trails sweeps q r → p q = p r) : qs.any p = rs.any p := by
  induction h with
  | nil => rfl
  | cons hfirst _ ih => rw [List.any_cons, List.any_cons, hsame _ _ hfirst, ih]

/-- A change of the same records in both runs keeps them related. -/
theorem forall₂_map_ite {qs rs : List ρ} (h : List.Forall₂ (L.Trails sweeps) qs rs)
    (p : ρ → Prop) [DecidablePred p] (change : ρ → ρ)
    (hsame : ∀ q r, L.Trails sweeps q r → (p q ↔ p r))
    (hchange : ∀ q r, L.Trails sweeps q r → p r → L.Trails sweeps (change q) (change r)) :
    List.Forall₂ (L.Trails sweeps) (qs.map fun q => if p q then change q else q)
      (rs.map fun r => if p r then change r else r) := by
  rw [List.forall₂_map_left_iff, List.forall₂_map_right_iff]
  refine h.imp fun q r hrecord => ?_
  by_cases hp : p r
  · rw [if_pos ((hsame q r hrecord).2 hp), if_pos hp]
    exact hchange q r hrecord hp
  · rw [if_neg fun hq => hp ((hsame q r hrecord).1 hq), if_neg hp]
    exact hrecord

end Leasing

/-! ### The store in memory -/

namespace MemoryStore

/-- Tasks as a sweep sees them. -/
def leasing : Leasing Task where
  ended at_ t := t.hasEndedLease at_
  released := released
  FinishedAlike t u := u.status = .completed ∧ ∃ started, t = { u with startedAt := started }
  ended_released n t := by simp [Task.hasEndedLease, released]
  ended_finished := by
    rintro t u ⟨hstatus, started, rfl⟩ n
    simp [Task.hasEndedLease, hstatus]
  ended_mono := by
    intro n now t _ _ hle hended
    simp only [Task.hasEndedLease, Bool.and_eq_true] at hended ⊢
    refine ⟨hended.1, ?_⟩
    cases hdeadline : t.leaseExpiresAt with
    | none => simp [hdeadline] at hended
    | some deadline =>
      have hbefore : deadline.atMost n = true := by simpa [hdeadline] using hended.2
      rw [Instant.atMost_iff] at hbefore hle
      exact Instant.atMost_iff.2 (by omega)

variable {sweeps : List Instant} {t u : Task}

theorem id_eq_of_trails (h : leasing.Trails sweeps t u) : t.id = u.id := by
  obtain _ | _ | ⟨-, started, rfl⟩ := h <;> rfl

/-- Completing a task hides whether it was taken back, but for the time at which it was started. -/
theorem trails_completed (h : leasing.Trails sweeps t u) (now : Instant) (x : Binary64) :
    leasing.Trails sweeps (completed now x t) (completed now x u) := by
  obtain _ | _ | ⟨-, started, rfl⟩ := h
  · exact .same _
  · exact .finished ⟨rfl, none, rfl⟩
  · exact .finished ⟨rfl, started, rfl⟩

/-- A claim settles also when a task was started. -/
theorem trails_claimed (h : leasing.Trails [] t u) (now deadline : Instant) :
    leasing.Trails [] (claimed now deadline t) (claimed now deadline u) := by
  rcases h.settled with rfl | ⟨-, started, rfl⟩
  · exact .same _
  · exact .same _

/-- A store in a run with sweeps, and in the run without them. -/
structure Trails (sweeps : List Instant) (s o : MemoryStore) : Prop where
  tasks : List.Forall₂ (leasing.Trails sweeps) s.tasks o.tasks
  users : s.users = o.users
  lastUser : s.lastUser = o.lastUser
  lastNumber : s.lastNumber = o.lastNumber

variable {s o : MemoryStore}

theorem trails_insertTask (t : Task) {ts us : List Task}
    (h : List.Forall₂ (leasing.Trails sweeps) ts us) :
    List.Forall₂ (leasing.Trails sweeps) (insertTask t ts) (insertTask t us) := by
  induction h with
  | nil => exact .cons (.same t) .nil
  | cons hfirst hrest ih =>
    rw [insertTask, insertTask, id_eq_of_trails hfirst]
    split_ifs
    · exact .cons (.same t) (.cons hfirst hrest)
    · exact .cons (.same t) hrest
    · exact .cons hfirst ih

theorem Trails.enqueue (h : Trails sweeps s o) (now : Instant) (owner : Int) (expression : String)
    (work : Work) :
    (s.enqueue now owner expression work).1 = (o.enqueue now owner expression work).1 ∧
      Trails sweeps (s.enqueue now owner expression work).2
        (o.enqueue now owner expression work).2 := by
  rw [MemoryStore.enqueue, MemoryStore.enqueue, h.lastNumber]
  cases nextNumber o.lastNumber now with
  | none => exact ⟨rfl, h⟩
  | some number => exact ⟨rfl, trails_insertTask _ h.tasks, h.users, h.lastUser, rfl⟩

/-- Taking back leases in both runs settles what sweeps have done. -/
theorem Trails.requeue (h : Trails sweeps s o) {now : Instant} (hnow : now.IsPlain)
    (hbefore : ∀ n ∈ sweeps, n.IsPlain ∧ n.atMost now = true) :
    Trails [] (s.requeue now).2 (o.requeue now).2 where
  tasks := by
    rw [MemoryStore.requeue, MemoryStore.requeue, List.forall₂_map_left_iff,
      List.forall₂_map_right_iff]
    exact h.tasks.imp fun t u htask => htask.settle hnow hbefore
  users := h.users
  lastUser := h.lastUser
  lastNumber := h.lastNumber

theorem Trails.of_settled (h : Trails [] s o) : Trails sweeps s o :=
  ⟨h.tasks.imp fun _ _ htask => htask.of_settled, h.users, h.lastUser, h.lastNumber⟩

theorem Trails.oldestPending_eq (h : Trails [] s o) : s.oldestPending = o.oldestPending := by
  have hfilter := Leasing.filter_eq h.tasks (p := fun t => decide (t.status = .pending)) <| by
    rintro t u ⟨hstatus, started, rfl⟩
    simp [hstatus]
  rw [oldestPending, oldestPending, ← List.head?_filter, ← List.head?_filter, hfilter]

theorem Trails.claim (h : Trails sweeps s o) {now : Instant} (hnow : now.IsPlain)
    (hbefore : ∀ n ∈ sweeps, n.IsPlain ∧ n.atMost now = true) (lease : Span) :
    (s.claim now lease).1 = (o.claim now lease).1 ∧
      Trails sweeps (s.claim now lease).2 (o.claim now lease).2 := by
  unfold MemoryStore.claim
  cases now.add? lease with
  | none => exact ⟨rfl, h⟩
  | some deadline =>
    have hsettled := h.requeue hnow hbefore
    simp only [hsettled.oldestPending_eq]
    cases (o.requeue now).2.oldestPending with
    | none => exact ⟨rfl, hsettled.of_settled⟩
    | some oldest =>
      have htasks := Leasing.forall₂_map_ite hsettled.tasks (fun t => t.id = oldest.id)
        (claimed now deadline) (fun t u htask => by rw [id_eq_of_trails htask])
        (fun t u htask _ => trails_claimed htask now deadline)
      exact ⟨rfl, Trails.of_settled
        ⟨htasks, hsettled.users, hsettled.lastUser, hsettled.lastNumber⟩⟩

/-- A result is recorded or refused alike, since any task with the identifier will do, taken back or
not. -/
theorem Trails.complete (h : Trails sweeps s o) (now : Instant) (id : String) (x : Binary64) :
    (s.complete now id x).1 = (o.complete now id x).1 ∧
      Trails sweeps (s.complete now id x).2 (o.complete now id x).2 := by
  have hfound : (s.tasks.find? (·.id = id)).isSome = (o.tasks.find? (·.id = id)).isSome := by
    rw [List.isSome_find?, List.isSome_find?]
    exact Leasing.any_eq h.tasks fun t u htask => by rw [id_eq_of_trails htask]
  have htasks := Leasing.forall₂_map_ite h.tasks (fun t => t.id = id) (completed now x)
    (fun t u htask => by rw [id_eq_of_trails htask])
    (fun t u htask _ => trails_completed htask now x)
  simp only [MemoryStore.complete, get]
  cases hleft : s.tasks.find? (·.id = id) with
  | none =>
    have hright : o.tasks.find? (·.id = id) = none := by simpa [hleft] using hfound
    rw [hright]
    exact ⟨rfl, h⟩
  | some t =>
    obtain ⟨u, hright⟩ : ∃ u, o.tasks.find? (·.id = id) = some u :=
      Option.isSome_iff_exists.1 (by rw [← hfound, hleft]; rfl)
    rw [hright]
    exact ⟨rfl, htasks, h.users, h.lastUser, h.lastNumber⟩

theorem Trails.createUser (h : Trails sweeps s o) (login passwordHash : String) :
    (s.createUser login passwordHash).1 = (o.createUser login passwordHash).1 ∧
      Trails sweeps (s.createUser login passwordHash).2 (o.createUser login passwordHash).2 := by
  simp only [MemoryStore.createUser, MemoryStore.findUser, h.users, h.lastUser]
  cases o.users.find? (·.login = login) with
  | some user => exact ⟨rfl, h⟩
  | none => exact ⟨rfl, h.tasks, rfl, rfl, h.lastNumber⟩

/-- No client or worker of a store in memory can tell whether there were sweeps. -/
theorem ignoresSweeps : IgnoresSweeps Trails where
  requeue {sweeps s o} at_ h := by
    refine ⟨?_, h.users, h.lastUser, h.lastNumber⟩
    show List.Forall₂ _ (s.tasks.map (leasing.release at_)) o.tasks
    rw [List.forall₂_map_left_iff]
    exact h.tasks.imp fun t u htask => htask.sweep at_
  enqueue now owner expression work h := h.enqueue now owner expression work
  claim lease h hnow hbefore := h.claim hnow hbefore lease
  complete now id x h := h.complete now id x
  createUser login passwordHash h := h.createUser login passwordHash
  findUser {sweeps s o} login h := by
    show Except.ok (s.findUser login) = .ok (o.findUser login)
    rw [MemoryStore.findUser, MemoryStore.findUser, h.users]

end MemoryStore

end ArithService
