import Mathlib
import ArithService.Dispatch.Dispatcher
import ArithService.Proofs.Http.Api
import ArithService.Proofs.Store.Moves

/-!
# Runs of the service

Clients, workers and the sweeper use one store, in any order.

## Main Definitions

* `Delivery` — how results travel from workers to the dispatcher
* `Service` — the store, and all assignments that were ever handed out
* `DispatchEvent`, `DispatchEvent.run` — what can happen, and what comes of it
* `runEvents` — the service after a run
* `DispatchEvent.RunsAs` — an event with the call of the store that it makes

## Design Notes

An assignment that was handed out is never taken from a worker, so that its result may be handed
in at any later time and any number of times. Workers only hand in what they computed for an
assignment that they hold.
-/

namespace ArithService

/-- How a result travels: as it is, or in a message, which a zero leaves without its sign. -/
inductive Delivery where
  | direct
  | message
deriving DecidableEq, Repr

/-- What arrives of a result. -/
def Delivery.deliver : Delivery → ResultReport → ResultReport
  | .direct, r => r
  | .message, r => r.received

/-- What stays the same during a run. -/
structure Deployment where
  api : Api
  delivery : Delivery
deriving DecidableEq, Repr

/-- What can happen to the service. -/
inductive DispatchAction where
  /-- A user is registered with a password hash that was made elsewhere. -/
  | account (login passwordHash : String)
  /-- A client sends a request. -/
  | request (salt : Bytes) (r : Request)
  /-- A worker asks for a task. -/
  | getTask (lease : Span)
  /-- A worker hands in what it computed for an assignment. -/
  | submit (m : Assignment)
  /-- Leases that have ended are taken back. -/
  | sweep
deriving DecidableEq, Repr

/-- Something that happens at a reading of the clock. -/
structure DispatchEvent where
  now : Instant
  action : DispatchAction
deriving DecidableEq, Repr

/-- What an event is answered with. -/
inductive DispatchReply where
  | account (result : Except StoreError Int)
  | response (r : Response)
  | assignment (result : Except CallError Assignment)
  | submission (result : Except CallError Acknowledgement)
  /-- The assignment could not be computed. -/
  | skipped (e : ExpressionError)
  /-- Nobody holds the assignment, or there is nothing to do for it. -/
  | unsent
  | swept (result : Except StoreError Nat)

/-- The store, and every assignment that was ever handed out. -/
structure Service (σ : Type) where
  store : σ
  held : List Assignment

section Runs

variable {σ : Type} [Store σ]

/-- Let an event happen. -/
def DispatchEvent.run (d : Deployment) (e : DispatchEvent) (s : Service σ) :
    DispatchReply × Service σ :=
  match e.action with
  | .account login passwordHash =>
    let (result, store) := Store.createUser login passwordHash s.store
    (.account result, { s with store })
  | .request salt r =>
    let (response, store) := d.api.respond ⟨e.now, salt⟩ r s.store
    (.response response, { s with store })
  | .getTask lease =>
    let (result, store) := handOut lease e.now s.store
    (.assignment result, ⟨store, result.toOption.toList ++ s.held⟩)
  | .submit m =>
    if m ∈ s.held ∧ m.id ≠ "" then
      match m.compute with
      | .ok x =>
        let (result, store) := takeIn e.now (d.delivery.deliver ⟨m.id, x⟩) s.store
        (.submission result, { s with store })
      | .error error => (.skipped error, s)
    else (.unsent, s)
  | .sweep =>
    let (result, store) := Store.requeue e.now s.store
    (.swept result, { s with store })

theorem DispatchEvent.run_account (d : Deployment) (now : Instant) (login passwordHash : String)
    (s : Service σ) : (DispatchEvent.run d ⟨now, .account login passwordHash⟩ s).2 =
      { s with store := (Store.createUser login passwordHash s.store).2 } := rfl

theorem DispatchEvent.run_request (d : Deployment) (now : Instant) (salt : Bytes) (r : Request)
    (s : Service σ) : (DispatchEvent.run d ⟨now, .request salt r⟩ s).2 =
      { s with store := (d.api.respond ⟨now, salt⟩ r s.store).2 } := rfl

/-- The service after a run. -/
def runEvents (d : Deployment) (s : Service σ) : List DispatchEvent → Service σ
  | [] => s
  | e :: rest => runEvents d (e.run d s).2 rest

theorem runEvents_append (d : Deployment) (s : Service σ) (events more : List DispatchEvent) :
    runEvents d s (events ++ more) = runEvents d (runEvents d s events) more := by
  induction events generalizing s with
  | nil => rfl
  | cons e rest ih => exact ih _

/-- Whether an event is a request that may record a task. -/
def DispatchEvent.isSubmission (e : DispatchEvent) : Bool :=
  match e.action with
  | .request _ r => decide r.IsSubmission
  | _ => false

end Runs

/-! ### Deliveries -/

/-- What arrives of a number. -/
def Delivery.carry (d : Delivery) (x : Binary64) : Binary64 := (d.deliver ⟨"", x⟩).result

theorem Delivery.deliver_eq (d : Delivery) (id : String) (x : Binary64) :
    d.deliver ⟨id, x⟩ = ⟨id, d.carry x⟩ := by
  cases d with
  | direct => rfl
  | message =>
    simp only [deliver, carry, ResultReport.received]
    split_ifs <;> rfl

/-- A finite number arrives as a finite one, so no result is refused for how it travelled. -/
theorem Delivery.isFinite_carry (d : Delivery) {x : Binary64} (h : x.isFinite = true) :
    (d.carry x).isFinite = true := by
  cases d with
  | direct => exact h
  | message =>
    simp only [carry, deliver, ResultReport.received]
    split_ifs
    · decide
    · exact h

/-! ### Calls -/

@[simp] theorem Assignment.id_ofTask (t : Task) : (ofTask t).id = t.id := by
  unfold ofTask
  split_ifs <;> rfl

/-- The calls of the store that an event may make. -/
inductive DispatchEvent.Makes {σ : Type} (d : Deployment) (e : DispatchEvent) (s : Service σ) :
    StoreCommand → Prop where
  /-- What changes nothing is as good as looking for a task. -/
  | look (id : String) : Makes d e s (.get id)
  | register (login passwordHash : String) : Makes d e s (.createUser login passwordHash)
  /-- An expression with a value is recorded. -/
  | record {owner : Int} {expression : String} {work : Work} (hevent : e.isSubmission = true)
      (hwork : Work.ofText expression = .ok work) : Makes d e s (.enqueue owner expression work)
  | claim (lease : Span) : Makes d e s (.claim lease)
  /-- What was computed for an assignment is taken in. -/
  | takeIn {m : Assignment} {x : Binary64} (hheld : m ∈ s.held) (hid : m.id ≠ "")
      (hvalue : m.compute = .ok x) : Makes d e s (.complete m.id (d.delivery.carry x))
  | takeBack (at_ : Instant) : Makes d e s (.requeue at_)

/-- Only requests record tasks, so that the tasks of a run can be counted by its events. -/
theorem DispatchEvent.Makes.isSubmission {σ : Type} {d : Deployment} {e : DispatchEvent}
    {s : Service σ} {command : StoreCommand} (h : e.Makes d s command)
    (henqueue : Call.isEnqueue ⟨e.now, command⟩ = true) : e.isSubmission = true := by
  cases h with
  | record hevent _ => exact hevent
  | look _ => simp [Call.isEnqueue] at henqueue
  | register _ _ => simp [Call.isEnqueue] at henqueue
  | claim _ => simp [Call.isEnqueue] at henqueue
  | takeIn _ _ _ => simp [Call.isEnqueue] at henqueue
  | takeBack _ => simp [Call.isEnqueue] at henqueue

/-- The number that is due in an event, if one is, is a task number. With this, bounds on a run of
events are bounds on the calls that it makes. -/
theorem DispatchEvent.Makes.numberFits {σ : Type} {d : Deployment} {e : DispatchEvent}
    {s : Service σ} {command : StoreCommand} (h : e.Makes d s command) {last : Int} {used : Nat}
    (hroom : HasRoom last used) (hnow : e.now.IsClockReading)
    (hused : e.isSubmission = true → used < 10 ^ 16) :
    Call.NumberFits ⟨e.now, command⟩ last :=
  hroom.numberFits (fun henqueue => hused (h.isSubmission henqueue)) hnow

theorem DispatchEvent.Makes.ofText {σ : Type} {d : Deployment} {e : DispatchEvent}
    {s : Service σ} {owner : Int} {expression : String} {work : Work}
    (h : e.Makes d s (.enqueue owner expression work)) : Work.ofText expression = .ok work := by
  cases h with
  | record _ hwork => exact hwork

section Calls

variable {σ : Type} [Store σ]

/-- A finite result with an identifier is taken in by completing the task. The dispatcher adds
nothing to that. -/
theorem takeIn_eq (now : Instant) {id : String} {x : Binary64} (s : σ) (hid : id ≠ "")
    (hfinite : x.isFinite = true) :
    takeIn now ⟨id, x⟩ s =
      (((Store.complete now id x s).1.map fun _ => ⟨true⟩).mapError CallError.ofStore,
        (Store.complete now id x s).2) := by
  simp only [takeIn, if_neg hid, hfinite]
  cases hcomplete : Store.complete now id x s with
  | mk result after => cases result <;> rfl

/-- A result that is not finite is not taken in: it is refused before the store is asked. -/
theorem takeIn_of_not_isFinite (now : Instant) {id : String} {x : Binary64} (s : σ)
    (hfinite : x.isFinite ≠ true) : (takeIn now ⟨id, x⟩ s).2 = s := by
  simp only [takeIn]
  split_ifs <;> simp_all

/-- An event with its call of the store: the store moves by the call, and what is held after the
event was held before, or is empty, or tells about the task that the call hands out. -/
structure DispatchEvent.RunsAs (d : Deployment) (e : DispatchEvent) (s : Service σ)
    (command : StoreCommand) : Prop where
  makes : e.Makes d s command
  store : (e.run d s).2.store = (Call.run ⟨e.now, command⟩ s.store).2
  held : ∀ m ∈ (e.run d s).2.held, m ∈ s.held ∨ m.id = "" ∨
    ∃ t, (Call.run ⟨e.now, command⟩ s.store).1 = .claimed (some t) ∧ m = .ofTask t

variable (d : Deployment) (now : Instant) (s : Service σ)

/-- An event that hands out nothing only has to make its call. -/
theorem runsAs_of_held {d : Deployment} {e : DispatchEvent} {s : Service σ} {command : StoreCommand}
    (hmakes : e.Makes d s command)
    (hstore : (e.run d s).2.store = (Call.run ⟨e.now, command⟩ s.store).2)
    (hheld : (e.run d s).2.held = s.held) : e.RunsAs d s command where
  makes := hmakes
  store := hstore
  held m hm := .inl (by rwa [hheld] at hm)

/-- A request makes one call of the store at most. Which one is decided by its route, and what makes
none is as good as looking for a task. -/
theorem exists_runsAs_request (salt : Bytes) (r : Request) :
    ∃ command, DispatchEvent.RunsAs d ⟨now, .request salt r⟩ s command := by
  rcases effect_respond d.api ⟨now, salt⟩ r s.store with
    hstore | ⟨login, hash, hstore⟩ | ⟨owner, expression, work, hrequest, hwork, hstore⟩
  · exact ⟨.get "", runsAs_of_held (.look "") hstore rfl⟩
  · exact ⟨.createUser login hash, runsAs_of_held (.register login hash) hstore rfl⟩
  · exact ⟨.enqueue owner expression work,
      runsAs_of_held (.record (decide_eq_true hrequest) hwork) hstore rfl⟩

theorem runsAs_getTask (lease : Span) :
    DispatchEvent.RunsAs d ⟨now, .getTask lease⟩ s (.claim lease) where
  makes := .claim lease
  store := by
    show (handOut lease now s.store).2 = (Store.claim now lease s.store).2
    unfold handOut
    split <;> next hclaim => rw [hclaim]
  held m hheld := by
    change m ∈ (handOut lease now s.store).1.toOption.toList ++ s.held at hheld
    rw [List.mem_append, Option.mem_toList] at hheld
    rcases hheld with hnew | hheld
    · refine .inr ?_
      show m.id = "" ∨ ∃ t, StoreAnswer.ofResult .claimed (Store.claim now lease s.store).1 =
        .claimed (some t) ∧ m = .ofTask t
      unfold handOut at hnew
      split at hnew
      · next t _ hclaim =>
        rw [hclaim]
        exact .inr ⟨t, rfl, (Option.some.inj hnew).symm⟩
      · obtain rfl := Option.some.inj hnew
        exact .inl rfl
      · simp [Except.toOption] at hnew
    · exact .inl hheld

theorem exists_runsAs_submit (m : Assignment) :
    ∃ command, DispatchEvent.RunsAs d ⟨now, .submit m⟩ s command := by
  -- A result is taken in by a call only if it is held, can be computed, and arrives finite.
  by_cases hheld : m ∈ s.held ∧ m.id ≠ ""
  · cases hvalue : m.compute with
    | error error =>
      have hrun : DispatchEvent.run d ⟨now, .submit m⟩ s = (.skipped error, s) := by
        simp only [DispatchEvent.run, if_pos hheld, hvalue]
      exact ⟨.get "", runsAs_of_held (.look "") (by rw [hrun]; rfl) (by rw [hrun])⟩
    | ok x =>
      have hrun : (DispatchEvent.run d ⟨now, .submit m⟩ s).2 =
          { s with store := (takeIn now ⟨m.id, d.delivery.carry x⟩ s.store).2 } := by
        simp only [DispatchEvent.run, if_pos hheld, hvalue, d.delivery.deliver_eq]
      by_cases hfinite : (d.delivery.carry x).isFinite = true
      · refine ⟨_, runsAs_of_held (.takeIn hheld.1 hheld.2 hvalue) ?_ (by rw [hrun])⟩
        rw [hrun, takeIn_eq now s.store hheld.2 hfinite]
        rfl
      · refine ⟨.get "", runsAs_of_held (.look "") ?_ (by rw [hrun])⟩
        rw [hrun, takeIn_of_not_isFinite now s.store hfinite]
        rfl
  · have hrun : DispatchEvent.run d ⟨now, .submit m⟩ s = (.unsent, s) := by
      simp only [DispatchEvent.run, if_neg hheld]
    exact ⟨.get "", runsAs_of_held (.look "") (by rw [hrun]; rfl) (by rw [hrun])⟩

/-- **Every event is one call of the store.** So what one call preserves, every event preserves, and
runs of the service need no induction of their own for what is known of stores. -/
theorem DispatchEvent.exists_runsAs (e : DispatchEvent) : ∃ command, e.RunsAs d s command := by
  obtain ⟨now, action⟩ := e
  cases action with
  | account login passwordHash =>
    exact ⟨_, runsAs_of_held (.register login passwordHash) rfl rfl⟩
  | request salt r => exact exists_runsAs_request d now s salt r
  | getTask lease => exact ⟨_, runsAs_getTask d now s lease⟩
  | submit m => exact exists_runsAs_submit d now s m
  | sweep => exact ⟨_, runsAs_of_held (.takeBack now) rfl rfl⟩

end Calls

end ArithService
