import Mathlib
import ArithService.Dispatch.Dispatcher
import ArithService.Proofs.Store.Calls
import ArithService.Store.Memory

/-!
# Failures leave no trace

A call that is answered with an error changes nothing.

## Main Definitions

* `ServiceCall`, `ServiceCall.run` — a call of a store, or of the service that workers talk to
* `ServiceAnswer.IsFailure` — whether an answer is an error
* `ServiceCall.call?` — the call of the store that a call comes down to

## Design Notes

What workers call either is refused before the store is asked, or is one call of the store. So
what holds of failed calls of a store holds of what workers call (`ServiceCall.run_of_call?`).
-/

namespace ArithService

/-- A call of a store, or of the service that workers talk to. -/
inductive ServiceCall where
  | store (c : Call)
  /-- A worker asks for a task. -/
  | handOut (now : Instant) (lease : Span)
  /-- A worker hands in a result. -/
  | takeIn (now : Instant) (report : ResultReport)
deriving DecidableEq, Repr

/-- What a call is answered with. -/
inductive ServiceAnswer where
  | store (a : StoreAnswer)
  | assignment (result : Except CallError Assignment)
  | acknowledgement (result : Except CallError Acknowledgement)

/-- Whether an answer is an error. -/
def ServiceAnswer.IsFailure : ServiceAnswer → Prop
  | .store a => ∃ e, a = .failed e
  | .assignment result => ∃ e, result = .error e
  | .acknowledgement result => ∃ e, result = .error e

theorem StoreAnswer.ofResult_eq_failed {α : Type} {succeeded : α → StoreAnswer} {e : StoreError}
    (h : ∀ x, succeeded x ≠ .failed e) {result : Except StoreError α}
    (hfailed : ofResult succeeded result = .failed e) : result = .error e := by
  cases result with
  | ok x => exact absurd hfailed (h x)
  | error other => rw [StoreAnswer.failed.inj hfailed]

namespace ServiceCall

section Calls

variable {σ : Type} [Store σ]

/-- Carry out a call. -/
def run (c : ServiceCall) (s : σ) : ServiceAnswer × σ :=
  match c with
  | .store c =>
    let (a, s) := c.run s
    (.store a, s)
  | .handOut now lease =>
    let (result, s) := ArithService.handOut lease now s
    (.assignment result, s)
  | .takeIn now report =>
    let (result, s) := ArithService.takeIn now report s
    (.acknowledgement result, s)

/-- The call of the store that a call comes down to, unless it is refused before. -/
def call? : ServiceCall → Option Call
  | .store c => some c
  | .handOut now lease => some ⟨now, .claim lease⟩
  | .takeIn now report =>
    if report.id = "" ∨ report.result.isFinite = false then none
    else some ⟨now, .complete report.id report.result⟩

/-- What a call is answered with, by the answer of the store. -/
def answerBy : ServiceCall → StoreAnswer → ServiceAnswer
  | .store _, a => .store a
  | .handOut _ _, .claimed (some t) => .assignment (.ok (.ofTask t))
  | .handOut _ _, .failed e => .assignment (.error (.ofStore e))
  | .handOut _ _, _ => .assignment (.ok {})
  | .takeIn _ _, .failed e => .acknowledgement (.error (.ofStore e))
  | .takeIn _ _, _ => .acknowledgement (.ok ⟨true⟩)

/-- What is refused before the store is asked changes nothing, and does not depend on the store. -/
theorem run_of_refused {c : ServiceCall} (h : c.call? = none) (s o : σ) :
    (c.run s).2 = s ∧ (c.run s).1 = (c.run o).1 := by
  cases c with
  | store c => simp [call?] at h
  | handOut now lease => simp [call?] at h
  | takeIn now report =>
    have hbad : report.id = "" ∨ report.result.isFinite = false := by
      by_contra hgood
      simp [call?, hgood] at h
    simp only [run, ArithService.takeIn]
    rcases hbad with hid | hresult
    · simp [hid]
    · by_cases hid : report.id = ""
      · simp [hid]
      · simp [hid, hresult]

/-- What comes down to a call of the store has its effect, and is answered by its answer. -/
theorem run_of_call? {c : ServiceCall} {d : Call} (h : c.call? = some d) (s : σ) :
    c.run s = (c.answerBy (d.run s).1, (d.run s).2) := by
  cases c with
  | store c =>
    obtain rfl := Option.some.inj h
    rfl
  | handOut now lease =>
    obtain rfl := Option.some.inj h
    simp only [run, ArithService.handOut, Call.run, StoreCommand.run]
    obtain ⟨result, after⟩ := Store.claim now lease s
    cases result with
    | error e => rfl
    | ok handed => cases handed <;> rfl
  | takeIn now report =>
    simp only [call?, Option.ite_none_left_eq_some, not_or, Bool.not_eq_false] at h
    obtain ⟨⟨hid, hresult⟩, hcall⟩ := h
    obtain rfl := Option.some.inj hcall
    simp only [run, ArithService.takeIn, if_neg hid, hresult, Call.run, StoreCommand.run]
    obtain ⟨result, after⟩ := Store.complete now report.id report.result s
    cases result <;> rfl

/-- A call only fails where the store does. -/
theorem exists_failed {c : ServiceCall} {a : StoreAnswer} (h : (c.answerBy a).IsFailure) :
    ∃ e, a = .failed e := by
  cases c with
  | store c => exact h
  | handOut now lease =>
    unfold answerBy at h
    split at h <;> simp_all [ServiceAnswer.IsFailure]
  | takeIn now report =>
    unfold answerBy at h
    split at h <;> simp_all [ServiceAnswer.IsFailure]

end Calls

end ServiceCall

/-! ### In memory -/

namespace MemoryStore

/-- **A failed call of a store in memory leaves it as it was.** -/
theorem run_of_failed {c : Call} {s : MemoryStore} {e : StoreError}
    (h : (c.run s).1 = .failed e) : (c.run s).2 = s := by
  obtain ⟨now, command⟩ := c
  cases command with
  | enqueue owner expression work =>
    have hfailed : (s.enqueue now owner expression work).1 = .error e :=
      StoreAnswer.ofResult_eq_failed (by simp) h
    show (s.enqueue now owner expression work).2 = s
    unfold enqueue at hfailed ⊢
    split at hfailed
    · rfl
    · simp at hfailed
  | requeue at_ => simp [Call.run, StoreCommand.run, Store.requeue, StoreAnswer.ofResult] at h
  | claim lease =>
    have hfailed : (s.claim now lease).1 = .error e :=
      StoreAnswer.ofResult_eq_failed (by simp) h
    show (s.claim now lease).2 = s
    unfold claim at hfailed ⊢
    split at hfailed
    · rfl
    · dsimp only at hfailed
      split at hfailed <;> simp at hfailed
  | complete id x =>
    have hfailed : (s.complete now id x).1 = .error e :=
      StoreAnswer.ofResult_eq_failed (by simp) h
    show (s.complete now id x).2 = s
    unfold complete at hfailed ⊢
    split at hfailed
    · rfl
    · simp at hfailed
  | createUser name passwordHash =>
    have hfailed : (s.createUser name passwordHash).1 = .error e :=
      StoreAnswer.ofResult_eq_failed (by simp) h
    show (s.createUser name passwordHash).2 = s
    unfold createUser at hfailed ⊢
    split at hfailed
    · rfl
    · simp at hfailed
  | get _ => rfl
  | list _ => rfl
  | findUser _ => rfl

end MemoryStore

/-- Whatever fails, also a call of a worker, leaves a store in memory as it was. -/
theorem MemoryStore.run_of_isFailure {c : ServiceCall} {s : MemoryStore}
    (h : (c.run s).1.IsFailure) : (c.run s).2 = s := by
  cases hcall : c.call? with
  | none => exact (ServiceCall.run_of_refused hcall s s).1
  | some d =>
    rw [ServiceCall.run_of_call? hcall] at h ⊢
    obtain ⟨e, hfailed⟩ := ServiceCall.exists_failed h
    exact run_of_failed hfailed

end ArithService
