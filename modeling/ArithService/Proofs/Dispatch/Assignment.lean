import Mathlib
import ArithService.Dispatch.Message
import ArithService.Proofs.Expression.Work

/-!
# What a task asks for

A task is read in two ways. Its record stands for a unit of work, with the operator read before
anything is computed; a worker is told the columns of the record, and reads the operator last. Both
give the same value for every record, also for one that no submission has made.

## Design Notes

The two ways differ in which error they meet first, so values are compared, and errors only as far
as the record is well-formed (`Task.compute_ofTask`).
-/

namespace ArithService

/-- A value of two operands is the value of a known operator on operands that can be read. -/
theorem evaluateBinary_eq_ok_iff {left operation right : String} {x : Binary64} :
    evaluateBinary left operation right = .ok x ↔
      ∃ a b o, readOperand left = .ok a ∧ readOperand right = .ok b ∧
        Operator.ofText operation = .ok o ∧ o.apply a b = .ok x := by
  unfold evaluateBinary
  cases readOperand left with
  | error e => simp
  | ok a =>
    cases readOperand right with
    | error e => simp
    | ok b => cases Operator.ofText operation <;> simp

namespace Task

variable {t : Task}

/-- Where a record stands for work, a worker comes to the value of that work, or to its error. -/
theorem compute_ofTask {work : Work} (h : t.work = .ok work) :
    (Assignment.ofTask t).compute = work.compute := by
  unfold Task.work at h
  unfold Assignment.ofTask
  split_ifs at h ⊢ with hwhole
  · obtain rfl := Except.ok.inj h
    exact if_pos rfl
  · cases hoperator : Operator.ofText t.operation with
    | error e => simp [hoperator] at h
    | ok o =>
      simp only [hoperator, Except.ok.injEq] at h
      subst h
      rw [Work.compute, ← Operator.ofText_eq_ok_iff.1 hoperator]
      exact if_neg hwhole

/-- A worker only comes to a value where the record stands for work. -/
theorem exists_work_of_compute {x : Binary64} (h : (Assignment.ofTask t).compute = .ok x) :
    ∃ work, t.work = .ok work := by
  unfold Task.work
  split_ifs with hwhole
  · exact ⟨_, rfl⟩
  · have hbinary : evaluateBinary t.arg1 t.operation t.arg2 = .ok x := by
      rw [← h, Assignment.ofTask, if_neg hwhole]
      exact (if_neg hwhole).symm
    obtain ⟨a, b, o, -, -, hoperator, -⟩ := evaluateBinary_eq_ok_iff.1 hbinary
    simp only [hoperator]
    exact ⟨_, rfl⟩

/-- **A worker comes to a value exactly if the record stands for work of this value.** -/
theorem compute_ofTask_eq_ok_iff {x : Binary64} :
    (Assignment.ofTask t).compute = .ok x ↔ ∃ work, t.work = .ok work ∧ work.compute = .ok x := by
  constructor
  · intro h
    obtain ⟨work, hwork⟩ := exists_work_of_compute h
    exact ⟨work, hwork, by rw [← compute_ofTask hwork, h]⟩
  · rintro ⟨work, hwork, hvalue⟩
    rw [compute_ofTask hwork, hvalue]

/-- The record of a single operation stands for this operation. -/
theorem work_fresh_binary (id expression left right : String) (owner : Int) (o : Operator)
    (created : Instant) :
    (fresh id owner expression (.binary left o right) created).work =
      .ok (.binary left o right) := by
  show (if o.text = "" then _ else _) = _
  rw [if_neg o.text_ne_empty]
  simp [fresh, Work.columns]

end Task

/-- **A worker computes what the task means.** For every record, a worker comes to a value exactly
if the record stands for work of this value. The record of a single operation stands for this
operation, and every other one for the text that was submitted. -/
theorem workers_compute_work :
    (∀ (t : Task) (x : Binary64), (Assignment.ofTask t).compute = .ok x ↔
      ∃ work, t.work = .ok work ∧ work.compute = .ok x) ∧
    (∀ (id expression left right : String) (owner : Int) (o : Operator) (created : Instant),
      (Task.fresh id owner expression (.binary left o right) created).work =
        .ok (.binary left o right)) ∧
    ∀ (id expression text : String) (owner : Int) (created : Instant),
      (Task.fresh id owner expression (.expression text) created).work =
        .ok (.expression expression) :=
  ⟨fun _ _ => Task.compute_ofTask_eq_ok_iff, Task.work_fresh_binary,
    fun _ _ _ _ _ => if_pos rfl⟩

end ArithService
