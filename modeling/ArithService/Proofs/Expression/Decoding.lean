import Mathlib
import ArithService.Proofs.Expression.Meaning
import ArithService.Proofs.Expression.Work

/-!
# Which expression a postfix sequence stands for

A postfix sequence is the postorder of at most one expression. It has a value exactly if it is
the postorder of an expression that has one, and fails as that expression fails.

## Main Definitions

* `Expression.readToken` — the stack machine that puts expressions together, not values
* `postorders` — the sequence that a stack of expressions was read from
* `HasValues` — a stack of expressions beside the stack of their values

## Design Notes

Putting expressions together undoes `postorder` (`foldlM_readToken_postorder`), so no two
expressions have the same one. That a sequence with a value is a postorder at all needs a
statement about stacks of any height, since one value is left at the end only: every stack of
values lies beside the expressions that were read so far (`exists_hasValues_of_steps`).
-/

namespace ArithService

namespace Expression

/-! ### From postfix to expressions -/

/-- Read one token on a stack of expressions, latest first. -/
def readToken (stack : List Expression) : Token → Option (List Expression)
  | .number text => some (.operand text :: stack)
  | .operator o =>
    match stack with
    | right :: left :: rest => some (.operation o left right :: rest)
    | _ => none

/-- Reading the postorder of an expression puts the expression on the stack, whatever lies below.
The induction is over the expression, and the stack has to be any stack for it. -/
theorem foldlM_readToken_postorder (e : Expression) (stack : List Expression) :
    e.postorder.foldlM readToken stack = some (e :: stack) := by
  induction e generalizing stack with
  | operand text => rfl
  | operation o left right ihLeft ihRight =>
    rw [postorder, List.foldlM_append, List.foldlM_append, ihLeft]
    show (right.postorder.foldlM readToken (left :: stack) >>= _) = _
    rw [ihRight]
    rfl

/-- **An expression is known from its postorder.** -/
theorem postorder_injective : Function.Injective postorder := by
  intro e e' h
  have hread := e.foldlM_readToken_postorder []
  rw [h, foldlM_readToken_postorder, Option.some.injEq] at hread
  exact (List.singleton_inj.1 hread).symm

end Expression

/-! ### Expressions beside their values -/

/-- The postfix sequence that a stack of expressions was read from. -/
def postorders (stack : List Expression) : Postfix := stack.reverse.flatMap Expression.postorder

theorem postorders_cons (e : Expression) (stack : List Expression) :
    postorders (e :: stack) = postorders stack ++ e.postorder := by
  simp [postorders]

/-- Expressions beside their values. -/
def HasValues : List Expression → List Binary64 → Prop :=
  List.Forall₂ fun e x => e.value = .ok x

variable {tokens : Postfix} {values after : List Binary64} {stack : List Expression}

/-- A token that is run on values is read on the expressions beside them. This is the step of
`exists_hasValues_of_steps`. -/
theorem HasValues.exists_evaluateToken {t : Token} (h : HasValues stack values)
    (htoken : evaluateToken values t = .ok after) :
    ∃ next, HasValues next after ∧ postorders next = postorders stack ++ [t] := by
  cases t with
  | number text =>
    simp only [evaluateToken] at htoken
    split at htoken
    · next value hvalue =>
      obtain rfl := Except.ok.inj htoken
      exact ⟨.operand text :: stack, .cons hvalue h, postorders_cons _ _⟩
    · cases htoken
  | operator o =>
    simp only [evaluateToken] at htoken
    split at htoken
    · next b a rest =>
      -- The right side was read last, so it lies on top.
      obtain ⟨right, _, hright, hothers, rfl⟩ := List.forall₂_cons_right_iff.1 h
      obtain ⟨left, below, hleft, hbelow, rfl⟩ := List.forall₂_cons_right_iff.1 hothers
      split at htoken
      · next value happly =>
        obtain rfl := Except.ok.inj htoken
        have hvalue : (Expression.operation o left right).value = .ok value := by
          rw [Expression.value, hleft, hright]
          exact happly
        refine ⟨.operation o left right :: below, .cons hvalue hbelow, ?_⟩
        simp only [postorders_cons, Expression.postorder, List.append_assoc]
      · cases htoken
    · cases htoken

/-- Whatever has been run, the values on the stack are those of expressions, and these have been
read in full. -/
theorem exists_hasValues_of_steps (h : HasValues stack values)
    (hsteps : Steps evaluateToken tokens values after) :
    ∃ next, HasValues next after ∧ postorders next = postorders stack ++ tokens := by
  induction hsteps generalizing stack with
  | nil => exact ⟨stack, h, by simp⟩
  | cons htoken _ ih =>
    obtain ⟨middle, hmiddle, hfirst⟩ := h.exists_evaluateToken htoken
    obtain ⟨next, hnext, hrest⟩ := ih hmiddle
    exact ⟨next, hnext, by rw [hrest, hfirst, List.append_assoc, List.singleton_append]⟩

/-- A sequence with a value is the postorder of an expression with that value. -/
theorem exists_postorder_of_evaluatePostfix {x : Binary64} (h : evaluatePostfix tokens = .ok x) :
    ∃ e : Expression, e.postorder = tokens ∧ e.value = .ok x := by
  unfold evaluatePostfix at h
  split at h
  · next value hrun =>
    obtain rfl := Except.ok.inj h
    obtain ⟨next, hnext, htokens⟩ :=
      exists_hasValues_of_steps (.nil : HasValues [] []) (steps_of_foldlM hrun)
    obtain ⟨e, _, hvalue, hnone, rfl⟩ := List.forall₂_cons_right_iff.1 hnext
    obtain rfl := List.forall₂_nil_right_iff.1 hnone
    exact ⟨e, by simpa [postorders] using htokens, hvalue⟩
  · cases h
  · cases h

/-- **Evaluation decodes exactly postfix.** A sequence has a value if it is the postorder of an
expression with that value; there is one such expression only, and all values on the way are
finite. The postorder of an expression fails with the error of the expression, and everything
else fails. -/
theorem evaluatePostfix_exact (tokens : Postfix) :
    (∀ x, evaluatePostfix tokens = .ok x ↔
      ∃ e : Expression, e.postorder = tokens ∧ e.value = .ok x) ∧
    (∀ e e' : Expression, e.postorder = tokens → e'.postorder = tokens → e = e') ∧
    (∀ x, evaluatePostfix tokens = .ok x → x.isFinite = true) ∧
    (∀ done rest values, tokens = done ++ rest → done.foldlM evaluateToken [] = .ok values →
      ∀ x ∈ values, x.isFinite = true) ∧
    (∀ (e : Expression) error, e.postorder = tokens → e.value = .error error →
      evaluatePostfix tokens = .error error) ∧
    ((¬ ∃ e : Expression, e.postorder = tokens) →
      ∃ error, evaluatePostfix tokens = .error error) := by
  refine ⟨?value, ?unique, ?finite, ?stack, ?error, ?other⟩
  case value =>
    intro x
    constructor
    · exact exists_postorder_of_evaluatePostfix
    · rintro ⟨e, rfl, hvalue⟩
      rw [e.evaluatePostfix_postorder, hvalue]
  case unique =>
    rintro e e' rfl h
    exact (Expression.postorder_injective h).symm
  case finite => exact fun x => evaluatePostfix_isFinite
  case stack =>
    rintro done rest values - hrun
    exact isFinite_of_steps (by simp) (steps_of_foldlM hrun)
  case error =>
    rintro e error rfl herror
    rw [e.evaluatePostfix_postorder, herror]
  case other =>
    intro hnone
    cases hvalue : evaluatePostfix tokens with
    | error error => exact ⟨error, rfl⟩
    | ok x =>
      obtain ⟨e, htokens, -⟩ := exists_postorder_of_evaluatePostfix hvalue
      exact absurd ⟨e, htokens⟩ hnone

end ArithService
