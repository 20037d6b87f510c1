import Mathlib
import ArithService.Proofs.Expression.Scan

/-!
# The conversion, turn by turn

A step of the scan reads one character and may move many operators. This module takes the
conversion apart into the turns of its loops, each of which moves one token at most, so that
what holds in the middle of a step can be stated.

## Main Definitions

* `Stage` — a point between two turns: the rest of the text, what is being done, and the scan
* `Stage.Turn`, `Stage.Ends` — what a turn does, and the answers at which there is none
* `Passes` — the stages that the conversion of a text passes through

## Design Notes

Turns are a relation with a case for every branch of every loop. That they are the turns of the
conversion is shown by `passes_of_foldlM`, for the states between two characters, and by
`endsWith_toPostfix`, for the answer. There is one turn at most from every stage
(`Turn.unique`), so the stages of a text lie on one path.
-/

namespace ArithService

/-- Move the operator on top of the stack to the output. -/
def Scan.pop (s : Scan) (top : Operator) (below : List Pending) : Scan :=
  { s with stack := below, output := .operator top :: s.output }

/-- What the conversion is doing. -/
inductive Activity where
  /-- Going on to the next character. -/
  | reading
  /-- Making room on the stack for an operator. -/
  | displacing (o : Operator)
  /-- Looking for the parenthesis that is closed. -/
  | closing
  /-- Emptying the stack at the end of the text. -/
  | draining
deriving DecidableEq, Repr

/-- A point of the conversion between two turns of its loops. -/
structure Stage where
  /-- The characters that were not read yet. -/
  rest : List Char
  activity : Activity
  scan : Scan

namespace Stage

/-- Nothing has been read yet. -/
def start (text : String) : Stage := ⟨text.toList, .reading, {}⟩

/-- One turn of one of the loops. -/
inductive Turn : Stage → Stage → Prop where
  /-- A character of a number is kept. -/
  | operand {c : Char} {rest : List Char} {s : Scan} (h : isOperandChar c = true) :
      Turn ⟨c :: rest, .reading, s⟩ ⟨rest, .reading, { s with run := c :: s.run }⟩
  | opening {rest : List Char} {s : Scan} :
      Turn ⟨'(' :: rest, .reading, s⟩
        ⟨rest, .reading, { s.flush with stack := .group :: s.flush.stack }⟩
  | closing {rest : List Char} {s : Scan} :
      Turn ⟨')' :: rest, .reading, s⟩ ⟨rest, .closing, s.flush⟩
  | operator {c : Char} {o : Operator} {rest : List Char} {s : Scan}
      (h : Operator.ofChar? c = some o) :
      Turn ⟨c :: rest, .reading, s⟩ ⟨rest, .displacing o, s.flush⟩
  | finish {s : Scan} : Turn ⟨[], .reading, s⟩ ⟨[], .draining, s.flush⟩
  /-- An operator on top that binds at least as tightly makes room. -/
  | displace {o top : Operator} {rest : List Char} {s : Scan} {below : List Pending}
      (hstack : s.stack = .operator top :: below) (htop : o.precedence ≤ top.precedence) :
      Turn ⟨rest, .displacing o, s⟩ ⟨rest, .displacing o, s.pop top below⟩
  /-- An operator is placed on a weaker one, on a parenthesis or at the bottom. -/
  | place {o : Operator} {rest : List Char} {s : Scan} (hweak : Scan.WeakTop o.precedence s.stack) :
      Turn ⟨rest, .displacing o, s⟩ ⟨rest, .reading, { s with stack := .operator o :: s.stack }⟩
  | unwind {top : Operator} {rest : List Char} {s : Scan} {below : List Pending}
      (hstack : s.stack = .operator top :: below) :
      Turn ⟨rest, .closing, s⟩ ⟨rest, .closing, s.pop top below⟩
  | close {rest : List Char} {s : Scan} {below : List Pending}
      (hstack : s.stack = .group :: below) :
      Turn ⟨rest, .closing, s⟩ ⟨rest, .reading, { s with stack := below }⟩
  | drain {top : Operator} {s : Scan} {below : List Pending}
      (hstack : s.stack = .operator top :: below) :
      Turn ⟨[], .draining, s⟩ ⟨[], .draining, s.pop top below⟩

/-- A stage at which the conversion ends, with its answer. -/
inductive Ends : Stage → Except ExpressionError Postfix → Prop where
  | foreign {c : Char} {rest : List Char} {s : Scan} (hoperand : isOperandChar c = false)
      (hopening : c ≠ '(') (hclosing : c ≠ ')') (hoperator : Operator.ofChar? c = none) :
      Ends ⟨c :: rest, .reading, s⟩ (.error (.invalidCharacter c))
  | unopened {rest : List Char} {s : Scan} (hstack : s.stack = []) :
      Ends ⟨rest, .closing, s⟩ (.error .mismatchedParentheses)
  | unclosed {s : Scan} {below : List Pending} (hstack : s.stack = .group :: below) :
      Ends ⟨[], .draining, s⟩ (.error .mismatchedParentheses)
  | done {s : Scan} (hstack : s.stack = []) : Ends ⟨[], .draining, s⟩ (.ok s.output.reverse)

/-- One stage leads to another by turns. -/
def Leads : Stage → Stage → Prop := Relation.ReflTransGen Turn

/-- From a stage on, the conversion ends with an answer. -/
def EndsWith (m : Stage) (answer : Except ExpressionError Postfix) : Prop :=
  ∃ n, m.Leads n ∧ n.Ends answer

variable {m n : Stage} {answer : Except ExpressionError Postfix} {s t : Scan} {c : Char}
  {cs rest : List Char} {e : ExpressionError}

theorem Ends.endsWith (h : m.Ends answer) : m.EndsWith answer :=
  ⟨m, Relation.ReflTransGen.refl, h⟩

/-- Turns before an end lead to the same end, so it is enough to know the end from some later stage
on. -/
theorem Leads.endsWith (h : m.Leads n) (hend : n.EndsWith answer) : m.EndsWith answer := by
  obtain ⟨last, hleads, hanswer⟩ := hend
  exact ⟨last, Relation.ReflTransGen.trans h hleads, hanswer⟩

theorem Turn.endsWith (h : m.Turn n) (hend : n.EndsWith answer) : m.EndsWith answer :=
  Leads.endsWith (.single h) hend

/-! ### One path -/

/-- A character of an operator is no other character, so the cases of the scan do not overlap. -/
theorem kind_of_ofChar? {o : Operator} (h : Operator.ofChar? c = some o) :
    isOperandChar c = false ∧ c ≠ '(' ∧ c ≠ ')' := by
  obtain rfl := Operator.symbol_of_ofChar? h
  cases o <;> decide

/-- **There is one turn at most.** Two turns of one kind go to the same stage, and of two kinds the
one asks for what the other excludes. So the stages that a text leads to are those that the program
passes through, and what is proved of all of them is not proved of too many. -/
theorem Turn.unique {k : Stage} (h : m.Turn n) (h' : m.Turn k) : n = k := by
  cases h with
  | operand hoperand =>
    cases h' with
    | operand => rfl
    | opening => cases hoperand
    | closing => cases hoperand
    | operator hoperator => exact absurd hoperand (by simp [kind_of_ofChar? hoperator])
  | opening =>
    cases h' with
    | operand hoperand => cases hoperand
    | opening => rfl
    | operator hoperator => exact absurd rfl (kind_of_ofChar? hoperator).2.1
  | closing =>
    cases h' with
    | operand hoperand => cases hoperand
    | closing => rfl
    | operator hoperator => exact absurd rfl (kind_of_ofChar? hoperator).2.2
  | operator hoperator =>
    cases h' with
    | operand hoperand => exact absurd hoperand (by simp [kind_of_ofChar? hoperator])
    | opening => exact absurd rfl (kind_of_ofChar? hoperator).2.1
    | closing => exact absurd rfl (kind_of_ofChar? hoperator).2.2
    | operator hoperator' =>
      obtain rfl := Option.some.inj (hoperator.symm.trans hoperator')
      rfl
  | finish => cases h'; rfl
  | displace hstack htop =>
    cases h' with
    | displace hstack' =>
      cases hstack.symm.trans hstack'
      rfl
    | place hweak => exact absurd (hweak _ _ hstack) (not_lt.2 htop)
  | place hweak =>
    cases h' with
    | displace hstack htop => exact absurd (hweak _ _ hstack) (not_lt.2 htop)
    | place => rfl
  | unwind hstack =>
    cases h' with
    | unwind hstack' =>
      cases hstack.symm.trans hstack'
      rfl
    | close hstack' => cases hstack.symm.trans hstack'
  | close hstack =>
    cases h' with
    | unwind hstack' => cases hstack.symm.trans hstack'
    | close hstack' =>
      cases hstack.symm.trans hstack'
      rfl
  | drain hstack =>
    cases h' with
    | drain hstack' =>
      cases hstack.symm.trans hstack'
      rfl

/-! ### The loops -/

/-- Making room ends with the operator on the stack. The loop of the scan is one call of
`Scan.displace`; here it is as many turns as operators are moved. -/
theorem leads_displace (o : Operator) (rest run : List Char) (stack : List Pending)
    (output : List Token) :
    Leads ⟨rest, .displacing o, ⟨run, output, stack⟩⟩ ⟨rest, .reading, ⟨run,
      (Scan.displace o stack output).2, .operator o :: (Scan.displace o stack output).1⟩⟩ := by
  induction stack generalizing output with
  | nil => exact .single (.place (by simp [Scan.WeakTop]))
  | cons entry below ih =>
    cases entry with
    | group => exact .single (.place (by simp [Scan.WeakTop]))
    | operator top =>
      rw [Scan.displace]
      split_ifs with hweak
      · exact .single (.place (by simp [Scan.WeakTop, hweak]))
      · exact (ih (.operator top :: output)).head (.displace rfl (not_lt.1 hweak))

/-- Closing ends at the parenthesis on the stack, if there is one. -/
theorem leads_closeGroup (rest run : List Char) {stack below : List Pending}
    {output after : List Token} (h : Scan.closeGroup stack output = some (below, after)) :
    Leads ⟨rest, .closing, ⟨run, output, stack⟩⟩ ⟨rest, .reading, ⟨run, after, below⟩⟩ := by
  induction stack generalizing output with
  | nil => cases h
  | cons entry stack ih =>
    cases entry with
    | group =>
      obtain ⟨rfl, rfl⟩ := Prod.mk.inj (Option.some.inj h)
      exact .single (.close rfl)
    | operator top => exact (ih h).head (.unwind rfl)

/-- Without one, closing empties the stack and ends with an error. The operators that were moved on
the way are lost, so the turns have to go on as long as the loop does. -/
theorem endsWith_of_closeGroup (rest run : List Char) {stack : List Pending}
    {output : List Token} (h : Scan.closeGroup stack output = none) :
    EndsWith ⟨rest, .closing, ⟨run, output, stack⟩⟩ (.error .mismatchedParentheses) := by
  induction stack generalizing output with
  | nil => exact (Ends.unopened rfl).endsWith
  | cons entry stack ih =>
    cases entry with
    | group => cases h
    | operator top => exact Turn.endsWith (.unwind rfl) (ih h)

/-- At the end of the text the stack is emptied, down to an open parenthesis if there is one. -/
theorem endsWith_drain (run : List Char) (stack : List Pending) (output : List Token) :
    EndsWith ⟨[], .draining, ⟨run, output, stack⟩⟩
      ((Scan.drain stack output).map List.reverse) := by
  induction stack generalizing output with
  | nil => exact (Ends.done rfl).endsWith
  | cons entry stack ih =>
    cases entry with
    | group => exact (Ends.unclosed rfl).endsWith
    | operator top => exact Turn.endsWith (.drain rfl) (ih (.operator top :: output))

/-! ### Characters -/

/-- A character that is read leads to the next one, through all turns that it takes. -/
theorem leads_of_step (rest : List Char) (h : s.step c = .ok t) :
    Leads ⟨c :: rest, .reading, s⟩ ⟨rest, .reading, t⟩ := by
  unfold Scan.step Scan.punctuation at h
  split_ifs at h with hoperand hopening hclosing
  · obtain rfl := Except.ok.inj h
    exact .single (.operand hoperand)
  · obtain rfl := Except.ok.inj h
    exact hopening ▸ .single .opening
  · cases hgroup : Scan.closeGroup s.flush.stack s.flush.output with
    | none =>
      rw [hgroup] at h
      cases h
    | some found =>
      rw [hgroup] at h
      obtain rfl := Except.ok.inj h
      exact hclosing ▸ (leads_closeGroup rest s.flush.run hgroup).head .closing
  · cases hoperator : Operator.ofChar? c with
    | none =>
      rw [hoperator] at h
      cases h
    | some o =>
      rw [hoperator] at h
      obtain rfl := Except.ok.inj h
      exact (leads_displace o rest s.flush.run s.flush.stack s.flush.output).head
        (.operator hoperator)

/-- A character that is refused is where the conversion ends. -/
theorem endsWith_of_step (rest : List Char) (h : s.step c = .error e) :
    EndsWith ⟨c :: rest, .reading, s⟩ (.error e) := by
  unfold Scan.step Scan.punctuation at h
  split_ifs at h with hoperand hopening hclosing
  · cases hgroup : Scan.closeGroup s.flush.stack s.flush.output with
    | none =>
      rw [hgroup] at h
      obtain rfl := Except.error.inj h
      exact hclosing ▸ Turn.closing.endsWith (endsWith_of_closeGroup rest s.flush.run hgroup)
    | some found =>
      rw [hgroup] at h
      cases h
  · cases hoperator : Operator.ofChar? c with
    | none =>
      rw [hoperator] at h
      obtain rfl := Except.error.inj h
      exact (Ends.foreign (by simpa using hoperand) hopening hclosing hoperator).endsWith
    | some o =>
      rw [hoperator] at h
      cases h

/-- Characters that are read lead to what stands behind them. -/
theorem leads_of_steps (rest : List Char) (h : Steps Scan.step cs s t) :
    Leads ⟨cs ++ rest, .reading, s⟩ ⟨rest, .reading, t⟩ := by
  induction h with
  | nil => exact .refl
  | cons hstep _ ih => exact Relation.ReflTransGen.trans (leads_of_step _ hstep) ih

/-- The end of the text is where the conversion ends with the answer of the scan. -/
theorem endsWith_finish (s : Scan) : EndsWith ⟨[], .reading, s⟩ s.finish := by
  have hfinish : s.finish = (Scan.drain s.flush.stack s.flush.output).map List.reverse := by
    unfold Scan.finish
    cases Scan.drain s.flush.stack s.flush.output <;> rfl
  rw [hfinish]
  exact Turn.finish.endsWith (endsWith_drain s.flush.run s.flush.stack s.flush.output)

end Stage

/-- The conversion of a text passes through a stage. -/
def Passes (text : String) (m : Stage) : Prop := (Stage.start text).Leads m

/-- **The states between two characters** are stages of the conversion. So everything that holds at
every stage holds of the scan that runs. -/
theorem passes_of_foldlM {text : String} {before after : List Char} {s : Scan}
    (htext : text.toList = before ++ after) (h : before.foldlM Scan.step {} = .ok s) :
    Passes text ⟨after, .reading, s⟩ := by
  unfold Passes Stage.start
  rw [htext]
  exact Stage.leads_of_steps after (steps_of_foldlM h)

/-- **The turns end with the answer of the conversion.** Without this the turns could be those of
another program. -/
theorem endsWith_toPostfix (text : String) : (Stage.start text).EndsWith (toPostfix text) := by
  unfold toPostfix
  cases hscan : text.toList.foldlM Scan.step {} with
  | ok s =>
    have hpasses : Passes text ⟨[], .reading, s⟩ :=
      passes_of_foldlM (List.append_nil _).symm hscan
    exact hpasses.endsWith (Stage.endsWith_finish s)
  | error e =>
    obtain ⟨before, c, after, s, htext, hbefore, hfails⟩ := foldlM_eq_error_iff.1 hscan
    have hpasses : Passes text ⟨c :: after, .reading, s⟩ := passes_of_foldlM htext hbefore
    exact hpasses.endsWith (Stage.endsWith_of_step after hfails)

end ArithService
