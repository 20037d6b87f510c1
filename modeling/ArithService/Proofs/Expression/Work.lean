import Mathlib
import ArithService.Expression.Work
import ArithService.Proofs.Expression.Scan
import ArithService.Proofs.Text.ZeroFree

/-!
# What a worker computes

A submitted text that is accepted has a finite value, and the unit of work that is made of it
gives the same value.

## Main Definitions

* `Work.Yields` — work that gives a value for a text

## Design Notes

A text with a single operator is sent as two operands, so that a worker goes a different way
than the check at submission did. The two ways meet in `evaluatePostfix_binary`. Operands are
shown to be free of zero characters because they could be read (`isZeroFree_of_readOperand`),
not by following the scan that cut them out.
-/

namespace ArithService

/-! ### Finite values -/

/-- What is read is finite: a decimal that is too large is refused and does not become infinity. -/
theorem readOperand_isFinite {text : String} {x : Binary64} (h : readOperand text = .ok x) :
    x.isFinite = true := by
  unfold readOperand at h
  split at h
  · split at h
    · next hfinite =>
      obtain rfl := Except.ok.inj h
      exact hfinite
    · simp at h
  · simp at h

/-- An operand that cannot be read is named as it was given, with the white space around it. -/
theorem readOperand_eq_error {text : String} {e : ExpressionError}
    (h : readOperand text = .error e) : e = .invalidNumber text := by
  unfold readOperand at h
  split at h
  · split at h
    · cases h
    · exact (Except.error.inj h).symm
  · exact (Except.error.inj h).symm

/-- So is the result of an operation, and no operation gives NaN. -/
theorem apply_isFinite {o : Operator} {a b x : Binary64} (h : o.apply a b = .ok x) :
    x.isFinite = true := by
  unfold Operator.apply at h
  split_ifs at h with hzero hfinite
  obtain rfl := Except.ok.inj h
  exact hfinite

/-- An operation fails for a zero divisor or a result that is too large. -/
theorem apply_error_cases {o : Operator} {a b : Binary64} {e : ExpressionError}
    (h : o.apply a b = .error e) : e = .divisionByZero ∨ e = .overflow := by
  unfold Operator.apply at h
  split_ifs at h with hzero hfinite
  · exact .inl (Except.error.inj h).symm
  · exact .inr (Except.error.inj h).symm

/-- One token keeps all values on the stack finite. It is the step of the induction over postfix
sequences. -/
theorem evaluateToken_isFinite {stack after : List Binary64} {t : Token}
    (hstack : ∀ x ∈ stack, x.isFinite = true) (h : evaluateToken stack t = .ok after) :
    ∀ x ∈ after, x.isFinite = true := by
  cases t with
  | number text =>
    simp only [evaluateToken] at h
    split at h
    · next value hvalue =>
      obtain rfl := Except.ok.inj h
      exact List.forall_mem_cons.2 ⟨readOperand_isFinite hvalue, hstack⟩
    · simp at h
  | operator o =>
    simp only [evaluateToken] at h
    split at h
    · next b a rest =>
      split at h
      · next value hvalue =>
        obtain rfl := Except.ok.inj h
        exact List.forall_mem_cons.2 ⟨apply_isFinite hvalue, fun x hx => hstack x (by simp [hx])⟩
      · simp at h
    · simp at h

theorem isFinite_of_steps {tokens : Postfix} {stack after : List Binary64}
    (hstack : ∀ x ∈ stack, x.isFinite = true) (h : Steps evaluateToken tokens stack after) :
    ∀ x ∈ after, x.isFinite = true := by
  induction h with
  | nil => exact hstack
  | cons htoken _ ih => exact ih (evaluateToken_isFinite hstack htoken)

/-- The value of a postfix sequence is finite, whatever its tokens are and wherever they come
from. -/
theorem evaluatePostfix_isFinite {tokens : Postfix} {x : Binary64}
    (h : evaluatePostfix tokens = .ok x) : x.isFinite = true := by
  unfold evaluatePostfix at h
  split at h
  · next value hstack =>
    obtain rfl := Except.ok.inj h
    exact isFinite_of_steps (by simp) (steps_of_foldlM hstack) _ (by simp)
  · simp at h
  · simp at h

/-! ### Single operations -/

@[simp] theorem Operator.ofText_text (o : Operator) : ofText o.text = .ok o := by
  cases o <;> decide

/-- An operator is read from its own text and from no other one. -/
theorem Operator.ofText_eq_ok_iff {text : String} {o : Operator} :
    ofText text = .ok o ↔ text = o.text := by
  refine ⟨fun h => ?_, fun h => h ▸ o.ofText_text⟩
  unfold ofText at h
  split at h
  · next c hchars =>
    cases hoperator : ofChar? c with
    | none => simp [hoperator] at h
    | some p =>
      simp only [hoperator, Except.ok.injEq] at h
      rw [← h, Operator.text, Operator.symbol_of_ofChar? hoperator, ← String.toList_inj, hchars]
      simp
  · simp at h

theorem Operator.text_ne_empty (o : Operator) : o.text ≠ "" := by
  cases o <;> decide

/-- Evaluating the tokens of a single operation is the operation on its operands. Here the worker
and the check at submission meet. -/
theorem evaluatePostfix_binary (left right : String) (o : Operator) :
    evaluatePostfix [.number left, .number right, .operator o] =
      evaluateBinary left o.text right := by
  unfold evaluatePostfix evaluateBinary
  cases hleft : readOperand left with
  | error e => simp [evaluateToken, hleft, bind, Except.bind]
  | ok a =>
    cases hright : readOperand right with
    | error e => simp [evaluateToken, hleft, hright, bind, Except.bind]
    | ok b =>
      cases happly : o.apply a b <;>
        simp [evaluateToken, hleft, hright, happly, bind, Except.bind, pure, Except.pure]

/-! ### Characters -/

theorem toNat_ne_zero_of_isWhiteSpace {c : Char} (h : isWhiteSpace c = true) : c.toNat ≠ 0 := by
  intro hzero
  simp [isWhiteSpace, hzero] at h

/-- What trimming removes is white space. So whatever holds of white space and of what is left holds
of the whole text. -/
theorem isWhiteSpace_or_mem_trimChars {cs : List Char} {c : Char} (h : c ∈ cs) :
    isWhiteSpace c = true ∨ c ∈ trimChars cs := by
  -- Trimming is trimming on the left twice, the second time from the end.
  have hleft : ∀ {ds : List Char}, c ∈ ds → isWhiteSpace c = true ∨ c ∈ trimLeft ds := by
    intro ds hc
    rw [← List.takeWhile_append_dropWhile (p := isWhiteSpace) (l := ds), List.mem_append] at hc
    exact hc.imp_left List.mem_takeWhile_imp
  rcases hleft h with hspace | hmem
  · exact .inl hspace
  · exact (hleft (List.mem_reverse.2 hmem)).imp_right List.mem_reverse.2

/-- A literal consists of digits and dots. -/
theorem isOperandChar_of_ofLiteral? {text : List Char} {x : Binary64}
    (h : Binary64.ofLiteral? text = some x) {c : Char} (hc : c ∈ text) :
    isOperandChar c = true := by
  rw [← List.takeWhile_append_dropWhile (p := isDigit) (l := text), List.mem_append] at hc
  simp only [Binary64.ofLiteral?] at h
  rcases hc with hwhole | hrest
  · simp [isOperandChar, List.mem_takeWhile_imp hwhole]
  · split at h
    · next hnone =>
      rw [hnone] at hrest
      simp at hrest
    · next dot fraction hdot =>
      rw [hdot] at hrest
      split_ifs at h with hdigits
      rcases List.mem_cons.1 hrest with rfl | hfraction
      · simp [isOperandChar, hdigits.1]
      · simp [isOperandChar, List.all_eq_true.1 hdigits.2.1 c hfraction]

/-- An operand that can be read has no zero characters: it consists of digits, dots and white space.
So a database gives it back whole. -/
theorem isZeroFree_of_readOperand {text : String} {x : Binary64} (h : readOperand text = .ok x) :
    IsZeroFree text := by
  intro c hc
  unfold readOperand at h
  split at h
  · next value hvalue =>
    rcases isWhiteSpace_or_mem_trimChars hc with hspace | hmem
    · exact toNat_ne_zero_of_isWhiteSpace hspace
    · have hoperand := isOperandChar_of_ofLiteral? hvalue hmem
      rw [isOperandChar, Bool.or_eq_true, decide_eq_true_eq] at hoperand
      rcases hoperand with hdigit | rfl
      · exact toNat_ne_zero_of_isDigit hdigit
      · decide
  · simp at h

/-- A text that is made of the characters of the language has no zero characters, for the same
reason. -/
theorem isZeroFree_of_checkCharacters {text : String} (h : checkCharacters text = .ok ()) :
    IsZeroFree text := by
  intro c hc hzero
  unfold checkCharacters at h
  split_ifs at h
  split at h
  · simp at h
  · next hnone =>
    -- The zero character is none of the allowed ones.
    have hallowed := List.find?_eq_none.1 hnone c hc
    have hchar : c = Char.ofNat 0 := by rw [← hzero, Char.ofNat_toNat]
    rw [hchar] at hallowed
    exact hallowed (by decide)

theorem Operator.isZeroFree_text (o : Operator) : IsZeroFree o.text := by
  cases o <;> simp [text, symbol, IsZeroFree]

/-! ### Work -/

/-- Work that gives a value for a text: one operation on two literals, or the whole text. -/
inductive Work.Yields (text : String) (x : Binary64) : Work → Prop where
  | binary {left right : String} {o : Operator} (hleft : IsZeroFree left)
      (hright : IsZeroFree right) (hvalue : evaluateBinary left o.text right = .ok x) :
      Yields text x (.binary left o right)
  | expression {stripped : String} (hvalue : evaluate text = .ok x) :
      Yields text x (.expression stripped)

/-- Work that is made of a text with a value gives that value, whether it is one operation or the
text itself. -/
theorem yields_classify {text : String} {tokens : Postfix} {x : Binary64}
    (htokens : toPostfix (removeWhiteSpace text) = .ok tokens)
    (hvalue : evaluatePostfix tokens = .ok x) :
    (classify (removeWhiteSpace text) tokens).Yields text x := by
  unfold classify
  split
  · next left right o =>
    rw [evaluatePostfix_binary] at hvalue
    -- The operation has a value, so both operands could be read.
    have hoperands : (∃ a, readOperand left = .ok a) ∧ ∃ b, readOperand right = .ok b := by
      unfold evaluateBinary at hvalue
      split at hvalue
      · simp at hvalue
      · split at hvalue
        · simp at hvalue
        · exact ⟨⟨_, ‹_›⟩, ⟨_, ‹_›⟩⟩
    obtain ⟨⟨a, hleft⟩, b, hright⟩ := hoperands
    exact .binary (isZeroFree_of_readOperand hleft) (isZeroFree_of_readOperand hright) hvalue
  · refine .expression ?_
    rw [evaluate, htokens]
    exact hvalue

/-- **An accepted text has a finite value**, and the work that is made of it gives that value. This
is why no task that was accepted is ever left without a result for what it is. -/
theorem Work.yields_of_ofText {text : String} {work : Work} (h : Work.ofText text = .ok work) :
    ∃ x, evaluateChecked text = .ok x ∧ x.isFinite = true ∧ IsZeroFree text ∧
      work.Yields text x := by
  unfold Work.ofText at h
  split at h
  · simp at h
  · next hcheck =>
    split at h
    · simp at h
    · next tokens htokens =>
      split at h
      · simp at h
      · next x hvalue =>
        obtain rfl := Except.ok.inj h
        refine ⟨x, ?_, evaluatePostfix_isFinite hvalue, isZeroFree_of_checkCharacters hcheck,
          yields_classify htokens hvalue⟩
        simp only [evaluateChecked, hcheck, evaluate, htokens, hvalue]

end ArithService
