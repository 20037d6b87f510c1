import Mathlib
import ArithService.Proofs.Expression.Scan
import ArithService.Proofs.Expression.Work
import ArithService.Proofs.Text.Whitespace

/-!
# What is accepted

A text is accepted by the check of characters, and as work, exactly if it has a value. The
check refuses nothing that could have been evaluated; it only gives other errors.

## Design Notes

White space is removed in three places: before the evaluation, before the conversion to work,
and once more when work on the whole text is done. The last time there is none left.
-/

namespace ArithService

variable {text : String} {x : Binary64}

/-- What a lexeme is made of passes the check of characters. -/
theorem isExpressionChar_of_isLexical {c : Char} (h : IsLexical c) :
    isExpressionChar c = true := by
  rcases h with hoperand | ⟨l, hother, hchars⟩
  · rw [isOperandChar, Bool.or_eq_true] at hoperand
    rcases hoperand with hdigit | hdot
    · simp [isExpressionChar, hdigit]
    · simp [isExpressionChar, hdot]
  · cases l with
    | operand text => simp [Lexeme.operand?] at hother
    | operator o =>
      obtain rfl := List.singleton_inj.1 hchars
      cases o <;> decide
    | opening =>
      obtain rfl := List.singleton_inj.1 hchars
      decide
    | closing =>
      obtain rfl := List.singleton_inj.1 hchars
      decide

/-- A text has a value if its postfix has. -/
theorem evaluate_eq_ok_iff : evaluate text = .ok x ↔
    ∃ tokens, toPostfix (removeWhiteSpace text) = .ok tokens ∧ evaluatePostfix tokens = .ok x := by
  rw [evaluate]
  cases toPostfix (removeWhiteSpace text) <;> simp

/-- A text with a value has nothing that the check of characters refuses. The check runs on the text
with its white space and the evaluation on the text without it, so the characters are followed back
to the lexemes that they belong to. -/
theorem checkCharacters_of_evaluate (h : evaluate text = .ok x) :
    checkCharacters text = .ok () := by
  obtain ⟨tokens, htokens, hvalue⟩ := evaluate_eq_ok_iff.1 h
  have hblank : isBlank text ≠ true := by
    intro hblank
    rw [isBlank_iff.1 hblank] at htokens
    obtain rfl := Except.ok.inj htokens
    cases hvalue
  have hchars : text.toList.find? (fun c => !isExpressionChar c) = none := by
    refine List.find?_eq_none.2 fun c hc => ?_
    cases hspace : isWhiteSpace c with
    | true => simp [isExpressionChar, hspace]
    | false =>
      have hlexical := isLexical_of_toPostfix htokens c (by simp [hc, hspace])
      simp [isExpressionChar_of_isLexical hlexical]
  rw [checkCharacters, if_neg hblank, hchars]

/-- **The check of characters loses no value.** -/
theorem evaluateChecked_eq_ok_iff : evaluateChecked text = .ok x ↔ evaluate text = .ok x := by
  constructor
  · intro h
    unfold evaluateChecked at h
    split at h
    · exact h
    · simp at h
  · intro h
    rw [evaluateChecked, checkCharacters_of_evaluate h, h]

theorem evaluate_isFinite (h : evaluate text = .ok x) : x.isFinite = true := by
  obtain ⟨tokens, -, hvalue⟩ := evaluate_eq_ok_iff.1 h
  exact evaluatePostfix_isFinite hvalue

namespace Work

/-- Work is made of every text whose postfix has a value, and of no other. -/
theorem ofText_eq_ok_iff {work : Work} : ofText text = .ok work ↔
    ∃ tokens x, toPostfix (removeWhiteSpace text) = .ok tokens ∧
      evaluatePostfix tokens = .ok x ∧ work = classify (removeWhiteSpace text) tokens := by
  constructor
  · intro h
    unfold ofText at h
    split at h
    · simp at h
    · split at h
      · simp at h
      · next tokens htokens =>
        split at h
        · simp at h
        · next x hvalue => exact ⟨tokens, x, htokens, hvalue, (Except.ok.inj h).symm⟩
  · rintro ⟨tokens, x, htokens, hvalue, rfl⟩
    have hevaluate := evaluate_eq_ok_iff.2 ⟨tokens, htokens, hvalue⟩
    rw [ofText, checkCharacters_of_evaluate hevaluate, htokens]
    simp only [hvalue]

/-- A text is refused as work for the same reason as it is refused a value. -/
theorem ofText_eq_error_iff {e : ExpressionError} :
    ofText text = .error e ↔ evaluateChecked text = .error e := by
  rw [ofText, evaluateChecked, evaluate]
  cases checkCharacters text with
  | error e => simp
  | ok _ =>
    cases toPostfix (removeWhiteSpace text) with
    | error e => simp
    | ok tokens =>
      dsimp only
      cases evaluatePostfix tokens <;> simp

/-- Work on a text computes the value of its postfix. Work on a single operation does so because the
postfix then is two operands and an operator; other work evaluates the text once more. -/
theorem compute_classify {tokens : Postfix}
    (h : toPostfix (removeWhiteSpace text) = .ok tokens) :
    (classify (removeWhiteSpace text) tokens).compute = evaluatePostfix tokens := by
  unfold classify
  split
  · exact (evaluatePostfix_binary _ _ _).symm
  · rw [compute, evaluate, removeWhiteSpace_removeWhiteSpace, h]

end Work

end ArithService
