import Mathlib
import ArithService.Proofs.Expression.Conversion

/-!
# The check of characters

A submitted text is checked before anything else is done with it. The check refuses blank texts
and the first character outside the language, and it is the only place where such an error comes
from: what passes it fails later for other reasons only, and what it refuses has no value.

## Main Definitions

* `IsAllowed` — the characters of the language, white space included
* `matchesPattern`, `checkByPattern` — the check written with a regular expression
* `ExpressionError.isEvaluation` — the errors of the conversion and the evaluation

## Design Notes

The language is spelled out three times: in the class of the regular expression, in the search
for the character to blame, and in the cases of the scan. `isPatternChar_iff`,
`isExpressionChar_iff` and `isSymbol_iff` say that these are one class, up to white space, which
the scan does not know because it is removed before.
-/

namespace ArithService

/-! ### The language, spelled out -/

/-- The characters that may stand in a submitted text. -/
def IsAllowed (c : Char) : Prop := IsSymbol c ∨ isWhiteSpace c = true

instance : DecidablePred IsAllowed := fun _ => inferInstanceAs (Decidable (_ ∨ _))

/-- The class `[0-9\s()+\-*/.]` of a regular expression. -/
def isPatternChar (c : Char) : Bool :=
  ('0' ≤ c && c ≤ '9') || isWhiteSpace c || ['(', ')', '+', '-', '*', '/', '.'].contains c

/-- Whether a text matches the regular expression `^[0-9\s()+\-*/.]+$`, from its first character
to its last. -/
def matchesPattern (text : String) : Bool :=
  text.toList ≠ [] && text.toList.all isPatternChar

/-- The check with the regular expression: what does not match it is searched for the character
to blame, and taken for blank if there is none. -/
def checkByPattern (text : String) : Except ExpressionError Unit :=
  if trim text = "" then .error .empty
  else if matchesPattern text then .ok ()
  else
    match text.toList.find? (fun c => !isExpressionChar c) with
    | some c => .error (.invalidCharacter c)
    | none => .error .empty

/-- Whether an error comes from the conversion or the evaluation of a text. -/
def ExpressionError.isEvaluation : ExpressionError → Bool
  | .mismatchedParentheses => true
  | .invalidNumber _ => true
  | .invalidExpression => true
  | .divisionByZero => true
  | .overflow => true
  | .empty => false
  | .invalidCharacter _ => false
  | .unknownOperator _ => false

theorem ExpressionError.isValidation_of_isEvaluation {e : ExpressionError}
    (h : e.isEvaluation = true) : e.isValidation = false := by
  cases e <;> simp_all [isEvaluation, isValidation]

/-- The characters that are searched for are those that are not allowed. -/
theorem isExpressionChar_iff {c : Char} : isExpressionChar c = true ↔ IsAllowed c := by
  simp only [isExpressionChar, IsAllowed, IsSymbol, Bool.or_eq_true, decide_eq_true_eq,
    List.mem_cons, List.not_mem_nil, or_false]
  tauto

/-- The class of the regular expression has the same characters. -/
theorem isPatternChar_iff {c : Char} : isPatternChar c = true ↔ IsAllowed c := by
  simp only [isPatternChar, IsAllowed, IsSymbol, isDigit, Bool.or_eq_true, List.contains_iff_mem,
    List.mem_cons, List.not_mem_nil, or_false]
  tauto

variable {text : String} {c : Char} {e : ExpressionError}

/-! ### The check -/

theorem isBlank_eq_true_iff : isBlank text = true ↔ IsWhite text.toList := by
  simp [isBlank, IsWhite]

/-- Nothing is left of a text of white space when it is trimmed. -/
theorem trim_eq_empty_iff : trim text = "" ↔ IsWhite text.toList := by
  rw [← String.toList_inj, trim, String.toList_ofList]
  constructor
  · intro hnone
    obtain ⟨before, after, hbefore, hafter, htext⟩ := exists_trimChars_eq text.toList
    rw [htext, hnone]
    exact (hbefore.append isWhite_nil).append hafter
  · intro hwhite
    have htrim : trimChars (text.toList ++ [] ++ []) = [] :=
      trimChars_append hwhite isWhite_nil (by simp) (by simp)
    simpa using htrim

/-- The check gives errors of validation only, and these it shares with no later stage. -/
theorem isValidation_of_checkCharacters (h : checkCharacters text = .error e) :
    e.isValidation = true := by
  unfold checkCharacters at h
  split_ifs at h
  · obtain rfl := Except.error.inj h
    rfl
  · split at h
    · obtain rfl := Except.error.inj h
      rfl
    · cases h

/-- A text is refused as empty if it is blank. That is asked first, so white space is never blamed
as a character. -/
theorem checkCharacters_eq_empty_iff :
    checkCharacters text = .error .empty ↔ IsWhite text.toList := by
  rw [← isBlank_eq_true_iff, checkCharacters]
  split_ifs with hblank
  · simp [hblank]
  · cases text.toList.find? (fun c => !isExpressionChar c) <;> simp [hblank]

/-- A character is blamed if it is the first one in the text that is not allowed. -/
theorem checkCharacters_eq_invalidCharacter_iff :
    checkCharacters text = .error (.invalidCharacter c) ↔
      ¬ IsWhite text.toList ∧ ∃ before, StopsAt IsAllowed before c text.toList := by
  rw [← isBlank_eq_true_iff, checkCharacters]
  split_ifs with hblank
  · simp [hblank]
  · have hsearch : text.toList.find? (fun c => !isExpressionChar c) = some c ↔
        ∃ before, StopsAt IsAllowed before c text.toList := by
      rw [List.find?_eq_some_iff_append]
      simp [StopsAt, ← isExpressionChar_iff]
      tauto
    rw [and_iff_right hblank, ← hsearch]
    cases text.toList.find? (fun c => !isExpressionChar c) <;> simp

theorem checkCharacters_eq_ok_iff : checkCharacters text = .ok () ↔
    ¬ IsWhite text.toList ∧ ∀ c ∈ text.toList, IsAllowed c := by
  rw [← isBlank_eq_true_iff, checkCharacters]
  split_ifs with hblank
  · simp [hblank]
  · have hsearch : text.toList.find? (fun c => !isExpressionChar c) = none ↔
        ∀ c ∈ text.toList, IsAllowed c := by
      simp [← isExpressionChar_iff]
    rw [and_iff_right hblank, ← hsearch]
    cases text.toList.find? (fun c => !isExpressionChar c) <;> simp

/-- A text with another character than white space matches unless there is a character to blame. So
the search behind a text that does not match always finds one. -/
theorem matchesPattern_iff (hsome : ¬ IsWhite text.toList) :
    matchesPattern text = true ↔ text.toList.find? (fun c => !isExpressionChar c) = none := by
  have htext : text.toList ≠ [] := by
    intro hnil
    rw [hnil] at hsome
    exact hsome isWhite_nil
  simp [matchesPattern, htext, isPatternChar_iff, isExpressionChar_iff]

/-- **The three spellings agree.** The check with the regular expression gives the same answers,
and never gets to its last case. -/
theorem checkByPattern_eq (text : String) : checkByPattern text = checkCharacters text := by
  unfold checkByPattern checkCharacters
  by_cases hwhite : IsWhite text.toList
  · rw [if_pos (trim_eq_empty_iff.2 hwhite), if_pos (isBlank_eq_true_iff.2 hwhite)]
  · rw [if_neg (trim_eq_empty_iff.not.2 hwhite), if_neg (isBlank_eq_true_iff.not.2 hwhite)]
    cases hsearch : text.toList.find? (fun c => !isExpressionChar c) with
    | none => rw [if_pos ((matchesPattern_iff hwhite).2 hsearch)]
    | some c => rw [if_neg (by simp [matchesPattern_iff hwhite, hsearch])]

/-! ### After the check -/

/-- A text that passes the check is refused by the conversion for its parentheses only, as no
foreign character is left. -/
theorem toPostfix_error_of_checkCharacters (hcheck : checkCharacters text = .ok ())
    (h : toPostfix (removeWhiteSpace text) = .error e) : e = .mismatchedParentheses := by
  rcases toPostfix_error_cases h with ⟨c, rfl⟩ | rfl
  · exfalso
    obtain ⟨before, ⟨after, htext, -, hforeign⟩, -⟩ := toPostfix_eq_invalidCharacter_iff.1 h
    have hmem : c ∈ (removeWhiteSpace text).toList := by simp [htext]
    rw [toList_removeWhiteSpace, List.mem_filter] at hmem
    have hallowed := (checkCharacters_eq_ok_iff.1 hcheck).2 c hmem.1
    simp [IsAllowed, hforeign] at hallowed
    simp [hallowed] at hmem
  · rfl

theorem isEvaluation_of_evaluateToken {stack : List Binary64} {t : Token}
    (h : evaluateToken stack t = .error e) : e.isEvaluation = true := by
  cases t with
  | number text =>
    simp only [evaluateToken] at h
    split at h
    · cases h
    · next e' hoperand =>
      obtain rfl := Except.error.inj h
      rw [readOperand_eq_error hoperand]
      rfl
  | operator o =>
    simp only [evaluateToken] at h
    split at h
    · split at h
      · cases h
      · next e' happly =>
        obtain rfl := Except.error.inj h
        rcases apply_error_cases happly with rfl | rfl <;> rfl
    · obtain rfl := Except.error.inj h
      rfl

/-- The evaluation of a postfix sequence, whatever its tokens, gives no error of the check.
Operators are tokens by then, so none of them is unknown either. -/
theorem isEvaluation_of_evaluatePostfix {tokens : Postfix}
    (h : evaluatePostfix tokens = .error e) : e.isEvaluation = true := by
  unfold evaluatePostfix at h
  split at h
  · cases h
  · obtain rfl := Except.error.inj h
    rfl
  · next e' hrun =>
    obtain rfl := Except.error.inj h
    obtain ⟨before, t, after, stack, -, -, hfails⟩ := foldlM_eq_error_iff.1 hrun
    exact isEvaluation_of_evaluateToken hfails

/-- What passes the check fails later for other reasons. -/
theorem isEvaluation_of_evaluateChecked (hcheck : checkCharacters text = .ok ())
    (h : evaluateChecked text = .error e) : e.isEvaluation = true := by
  rw [evaluateChecked, hcheck] at h
  cases htokens : toPostfix (removeWhiteSpace text) with
  | error e' =>
    simp only [evaluate, htokens] at h
    obtain rfl := Except.error.inj h
    rw [toPostfix_error_of_checkCharacters hcheck htokens]
    rfl
  | ok tokens =>
    simp only [evaluate, htokens] at h
    exact isEvaluation_of_evaluatePostfix h

/-- What the check refuses has no value without the check either: a foreign character stops the
conversion, and a blank text leaves nothing to evaluate. -/
theorem exists_evaluate_eq_error (h : checkCharacters text = .error e) :
    ∃ e', evaluate text = .error e' := by
  cases hvalue : evaluate text with
  | error e' => exact ⟨e', rfl⟩
  | ok x =>
    rw [checkCharacters_of_evaluate hvalue] at h
    cases h

/-- **The check is exact.** It refuses blank texts, and otherwise the first character that is not
allowed, as the check with the regular expression does. A text that passes it gets no error of
the check and no error about an operator from any later stage, so the error of an evaluation
says whether the check refused the text; and what the check refuses has no value without it
either. -/
theorem checkCharacters_exact (text : String) :
    (checkCharacters text = .error .empty ↔ IsWhite text.toList) ∧
    (∀ c, checkCharacters text = .error (.invalidCharacter c) ↔
      ¬ IsWhite text.toList ∧ ∃ before, StopsAt IsAllowed before c text.toList) ∧
    (checkCharacters text = .ok () ↔ ¬ IsWhite text.toList ∧ ∀ c ∈ text.toList, IsAllowed c) ∧
    checkByPattern text = checkCharacters text ∧
    (checkCharacters text = .ok () → ∀ e,
      (evaluateChecked text = .error e ∨ Work.ofText text = .error e) → e.isEvaluation = true) ∧
    (∀ e, evaluateChecked text = .error e →
      (e.isValidation = true ↔ ∃ e', checkCharacters text = .error e')) ∧
    (∀ e, checkCharacters text = .error e → ∃ e', evaluate text = .error e') := by
  refine ⟨checkCharacters_eq_empty_iff, fun c => checkCharacters_eq_invalidCharacter_iff,
    checkCharacters_eq_ok_iff, checkByPattern_eq text, ?later, ?kind,
    fun e => exists_evaluate_eq_error⟩
  case later =>
    rintro hcheck e (hchecked | hwork)
    · exact isEvaluation_of_evaluateChecked hcheck hchecked
    · exact isEvaluation_of_evaluateChecked hcheck (Work.ofText_eq_error_iff.1 hwork)
  case kind =>
    intro e herror
    cases hcheck : checkCharacters text with
    | ok _ =>
      have hlate := isEvaluation_of_evaluateChecked hcheck herror
      simp [ExpressionError.isValidation_of_isEvaluation hlate]
    | error e' =>
      rw [evaluateChecked, hcheck] at herror
      obtain rfl := Except.error.inj herror
      simp [isValidation_of_checkCharacters hcheck]

end ArithService
