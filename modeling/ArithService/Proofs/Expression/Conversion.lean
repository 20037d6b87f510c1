import Mathlib
import ArithService.Proofs.Expression.Structure

/-!
# What the conversion accepts and keeps

A text is converted to postfix exactly if it consists of symbols and its parentheses match. A
text that is not is refused at its first flaw from the left. The conversion reorders operators
and drops parentheses, and loses and invents nothing else.

## Main Definitions

* `IsSymbol` — the characters of the language, white space apart
* `StopsAt` — the first character of a text that is not allowed, with what stands before it
* `ClosesOpened`, `IsConvertible` — texts whose parentheses match, so far and as a whole
* `operandRuns` — the longest runs of digits and dots in a text

## Design Notes

Of the two stacks, only the count of open groups decides whether a character is refused
(`Scan.step_eq_error_iff`), and that count is the difference of two character counts
(`Scan.count_group_of_foldlM`). So every error is found by comparing counts in the text that
stands before it. What is kept is followed on lexemes, where one of them is one token.
-/

namespace ArithService

/-! ### Symbols -/

/-- The characters of an infix text without white space. -/
def IsSymbol (c : Char) : Prop :=
  isDigit c = true ∨ c ∈ ['.', '(', ')', '+', '-', '*', '/']

instance : DecidablePred IsSymbol := fun _ => inferInstanceAs (Decidable (_ ∨ _))

/-- The first character of a text that is not allowed, with the text before it. -/
def StopsAt (Allowed : Char → Prop) (before : List Char) (c : Char) (cs : List Char) : Prop :=
  ∃ after, cs = before ++ c :: after ∧ (∀ d ∈ before, Allowed d) ∧ ¬ Allowed c

/-- No beginning of a text closes more groups than it opens. -/
def ClosesOpened (cs : List Char) : Prop :=
  ∀ before, before <+: cs → before.count ')' ≤ before.count '('

/-- A text of symbols whose parentheses match. -/
structure IsConvertible (cs : List Char) : Prop where
  isSymbol : ∀ c ∈ cs, IsSymbol c
  closesOpened : ClosesOpened cs
  count_eq : cs.count ')' = cs.count '('

/-- The longest runs of digits and dots in a text: the parts between all other characters, as
far as there is something between them. -/
def operandRuns (cs : List Char) : List String :=
  ((cs.splitOnP fun c => !isOperandChar c).filter (· ≠ [])).map String.ofList

theorem Operator.ofChar?_eq_none_iff {c : Char} :
    ofChar? c = none ↔ c ∉ ['+', '-', '*', '/'] := by
  unfold ofChar?
  split_ifs <;> simp_all

/-- Symbols are what the scan has a case for. -/
theorem isSymbol_iff {c : Char} : IsSymbol c ↔
    isOperandChar c = true ∨ c = '(' ∨ c = ')' ∨ Operator.ofChar? c ≠ none := by
  simp only [ne_eq, Operator.ofChar?_eq_none_iff, IsSymbol, isOperandChar, Bool.or_eq_true,
    decide_eq_true_eq, List.mem_cons, List.not_mem_nil, or_false]
  tauto

/-- What lexemes are written with are symbols, so a text that is converted has no others. -/
theorem isSymbol_of_isLexical {c : Char} (h : IsLexical c) : IsSymbol c := by
  rcases h with hoperand | ⟨l, hother, hchars⟩
  · exact isSymbol_iff.2 (.inl hoperand)
  · cases l with
    | operand text => simp [Lexeme.operand?] at hother
    | operator o =>
      obtain rfl := List.singleton_inj.1 hchars
      cases o <;> decide
    | opening =>
      obtain rfl := List.singleton_inj.1 hchars
      decide
    | closing =>
      obtain rfl := List.singleton_inj.1 hchars
      decide

/-! ### Steps of the scan -/

namespace Scan

variable {s t : Scan} {c : Char} {cs : List Char} {e : ExpressionError}

/-- A character that is read becomes part of a number, or is a lexeme of its own. -/
theorem step_cases (h : s.step c = .ok t) :
    (isOperandChar c = true ∧ t = { s with run := c :: s.run }) ∨
      ∃ l : Lexeme, l.operand? = none ∧ l.chars = [c] ∧ Reads s.flush l t := by
  rcases isLexical_of_step h with hoperand | ⟨l, hother, hchars⟩
  · rw [step, if_pos hoperand] at h
    exact .inl ⟨hoperand, (Except.ok.inj h).symm⟩
  · have hread := step_chars (s := s) hother
    rw [hchars, List.foldlM_cons, h] at hread
    exact .inr ⟨l, hother, hchars, reads_of_read hread.symm⟩

theorem count_eq_zero_of_isOperandChar (h : isOperandChar c = true) :
    [c].count '(' = 0 ∧ [c].count ')' = 0 := by
  constructor <;>
  · rw [List.count_eq_zero, List.mem_singleton]
    rintro rfl
    exact absurd h (by decide)

/-- A character opens or closes the group that it is a parenthesis of. Written as a sum, as what is
closed cannot be taken away from zero. -/
theorem count_group_of_step (h : s.step c = .ok t) :
    t.stack.count .group + [c].count ')' = s.stack.count .group + [c].count '(' := by
  rcases step_cases h with ⟨hoperand, rfl⟩ | ⟨l, hother, hchars, hreads⟩
  · obtain ⟨hopening, hclosing⟩ := count_eq_zero_of_isOperandChar hoperand
    simp only [hopening, hclosing]
  · have hdepth := hreads.surplus_depth.2
    rw [stack_flush] at hdepth
    cases l with
    | operand text => simp [Lexeme.operand?] at hother
    | operator o =>
      obtain rfl := List.singleton_inj.1 hchars
      cases o <;> simp_all [Operator.symbol, Lexeme.depth]
    | opening =>
      obtain rfl := List.singleton_inj.1 hchars
      simp only [Lexeme.depth, List.count_singleton] at hdepth ⊢
      simp
      omega
    | closing =>
      obtain rfl := List.singleton_inj.1 hchars
      simp only [Lexeme.depth, List.count_singleton] at hdepth ⊢
      simp
      omega

/-- The groups that are open after a text are those that it opens and does not close. -/
theorem count_group_of_steps (h : Steps step cs s t) :
    t.stack.count .group + cs.count ')' = s.stack.count .group + cs.count '(' := by
  induction h with
  | nil => rfl
  | @cons c cs s r t hstep _ ih =>
    have hfirst := count_group_of_step hstep
    rw [← List.singleton_append, List.count_append, List.count_append]
    omega

/-- From the start, the open groups are the difference of two counts in the text. With this the
stack can be left out of what is said about errors. -/
theorem count_group_of_foldlM (h : cs.foldlM step {} = .ok t) :
    t.stack.count .group + cs.count ')' = cs.count '(' := by
  simpa using count_group_of_steps (steps_of_foldlM h)

/-- A closing parenthesis is refused where no group is open, and only there. -/
theorem closeGroup_eq_none_iff (stack : List Pending) (output : List Token) :
    closeGroup stack output = none ↔ stack.count .group = 0 := by
  obtain ⟨ops, rfl | ⟨rest, rfl⟩⟩ := exists_segment stack
  · simp only [closeGroup_operators, count_group_operators]
  · simp [closeGroup_append]

/-- **A character is refused** if it is no symbol, or closes a group that is not open. -/
theorem step_eq_error_iff : s.step c = .error e ↔
    (¬ IsSymbol c ∧ e = .invalidCharacter c) ∨
      (c = ')' ∧ s.stack.count .group = 0 ∧ e = .mismatchedParentheses) := by
  rw [isSymbol_iff, ← stack_flush, ← closeGroup_eq_none_iff _ s.flush.output]
  unfold step punctuation
  split_ifs with hoperand hopening hclosing
  · have hparenthesis : c ≠ ')' := by
      rintro rfl
      exact absurd hoperand (by decide)
    simp [hoperand, hparenthesis]
  · simp [hopening]
  · cases hgroup : closeGroup s.flush.stack s.flush.output <;>
      simp [hclosing, @eq_comm _ e]
  · cases hoperator : Operator.ofChar? c <;>
      simp [hoperand, hopening, hclosing, @eq_comm _ e]

/-- A text is read to its end if it consists of symbols and closes no group that is not open. -/
theorem exists_foldlM_iff : (∃ t, cs.foldlM step {} = .ok t) ↔
    (∀ c ∈ cs, IsSymbol c) ∧ ClosesOpened cs := by
  constructor
  · rintro ⟨t, hrun⟩
    refine ⟨fun c hc => isSymbol_of_isLexical (isLexical_of_steps (steps_of_foldlM hrun) c hc), ?_⟩
    rintro before ⟨after, rfl⟩
    rw [List.foldlM_append] at hrun
    obtain ⟨r, hbefore, -⟩ := exists_of_bind_eq_ok hrun
    have hcount := count_group_of_foldlM hbefore
    omega
  · rintro ⟨hsymbols, hcloses⟩
    cases hrun : cs.foldlM step {} with
    | ok t => exact ⟨t, rfl⟩
    | error e =>
      exfalso
      obtain ⟨before, c, after, t, rfl, hbefore, hfails⟩ := foldlM_eq_error_iff.1 hrun
      rcases step_eq_error_iff.1 hfails with ⟨hforeign, -⟩ | ⟨rfl, hnone, -⟩
      · exact hforeign (hsymbols c (by simp))
      · -- All groups before the parenthesis are closed, so it is one too many.
        have hcount := count_group_of_foldlM hbefore
        have hless := hcloses (before ++ [')']) ⟨after, by simp⟩
        rw [List.count_append, List.count_append] at hless
        simp at hless
        omega

/-- The end of a text is refused where a group is still open, and only there. -/
theorem finish_cases (s : Scan) :
    (s.stack.count .group = 0 ∧ ∃ tokens, s.finish = .ok tokens) ∨
      (s.stack.count .group ≠ 0 ∧ s.finish = .error .mismatchedParentheses) := by
  rw [finish, stack_flush]
  obtain ⟨ops, hstack | ⟨rest, hstack⟩⟩ := exists_segment s.stack
  · refine .inl ⟨?_, (emit ops s.flush.output).reverse, ?_⟩
    · rw [hstack, count_group_operators]
    · rw [hstack, drain_operators]
  · refine .inr ⟨?_, ?_⟩
    · simp [hstack]
    · rw [hstack, drain_append]

end Scan

/-! ### Texts -/

section Texts

variable {text : String} {tokens : Postfix} {c : Char} {e : ExpressionError}

/-- A text is converted if all of it is symbols and its parentheses match. -/
theorem exists_toPostfix_iff :
    (∃ tokens, toPostfix text = .ok tokens) ↔ IsConvertible text.toList := by
  unfold toPostfix
  constructor
  · rintro ⟨tokens, htokens⟩
    cases hrun : text.toList.foldlM Scan.step {} with
    | error e => simp [hrun] at htokens
    | ok t =>
      obtain ⟨hsymbols, hcloses⟩ := Scan.exists_foldlM_iff.1 ⟨t, hrun⟩
      have hcount := Scan.count_group_of_foldlM hrun
      rcases t.finish_cases with ⟨hnone, -⟩ | ⟨-, hrefused⟩
      · rw [hnone] at hcount
        exact ⟨hsymbols, hcloses, by omega⟩
      · simp [hrun, hrefused] at htokens
  · rintro ⟨hsymbols, hcloses, hequal⟩
    obtain ⟨t, hrun⟩ := Scan.exists_foldlM_iff.2 ⟨hsymbols, hcloses⟩
    have hcount := Scan.count_group_of_foldlM hrun
    rcases t.finish_cases with ⟨-, hconverted⟩ | ⟨hopen, -⟩
    · simpa [hrun] using hconverted
    · omega

/-- A text is refused by one of its characters, or at its end. At the end only parentheses are left
to be blamed. -/
theorem toPostfix_eq_error (h : toPostfix text = .error e) :
    text.toList.foldlM Scan.step {} = .error e ∨ e = .mismatchedParentheses := by
  unfold toPostfix at h
  cases hrun : text.toList.foldlM Scan.step {} with
  | error e' =>
    simp only [hrun] at h
    exact .inl (congrArg _ (Except.error.inj h))
  | ok t =>
    simp only [hrun] at h
    rcases t.finish_cases with ⟨-, tokens, hconverted⟩ | ⟨-, hrefused⟩
    · simp [hconverted] at h
    · rw [hrefused] at h
      exact .inr (Except.error.inj h).symm

/-- A refusal blames a character or the parentheses. -/
theorem toPostfix_error_cases (h : toPostfix text = .error e) :
    (∃ c, e = .invalidCharacter c) ∨ e = .mismatchedParentheses := by
  rcases toPostfix_eq_error h with hrun | hend
  · obtain ⟨before, c, after, t, -, -, hfails⟩ := foldlM_eq_error_iff.1 hrun
    rcases Scan.step_eq_error_iff.1 hfails with ⟨-, rfl⟩ | ⟨-, -, rfl⟩
    · exact .inl ⟨c, rfl⟩
    · exact .inr rfl
  · exact .inr hend

/-- A character is blamed if it is the first that is no symbol, and no parenthesis before it is
one too many. -/
theorem toPostfix_eq_invalidCharacter_iff : toPostfix text = .error (.invalidCharacter c) ↔
    ∃ before, StopsAt IsSymbol before c text.toList ∧ ClosesOpened before := by
  constructor
  · intro h
    obtain hrun | hend := toPostfix_eq_error h
    · obtain ⟨before, d, after, t, htext, hbefore, hfails⟩ := foldlM_eq_error_iff.1 hrun
      obtain ⟨hsymbols, hcloses⟩ := Scan.exists_foldlM_iff.1 ⟨t, hbefore⟩
      rcases Scan.step_eq_error_iff.1 hfails with ⟨hforeign, hblamed⟩ | ⟨-, -, hother⟩
      · obtain rfl := ExpressionError.invalidCharacter.inj hblamed
        exact ⟨before, ⟨after, htext, hsymbols, hforeign⟩, hcloses⟩
      · cases hother
    · cases hend
  · rintro ⟨before, ⟨after, htext, hsymbols, hforeign⟩, hcloses⟩
    obtain ⟨t, hbefore⟩ := Scan.exists_foldlM_iff.2 ⟨hsymbols, hcloses⟩
    have hfails : t.step c = .error (.invalidCharacter c) :=
      Scan.step_eq_error_iff.2 (.inl ⟨hforeign, rfl⟩)
    have hrun := foldlM_eq_error_iff.2 ⟨before, c, after, t, htext, hbefore, hfails⟩
    rw [toPostfix, hrun]

/-- Every other text that is not converted is blamed for its parentheses. -/
theorem toPostfix_eq_mismatchedParentheses_iff :
    toPostfix text = .error .mismatchedParentheses ↔ ¬ IsConvertible text.toList ∧
      ¬ ∃ c before, StopsAt IsSymbol before c text.toList ∧ ClosesOpened before := by
  simp only [← toPostfix_eq_invalidCharacter_iff, ← exists_toPostfix_iff]
  cases htokens : toPostfix text with
  | ok tokens => simp
  | error e =>
    rcases toPostfix_error_cases htokens with ⟨c, rfl⟩ | rfl <;> simp

end Texts

/-! ### What is kept -/

/-- The operator that a token is. -/
def Token.operator? : Token → Option Operator
  | .number _ => none
  | .operator o => some o

/-- The operator that waits on the stack. -/
def Pending.operator? : Pending → Option Operator
  | .group => none
  | .operator o => some o

/-- The operator that a lexeme is. -/
def Lexeme.operator? : Lexeme → Option Operator
  | .operator o => some o
  | _ => none

namespace Scan

variable {s t : Scan} {l : Lexeme} {w : List Lexeme}

/-- The operators of the scan, emitted or waiting. -/
def operators (s : Scan) : List Operator :=
  s.output.filterMap Token.operator? ++ s.stack.filterMap Pending.operator?

theorem filterMap_operator_emit (ops : List Operator) (output : List Token) :
    (emit ops output).filterMap Token.operator? =
      ops.reverse ++ output.filterMap Token.operator? := by
  induction ops generalizing output with
  | nil => rfl
  | cons o ops ih =>
    rw [emit_cons, ih]
    simp [Token.operator?]

theorem filterMap_operator_map (ops : List Operator) :
    (ops.map Pending.operator).filterMap Pending.operator? = ops := by
  rw [List.filterMap_map]
  exact List.filterMap_some

/-- A lexeme adds the operator that it is; operators only move. -/
theorem Reads.operators_perm (h : Reads s l t) :
    t.operators.Perm (l.operator?.toList ++ s.operators) := by
  rw [List.perm_iff_count]
  intro o
  cases h with
  | operand text => rfl
  | @operator p ops rest hstack _ _ =>
    simp only [operators, hstack, filterMap_operator_emit, List.filterMap_append,
      filterMap_operator_map, List.filterMap_cons, Pending.operator?, Lexeme.operator?,
      Option.toList_some, List.count_append, List.count_reverse, List.count_cons, List.count_nil]
    omega
  | opening => rfl
  | closing hstack =>
    simp only [operators, hstack, filterMap_operator_emit, List.filterMap_append,
      filterMap_operator_map, List.filterMap_cons, Pending.operator?, Lexeme.operator?,
      Option.toList_none, List.count_append, List.count_reverse, List.count_nil]
    omega

theorem operators_perm_of_steps (h : Steps read w s t) :
    t.operators.Perm (w.filterMap Lexeme.operator? ++ s.operators) := by
  induction h with
  | nil => exact .refl _
  | @cons l w s r t hread _ ih =>
    have hfirst := (reads_of_read hread).operators_perm
    refine ih.trans ((hfirst.append_left _).trans ?_)
    rw [List.perm_iff_count]
    intro o
    cases hoperator : l.operator? <;>
      simp [hoperator, List.count_cons]
    omega

end Scan

/-- The operators of the postfix are those of the text, in some order: none waits any more at the
end. -/
theorem filterMap_operator_of_toPostfix {w : List Lexeme} (hwritten : ∀ l ∈ w, l.IsWritten)
    (hseparate : SeparateNumbers w) {text : String} (htext : text.toList = spell w)
    {tokens : Postfix} (h : toPostfix text = .ok tokens) :
    (tokens.filterMap Token.operator?).Perm (w.filterMap Lexeme.operator?) := by
  rw [toPostfix_spell hwritten hseparate htext] at h
  obtain ⟨t, hread, hfinish⟩ := exists_of_bind_eq_ok h
  have hsteps := steps_of_foldlM hread
  obtain ⟨ops, hstack, rfl⟩ := Scan.finish_eq_ok (Scan.run_of_steps hsteps) hfinish
  have hkept := Scan.operators_perm_of_steps hsteps
  rw [Scan.operators, hstack, Scan.filterMap_operator_map] at hkept
  rw [List.filterMap_reverse, Scan.filterMap_operator_emit]
  refine (List.reverse_perm _).trans (.trans ?_ (hkept.trans ?_))
  · exact ((List.reverse_perm ops).append_right _).trans List.perm_append_comm
  · simp [Scan.operators]

section Lexemes

variable {l : Lexeme} {w : List Lexeme}

theorem ofChar?_of_isOperandChar {c : Char} (h : isOperandChar c = true) :
    Operator.ofChar? c = none := by
  rw [Operator.ofChar?_eq_none_iff]
  intro hmem
  fin_cases hmem <;> exact absurd h (by decide)

/-- The operators of a lexeme are found among its characters. -/
theorem Lexeme.IsWritten.filterMap_ofChar? (h : l.IsWritten) :
    l.chars.filterMap Operator.ofChar? = l.operator?.toList := by
  cases l with
  | operand text =>
    show text.toList.filterMap Operator.ofChar? = []
    rw [List.filterMap_eq_nil_iff]
    exact fun c hc => ofChar?_of_isOperandChar ((h text rfl).2 c hc)
  | operator o => cases o <;> decide
  | opening => decide
  | closing => decide

theorem filterMap_ofChar?_spell (hwritten : ∀ l ∈ w, l.IsWritten) :
    (spell w).filterMap Operator.ofChar? = w.filterMap Lexeme.operator? := by
  induction w with
  | nil => rfl
  | cons l w ih =>
    rw [List.forall_mem_cons] at hwritten
    rw [spell_cons, List.filterMap_append, hwritten.1.filterMap_ofChar?, ih hwritten.2]
    cases hoperator : l.operator? <;> simp [hoperator]

theorem Lexeme.exists_chars_eq (h : l.operand? = none) :
    ∃ c, l.chars = [c] ∧ isOperandChar c = false := by
  cases l with
  | operand text => simp [operand?] at h
  | operator o => exact ⟨o.symbol, rfl, by cases o <;> decide⟩
  | opening => exact ⟨'(', rfl, by decide⟩
  | closing => exact ⟨')', rfl, by decide⟩

/-- A run ends before the first character that is not part of a number. -/
theorem operandRuns_append {run cs : List Char} {c : Char}
    (hrun : ∀ d ∈ run, isOperandChar d = true) (hc : isOperandChar c = false) :
    operandRuns (run ++ c :: cs) =
      if run = [] then operandRuns cs else String.ofList run :: operandRuns cs := by
  rw [operandRuns, List.splitOnP_append_cons_of_forall_mem (by simpa using hrun) _ (by simp [hc])]
  split_ifs with hempty <;> simp [hempty, operandRuns]

theorem operandRuns_cons {c : Char} (hc : isOperandChar c = false) (cs : List Char) :
    operandRuns (c :: cs) = operandRuns cs := by
  have hnone : ∀ d ∈ ([] : List Char), isOperandChar d = true := by simp
  exact operandRuns_append hnone hc

theorem operandRuns_toList {text : String} (h : IsOperandText text) :
    operandRuns text.toList = [text] := by
  obtain ⟨hsome, hchars⟩ := h
  rw [operandRuns, List.splitOnP_eq_singleton (by simpa using hchars)]
  simp [hsome]

/-- The runs of a spelled text are its operands. Two operands in a row would be one run, which is
why numbers have to be separate. -/
theorem operandRuns_spell (hwritten : ∀ l ∈ w, l.IsWritten) (hseparate : SeparateNumbers w) :
    operandRuns (spell w) = w.filterMap Lexeme.operand? := by
  induction w with
  | nil => simp [operandRuns]
  | cons l w ih =>
    rw [List.forall_mem_cons] at hwritten
    obtain ⟨hnext, hlater⟩ := List.isChain_cons.1 hseparate
    have hrest := ih hwritten.2 hlater
    cases hoperand : l.operand? with
    | none =>
      obtain ⟨c, hchars, hc⟩ := Lexeme.exists_chars_eq hoperand
      rw [spell_cons, hchars, List.singleton_append, operandRuns_cons hc, hrest,
        List.filterMap_cons_none hoperand]
    | some text =>
      obtain rfl : l = .operand text := by
        cases l <;> simp_all [Lexeme.operand?]
      obtain ⟨htext, hchars⟩ := hwritten.1 text rfl
      cases w with
      | nil => simpa [Lexeme.chars, Lexeme.operand?] using operandRuns_toList ⟨htext, hchars⟩
      | cons m w =>
        -- The lexeme behind an operand is none, so its character ends the run.
        have hother : m.operand? = none :=
          (hnext m rfl).resolve_left (by simp [Lexeme.operand?])
        obtain ⟨d, hsingle, hd⟩ := Lexeme.exists_chars_eq hother
        rw [spell_cons, hsingle, List.singleton_append, operandRuns_cons hd] at hrest
        rw [spell_cons, spell_cons, hsingle, List.singleton_append, Lexeme.chars,
          operandRuns_append hchars hd, if_neg htext, hrest, String.ofList_toList]
        rfl

end Lexemes

/-- **The conversion refuses exactly what does not match, and keeps the rest.** A text is
converted if all of it is symbols and its parentheses match. Otherwise the first foreign
character is blamed if no parenthesis before it is one too many, and the parentheses are blamed
in all other cases. The numbers of the postfix are the runs of digits and dots in order, and its
operators are those of the text, each as often. -/
theorem toPostfix_exact (text : String) :
    ((∃ tokens, toPostfix text = .ok tokens) ↔ IsConvertible text.toList) ∧
    (∀ c, toPostfix text = .error (.invalidCharacter c) ↔
      ∃ before, StopsAt IsSymbol before c text.toList ∧ ClosesOpened before) ∧
    (toPostfix text = .error .mismatchedParentheses ↔ ¬ IsConvertible text.toList ∧
      ¬ ∃ c before, StopsAt IsSymbol before c text.toList ∧ ClosesOpened before) ∧
    (∀ tokens, toPostfix text = .ok tokens →
      tokens.filterMap Token.number? = operandRuns text.toList ∧
      (tokens.filterMap Token.operator?).Perm (text.toList.filterMap Operator.ofChar?)) := by
  refine ⟨exists_toPostfix_iff, fun c => toPostfix_eq_invalidCharacter_iff,
    toPostfix_eq_mismatchedParentheses_iff, ?_⟩
  intro tokens htokens
  obtain ⟨w, htext, hwritten, hseparate⟩ := exists_spell (isLexical_of_toPostfix htokens)
  constructor
  · rw [filterMap_number_of_toPostfix hwritten hseparate htext.symm htokens, ← htext,
      operandRuns_spell hwritten hseparate]
  · rw [← htext, filterMap_ofChar?_spell hwritten]
    exact filterMap_operator_of_toPostfix hwritten hseparate htext.symm htokens

end ArithService
