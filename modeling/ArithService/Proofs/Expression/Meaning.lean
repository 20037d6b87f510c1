import Mathlib
import ArithService.Proofs.Expression.Scan
import ArithService.Proofs.Text.Whitespace

/-!
# What an infix text means

A sentence of the grammar is converted to the postorder of its expression, and evaluated to the
value of its expression, with the error of the part that fails first.

## Main Definitions

* `Phrase.strength` — how tightly the operators that a phrase leaves waiting bind

## Design Notes

After a sentence some of its operators may still wait on the stack, so its postorder is not in
the output yet. The invariant (`Scan.After`) says that it would be, were these operators
emitted, and that they are no weaker than the phrase. The next operator displaces exactly these:
that is precedence and grouping to the left at once.
-/

namespace ArithService

/-! ### Conversion -/

/-- The operators that a sentence leaves waiting bind at least this tightly; a factor leaves
none. -/
def Phrase.strength : Phrase → Nat
  | .expression => 1
  | .term => 2
  | .factor => 3

namespace Scan

/-- The scan after a sentence: were the operators emitted that it leaves waiting, the postorder
of its expression would be in the output. -/
inductive After (strength : Nat) (e : Expression) (s : Scan) : Scan → Prop where
  | intro (ops : List Operator) {output : List Token}
      (hops : ∀ top ∈ ops, strength ≤ top.precedence)
      (houtput : emit ops output = e.postorder.reverse ++ s.output) :
      After strength e s { s with stack := ops.map .operator ++ s.stack, output := output }

variable {e a b : Expression} {s t : Scan} {u w : List Lexeme}

/-- Operators that bind tightly enough for a strong phrase do so for a weak one. -/
theorem After.mono {low high : Nat} (hle : low ≤ high) (h : After high e s t) :
    After low e s t := by
  obtain ⟨ops, hops, houtput⟩ := h
  exact ⟨ops, fun top htop => hle.trans (hops top htop), houtput⟩

theorem WeakTop.mono {low high : Nat} (hle : low ≤ high) {stack : List Pending}
    (h : WeakTop low stack) : WeakTop high stack :=
  fun top rest hstack => (h top rest hstack).trans_le hle

/-- One more operation: the operator displaces what its left side has left waiting, and waits itself
while its right side is read. Both kinds of operations are this one, with the strengths of their
phrases. -/
theorem After.operation {o : Operator} (hread : u.foldlM read s = .ok t)
    (hleft : After o.precedence a s t) (htop : WeakTop o.precedence s.stack)
    (hright : ∀ r : Scan, WeakTop (o.precedence + 1) r.stack →
      ∃ t, w.foldlM read r = .ok t ∧ After (o.precedence + 1) b r t) :
    ∃ t, (u ++ .operator o :: w).foldlM read s = .ok t ∧
      After o.precedence (.operation o a b) s t := by
  obtain @⟨leftOps, leftOutput, hleftOps, hleftOutput⟩ := hleft
  have hreads := Reads.operator
    (s := { s with stack := leftOps.map .operator ++ s.stack, output := leftOutput })
    rfl hleftOps htop
  rw [hleftOutput] at hreads
  obtain ⟨t, hrightRead, @⟨ops, output, hrightOps, hrightOutput⟩⟩ :=
    hright { s with stack := .operator o :: s.stack, output := a.postorder.reverse ++ s.output }
      (by simp [WeakTop])
  refine ⟨_, (foldlM_read_append hread _).trans ((hreads.foldlM_cons w).trans hrightRead), ?_⟩
  -- Seen from before the operation, the operator waits below what its right side leaves.
  have hafter : After o.precedence (.operation o a b) s
      { s with stack := (ops ++ [o]).map .operator ++ s.stack, output := output } := by
    refine ⟨ops ++ [o], fun top hmem => ?_, ?_⟩
    · rcases List.mem_append.1 hmem with hmem | hmem
      · exact (Nat.le_succ _).trans (hrightOps top hmem)
      · rw [List.mem_singleton.1 hmem]
    · rw [emit_append_singleton, hrightOutput]
      simp [Expression.postorder]
  simpa using hafter

/-- An expression in parentheses leaves nothing waiting, as the parenthesis emits all that it has
left. -/
theorem After.group (hread : w.foldlM read { s with stack := .group :: s.stack } = .ok t)
    (h : After 1 e { s with stack := .group :: s.stack } t) :
    ∃ t, (.opening :: (w ++ [.closing])).foldlM read s = .ok t ∧ After 3 e s t := by
  obtain @⟨ops, output, -, houtput⟩ := h
  have hreads := Reads.closing
    (s := { s with stack := ops.map .operator ++ .group :: s.stack, output := output }) rfl
  refine ⟨_, (Reads.opening.foldlM_cons _).trans
    ((foldlM_read_append hread _).trans (hreads.foldlM_cons [])), ?_⟩
  exact .intro [] (by simp) houtput

end Scan

/-- **Reading a sentence** puts the postorder of its expression into the output, up to operators
that bind at least as tightly as the phrase. The induction is on how the sentence is derived, and
has to be for every scan, since a part of a sentence is read on top of what came before. -/
theorem Derives.exists_after {p : Phrase} {e : Expression} {w : List Lexeme} (h : Derives p e w)
    (s : Scan) (htop : Scan.WeakTop p.strength s.stack) :
    ∃ t, w.foldlM Scan.read s = .ok t ∧ Scan.After p.strength e s t := by
  induction h generalizing s with
  | operand htext => exact ⟨_, rfl, .intro [] (by simp) rfl⟩
  | group _ ih =>
    obtain ⟨t, hread, hafter⟩ := ih { s with stack := .group :: s.stack } (by simp [Scan.WeakTop])
    exact hafter.group hread
  | factor _ ih =>
    obtain ⟨t, hread, hafter⟩ := ih s (htop.mono (by decide))
    exact ⟨t, hread, hafter.mono (by decide)⟩
  | term _ ih =>
    obtain ⟨t, hread, hafter⟩ := ih s (htop.mono (by decide))
    exact ⟨t, hread, hafter.mono (by decide)⟩
  | product ho _ _ ihLeft ihRight =>
    obtain ⟨t, hread, hafter⟩ := ihLeft s htop
    rcases ho with rfl | rfl <;> exact hafter.operation hread htop ihRight
  | sum ho _ _ ihLeft ihRight =>
    obtain ⟨t, hread, hafter⟩ := ihLeft s htop
    rcases ho with rfl | rfl <;> exact hafter.operation hread htop ihRight

/-- A sentence is converted to the postorder of its expression, the end of the text emitting what
still waits. -/
theorem Derives.toPostfix_eq {e : Expression} {w : List Lexeme} (h : Derives .expression e w)
    {text : String} (htext : text.toList = spell w) : toPostfix text = .ok e.postorder := by
  obtain ⟨t, hread, @⟨ops, output, -, houtput⟩⟩ := h.exists_after {} (by simp [Scan.WeakTop])
  rw [toPostfix_spell h.isWritten h.apartOperands.separateNumbers htext, hread]
  show Scan.finish _ = _
  rw [Scan.finish, Scan.flush_eq_self rfl]
  simp [Scan.drain_operators, houtput]

/-! ### Evaluation -/

/-- Running the postorder of an expression puts its value on the stack, or fails as its value does.
The stack below is arbitrary, as the left side lies there while the right side is run. -/
theorem Expression.foldlM_evaluateToken (e : Expression) (stack : List Binary64) :
    e.postorder.foldlM evaluateToken stack = (· :: stack) <$> e.value := by
  induction e generalizing stack with
  | operand text =>
    simp only [postorder, value, List.foldlM_cons, List.foldlM_nil, evaluateToken, bind_pure]
    cases readOperand text <;> rfl
  | operation o left right ihLeft ihRight =>
    rw [postorder, List.foldlM_append, List.foldlM_append, ihLeft]
    simp only [value]
    cases left.value with
    | error e => rfl
    | ok a =>
      show (right.postorder.foldlM evaluateToken (a :: stack) >>= _) = _
      rw [ihRight]
      cases right.value with
      | error e => rfl
      | ok b =>
        show (evaluateToken (b :: a :: stack) (.operator o) >>= pure) = (· :: stack) <$> o.apply a b
        simp only [evaluateToken, bind_pure]
        cases o.apply a b <;> rfl

/-- The postorder of an expression evaluates to its value. -/
theorem Expression.evaluatePostfix_postorder (e : Expression) :
    evaluatePostfix e.postorder = e.value := by
  rw [evaluatePostfix, e.foldlM_evaluateToken]
  cases e.value <;> rfl

/-! ### White space -/

/-- Lexemes are written without white space. -/
theorem Lexeme.IsWritten.not_isWhiteSpace {l : Lexeme} (h : l.IsWritten) {c : Char}
    (hc : c ∈ l.chars) : isWhiteSpace c = false := by
  cases l with
  | operand text =>
    have hoperand := (h text rfl).2 c hc
    rw [isOperandChar, Bool.or_eq_true, decide_eq_true_eq] at hoperand
    rcases hoperand with hdigit | rfl
    · exact isWhiteSpace_of_isDigit hdigit
    · decide
  | operator o =>
    rw [List.mem_singleton.1 hc]
    cases o <;> decide
  | opening =>
    rw [List.mem_singleton.1 hc]
    decide
  | closing =>
    rw [List.mem_singleton.1 hc]
    decide

/-- Without its white space, a text spells the lexemes that it shows. White space inside a number is
not shown by any lexemes, but it is taken out as well. -/
theorem Shows.filter_eq {w : List Lexeme} {cs : List Char} (h : Shows w cs)
    (hwritten : ∀ l ∈ w, l.IsWritten) : cs.filter (fun c => !isWhiteSpace c) = spell w := by
  induction h with
  | nil hgap => simpa using hgap
  | @cons l w gap cs hgap _ ih =>
    rw [List.forall_mem_cons] at hwritten
    have hspace : gap.filter (fun c => !isWhiteSpace c) = [] := by simpa using hgap
    have hchars : l.chars.filter (fun c => !isWhiteSpace c) = l.chars := by
      rw [List.filter_eq_self]
      intro c hc
      rw [hwritten.1.not_isWhiteSpace hc]
      rfl
    rw [List.filter_append, List.filter_append, hspace, hchars, ih hwritten.2]
    rfl

/-- **A sentence means its expression.** Whatever white space stands between its lexemes, it is
converted to the postorder of the expression and evaluated to its value or its error. -/
theorem evaluate_sentence {e : Expression} {w : List Lexeme} (h : Derives .expression e w)
    {text : String} (htext : Shows w text.toList) :
    toPostfix (removeWhiteSpace text) = .ok e.postorder ∧ evaluate text = e.value := by
  have hspell : (removeWhiteSpace text).toList = spell w := by
    rw [toList_removeWhiteSpace]
    exact htext.filter_eq h.isWritten
  have htokens := h.toPostfix_eq hspell
  refine ⟨htokens, ?_⟩
  rw [evaluate, htokens]
  exact e.evaluatePostfix_postorder

/-- The expression of `2 - 3 * (4)`. -/
def differenceOfProduct : Expression :=
  .operation .sub (.operand "2") (.operation .mul (.operand "3") (.operand "4"))

/-- The lexemes of `2 - 3 * (4)`. -/
def differenceOfProductLexemes : List Lexeme :=
  [.operand "2", .operator .sub, .operand "3", .operator .mul, .opening, .operand "4", .closing]

theorem derives_differenceOfProduct :
    Derives .expression differenceOfProduct differenceOfProductLexemes := by
  have htwo : IsOperandText "2" := by simp [IsOperandText, isOperandChar, isDigit]
  have hthree : IsOperandText "3" := by simp [IsOperandText, isOperandChar, isDigit]
  have hfour : IsOperandText "4" := by simp [IsOperandText, isOperandChar, isDigit]
  exact .sum (u := [.operand "2"]) (.inr rfl) (.term (.factor (.operand htwo)))
    (.product (u := [.operand "3"]) (.inl rfl) (.factor (.operand hthree))
      (.group (w := [.operand "4"]) (.term (.factor (.operand hfour)))))

theorem shows_differenceOfProduct :
    Shows differenceOfProductLexemes "2 - 3 * (4)".toList := by
  have hblank : ∀ c ∈ [' '], isWhiteSpace c = true := by simp [isWhiteSpace]
  have hnone : ∀ c ∈ [], isWhiteSpace c = true := by simp
  exact .cons hnone <| .cons hblank <| .cons hblank <| .cons hblank <| .cons hblank <|
    .cons hnone <| .cons hnone <| .nil hnone

/-- A product is taken before the difference that it is part of. -/
theorem evaluate_sentence_differenceOfProduct :
    toPostfix (removeWhiteSpace "2 - 3 * (4)") =
        .ok [.number "2", .number "3", .number "4", .operator .mul, .operator .sub] ∧
      evaluate "2 - 3 * (4)" = differenceOfProduct.value :=
  evaluate_sentence derives_differenceOfProduct shows_differenceOfProduct

end ArithService
