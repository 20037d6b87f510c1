import Mathlib
import ArithService.Proofs.Expression.Grammar

/-!
# The scan, lexeme by lexeme

The conversion to postfix reads characters. This module shows that it reads lexemes: between
two of them its state is two stacks, and each lexeme does one thing to them.

## Main Definitions

* `Steps` — what a fold does that succeeds, step by step
* `Scan.emit` — operators moved from the stack to the output
* `Scan.WeakTop` — a stack from which an operator of some strength displaces nothing
* `Scan.read`, `Scan.Reads` — what a lexeme does to the scan, as a function and case by case
* `IsLexical` — the characters that lexemes are written with

## Design Notes

While a number is being read its characters are not in the output yet, so states are compared
after `Scan.flush`. `foldlM_step_spell` is the bridge: on a text spelled by lexemes, reading
characters and then flushing is reading lexemes. Everything about the order of the output is
proved on lexemes.
-/

namespace ArithService

/-- A computation in two parts succeeds only if both do. -/
theorem exists_of_bind_eq_ok {ε α β : Type} {x : Except ε α} {f : α → Except ε β} {b : β}
    (h : x >>= f = .ok b) : ∃ a, x = .ok a ∧ f a = .ok b := by
  cases x with
  | error e => cases h
  | ok a => exact ⟨a, rfl, h⟩

/-- Steps that are taken one after the other, and all succeed. -/
inductive Steps {ε σ α : Type} (step : σ → α → Except ε σ) : List α → σ → σ → Prop where
  | nil (s : σ) : Steps step [] s s
  | cons {a : α} {as : List α} {s r t : σ} (hstep : step s a = .ok r)
      (hrest : Steps step as r t) : Steps step (a :: as) s t

/-- A fold that succeeds takes every step. So what a step preserves is proved by induction on steps,
where each case has a step that succeeds. -/
theorem steps_of_foldlM {ε σ α : Type} {step : σ → α → Except ε σ} {as : List α} {s t : σ}
    (h : as.foldlM step s = .ok t) : Steps step as s t := by
  induction as generalizing s with
  | nil =>
    obtain rfl := Except.ok.inj h
    exact .nil s
  | cons a as ih =>
    rw [List.foldlM_cons] at h
    obtain ⟨r, hstep, hrest⟩ := exists_of_bind_eq_ok h
    exact .cons hstep (ih hrest)

/-- A fold fails where one of its steps does, after steps that succeed. This is what tells which of
several errors in a text is reported. -/
theorem foldlM_eq_error_iff {ε σ α : Type} {step : σ → α → Except ε σ} {as : List α} {s : σ}
    {e : ε} : as.foldlM step s = .error e ↔ ∃ before a after t, as = before ++ a :: after ∧
      before.foldlM step s = .ok t ∧ step t a = .error e := by
  constructor
  · intro h
    induction as generalizing s with
    | nil => cases h
    | cons a as ih =>
      rw [List.foldlM_cons] at h
      cases hstep : step s a with
      | error e' =>
        rw [hstep] at h
        obtain rfl := Except.error.inj h
        exact ⟨[], a, as, s, rfl, rfl, hstep⟩
      | ok r =>
        rw [hstep] at h
        obtain ⟨before, b, after, t, rfl, hbefore, hfails⟩ := ih h
        refine ⟨a :: before, b, after, t, rfl, ?_, hfails⟩
        rw [List.foldlM_cons, hstep]
        exact hbefore
  · rintro ⟨before, a, after, t, rfl, hbefore, hfails⟩
    rw [List.foldlM_append, hbefore]
    show (step t a >>= _) = _
    rw [hfails]
    rfl

/-- The text of a number. -/
def Token.number? : Token → Option String
  | .number text => some text
  | .operator _ => none

namespace Scan

/-! ### The operator stack -/

/-- The output after operators were moved to it, the first of them first. -/
def emit (ops : List Operator) (output : List Token) : List Token :=
  (ops.map Token.operator).reverse ++ output

@[simp] theorem emit_nil (output : List Token) : emit [] output = output := rfl

theorem emit_cons (o : Operator) (ops : List Operator) (output : List Token) :
    emit (o :: ops) output = emit ops (.operator o :: output) := by
  simp [emit]

theorem emit_append_singleton (ops : List Operator) (o : Operator) (output : List Token) :
    emit (ops ++ [o]) output = .operator o :: emit ops output := by
  simp [emit]

/-- The operator on top of a stack, if there is one, is weaker than a given strength. -/
def WeakTop (strength : Nat) (stack : List Pending) : Prop :=
  ∀ top rest, stack = .operator top :: rest → top.precedence < strength

/-- Every stack has operators that an operator displaces, and a rest that it leaves alone. With this
the loop over the stack is one case (`Reads.operator`). -/
theorem exists_displaced (strength : Nat) (stack : List Pending) :
    ∃ (ops : List Operator) (rest : List Pending), stack = ops.map .operator ++ rest ∧
      (∀ top ∈ ops, strength ≤ top.precedence) ∧ WeakTop strength rest := by
  induction stack with
  | nil => exact ⟨[], [], rfl, by simp, by simp [WeakTop]⟩
  | cons entry stack ih =>
    cases entry with
    | group => exact ⟨[], .group :: stack, rfl, by simp, by simp [WeakTop]⟩
    | operator top =>
      by_cases hweak : top.precedence < strength
      · exact ⟨[], .operator top :: stack, rfl, by simp, by simp [WeakTop, hweak]⟩
      · obtain ⟨ops, rest, rfl, hops, hrest⟩ := ih
        exact ⟨top :: ops, rest, rfl, List.forall_mem_cons.2 ⟨not_lt.1 hweak, hops⟩, hrest⟩

/-- An operator displaces just these operators, in the order in which they are taken from the
stack. -/
theorem displace_append {o : Operator} {ops : List Operator} {rest : List Pending}
    (hops : ∀ top ∈ ops, o.precedence ≤ top.precedence) (hrest : WeakTop o.precedence rest)
    (output : List Token) :
    displace o (ops.map .operator ++ rest) output = (rest, emit ops output) := by
  induction ops generalizing output with
  | nil =>
    cases rest with
    | nil => rfl
    | cons entry rest =>
      cases entry with
      | group => rfl
      | operator top => simp [displace, hrest top rest rfl]
  | cons top ops ih =>
    rw [List.forall_mem_cons] at hops
    rw [List.map_cons, List.cons_append, displace, if_neg (not_lt.2 hops.1), ih hops.2, emit_cons]

/-- Every stack has the operators of its innermost group, above the parenthesis if there is one.
Whether there is one decides about errors at the end and at closing parentheses. -/
theorem exists_segment (stack : List Pending) :
    ∃ ops : List Operator, stack = ops.map .operator ∨
      ∃ rest, stack = ops.map .operator ++ .group :: rest := by
  induction stack with
  | nil => exact ⟨[], .inl rfl⟩
  | cons entry stack ih =>
    cases entry with
    | group => exact ⟨[], .inr ⟨stack, rfl⟩⟩
    | operator top =>
      obtain ⟨ops, rfl | ⟨rest, rfl⟩⟩ := ih
      · exact ⟨top :: ops, .inl rfl⟩
      · exact ⟨top :: ops, .inr ⟨rest, rfl⟩⟩

theorem closeGroup_append (ops : List Operator) (rest : List Pending) (output : List Token) :
    closeGroup (ops.map .operator ++ .group :: rest) output = some (rest, emit ops output) := by
  induction ops generalizing output with
  | nil => rfl
  | cons top ops ih => rw [List.map_cons, List.cons_append, closeGroup, ih, emit_cons]

theorem closeGroup_operators (ops : List Operator) (output : List Token) :
    closeGroup (ops.map .operator) output = none := by
  induction ops generalizing output with
  | nil => rfl
  | cons top ops ih => rw [List.map_cons, closeGroup, ih]

theorem drain_operators (ops : List Operator) (output : List Token) :
    drain (ops.map .operator) output = .ok (emit ops output) := by
  induction ops generalizing output with
  | nil => rfl
  | cons top ops ih => rw [List.map_cons, drain, ih, emit_cons]

/-- An open parenthesis at the end is an error, whatever operators are above it on the stack. -/
theorem drain_append (ops : List Operator) (rest : List Pending) (output : List Token) :
    drain (ops.map .operator ++ .group :: rest) output = .error .mismatchedParentheses := by
  induction ops generalizing output with
  | nil => rfl
  | cons top ops ih => rw [List.map_cons, List.cons_append, drain, ih]

/-! ### Lexemes -/

/-- What a lexeme does to the scan, once the number before it is emitted. -/
def read (s : Scan) : Lexeme → Except ExpressionError Scan
  | .operand text => .ok { s with output := .number text :: s.output }
  | .operator o =>
    let (stack, output) := displace o s.stack s.output
    .ok { s with stack := .operator o :: stack, output := output }
  | .opening => .ok { s with stack := .group :: s.stack }
  | .closing =>
    match closeGroup s.stack s.output with
    | some (stack, output) => .ok { s with stack := stack, output := output }
    | none => .error .mismatchedParentheses

/-- What a lexeme does to the scan, case by case. -/
inductive Reads (s : Scan) : Lexeme → Scan → Prop where
  | operand (text : String) : Reads s (.operand text) { s with output := .number text :: s.output }
  /-- An operator displaces those that bind at least as tightly. -/
  | operator {o : Operator} {ops : List Operator} {rest : List Pending}
      (hstack : s.stack = ops.map .operator ++ rest)
      (hops : ∀ top ∈ ops, o.precedence ≤ top.precedence) (hrest : WeakTop o.precedence rest) :
      Reads s (.operator o)
        { s with stack := .operator o :: rest, output := emit ops s.output }
  | opening : Reads s .opening { s with stack := .group :: s.stack }
  /-- A closing parenthesis emits the operators of its group. -/
  | closing {ops : List Operator} {rest : List Pending}
      (hstack : s.stack = ops.map .operator ++ .group :: rest) :
      Reads s .closing { s with stack := rest, output := emit ops s.output }

variable {s t : Scan} {l : Lexeme}

/-- What a lexeme does is one of the cases: the cases are sound. -/
theorem Reads.read_eq (h : Reads s l t) : s.read l = .ok t := by
  cases h with
  | operand text => rfl
  | operator hstack hops hrest => simp only [read, hstack, displace_append hops hrest]
  | opening => rfl
  | closing hstack => simp only [read, hstack, closeGroup_append]

/-- A lexeme that is read does one of the cases: they are complete. The stack is taken apart here,
and nowhere else. -/
theorem reads_of_read (h : s.read l = .ok t) : Reads s l t := by
  cases l with
  | operand text =>
    obtain rfl := Except.ok.inj h
    exact .operand text
  | operator o =>
    obtain ⟨ops, rest, hstack, hops, hrest⟩ := exists_displaced o.precedence s.stack
    have hreads : Reads s (.operator o) _ := .operator hstack hops hrest
    rw [hreads.read_eq] at h
    exact Except.ok.inj h ▸ hreads
  | opening =>
    obtain rfl := Except.ok.inj h
    exact .opening
  | closing =>
    obtain ⟨ops, hstack | ⟨rest, hstack⟩⟩ := exists_segment s.stack
    · simp [read, hstack, closeGroup_operators] at h
    · have hreads : Reads s .closing _ := .closing hstack
      rw [hreads.read_eq] at h
      exact Except.ok.inj h ▸ hreads

/-- Reading goes on where the first lexeme leads. -/
theorem Reads.foldlM_cons (h : Reads s l t) (w : List Lexeme) :
    (l :: w).foldlM read s = w.foldlM read t := by
  rw [List.foldlM_cons, h.read_eq]
  rfl

/-- Reading goes on where the first lexemes lead. -/
theorem foldlM_read_append {u : List Lexeme} (h : u.foldlM read s = .ok t) (w : List Lexeme) :
    (u ++ w).foldlM read s = w.foldlM read t := by
  rw [List.foldlM_append, h]
  rfl

/-- The end of the text empties the stack, if no parenthesis is open. The number before it must have
been emitted. -/
theorem finish_eq_ok {tokens : Postfix} (hrun : s.run = []) (h : s.finish = .ok tokens) :
    ∃ ops, s.stack = ops.map .operator ∧ tokens = (emit ops s.output).reverse := by
  have hflush : s.flush = s := if_pos hrun
  obtain ⟨ops, hstack | ⟨rest, hstack⟩⟩ := exists_segment s.stack
  · simp only [finish, hflush, hstack, drain_operators] at h
    exact ⟨ops, hstack, (Except.ok.inj h).symm⟩
  · simp [finish, hflush, hstack, drain_append] at h

/-! ### From characters to lexemes -/

@[simp] theorem run_flush (s : Scan) : s.flush.run = [] := by
  unfold flush
  split_ifs with hrun
  · exact hrun
  · rfl

@[simp] theorem stack_flush (s : Scan) : s.flush.stack = s.stack := by
  unfold flush
  split_ifs <;> rfl

theorem flush_eq_self (h : s.run = []) : s.flush = s := if_pos h

@[simp] theorem finish_flush (s : Scan) : s.flush.finish = s.finish := by
  rw [finish, flush_eq_self s.run_flush, finish]

/-- Reading keeps the number being read apart, so that states between lexemes have none. -/
theorem Reads.run_eq (h : Reads s l t) : t.run = s.run := by
  cases h <;> rfl

theorem run_of_steps {w : List Lexeme} (h : Steps read w s t) : t.run = s.run := by
  induction h with
  | nil => rfl
  | cons hread _ ih => exact ih.trans (reads_of_read hread).run_eq

/-- A lexeme that is no operand is read as its character is, after the number before it. -/
theorem step_chars (hoperand : l.operand? = none) :
    l.chars.foldlM step s = s.flush.read l := by
  cases l with
  | operand text => simp [Lexeme.operand?] at hoperand
  | operator o => cases o <;> simp [Lexeme.chars, Operator.symbol, step, isOperandChar, isDigit,
      punctuation, Operator.ofChar?, read]
  | opening => simp [Lexeme.chars, step, isOperandChar, isDigit, punctuation, read]
  | closing =>
    simp only [Lexeme.chars, List.foldlM_cons, List.foldlM_nil, bind_pure]
    rfl

/-- The characters of an operand are kept until the next lexeme. -/
theorem foldlM_step_operand {cs : List Char} (h : ∀ c ∈ cs, isOperandChar c = true) (s : Scan) :
    cs.foldlM step s = .ok { s with run := cs.reverse ++ s.run } := by
  induction cs generalizing s with
  | nil => rfl
  | cons c cs ih =>
    rw [List.forall_mem_cons] at h
    rw [List.foldlM_cons, step, if_pos h.1]
    show cs.foldlM step { s with run := c :: s.run } = _
    rw [ih h.2]
    simp

/-- **Reading a spelled text is reading its lexemes**, once the last number is emitted. -/
theorem foldlM_step_spell {w : List Lexeme} (hwritten : ∀ l ∈ w, l.IsWritten)
    (hseparate : SeparateNumbers w) (s : Scan)
    (hrun : s.run ≠ [] → ∀ l ∈ w.head?, l.operand? = none) :
    flush <$> (spell w).foldlM step s = w.foldlM read s.flush := by
  -- A number that is still being read is not followed by another one, so it stays one number.
  induction w generalizing s with
  | nil => rfl
  | cons l w ih =>
    rw [List.forall_mem_cons] at hwritten
    obtain ⟨hnext, hlater⟩ := List.isChain_cons.1 hseparate
    rw [spell_cons, List.foldlM_append, List.foldlM_cons]
    cases hoperand : l.operand? with
    | none =>
      rw [step_chars hoperand]
      cases hread : s.flush.read l with
      | error e => rfl
      | ok t =>
        have hemitted : t.run = [] := (reads_of_read hread).run_eq.trans s.run_flush
        have hrest := ih hwritten.2 hlater t fun h => absurd hemitted h
        rw [flush_eq_self hemitted] at hrest
        exact hrest
    | some text =>
      obtain rfl : l = .operand text := by
        cases l <;> simp_all [Lexeme.operand?]
      have hnone : s.run = [] := by
        by_contra hsome
        simp [Lexeme.operand?] at hrun
        exact hsome hrun
      obtain ⟨htext, hchars⟩ := hwritten.1 text rfl
      have hrest := ih hwritten.2 hlater { s with run := text.toList.reverse } fun _ m hm =>
        (hnext m hm).resolve_left (by simp [Lexeme.operand?])
      have hflush : ({ s with run := text.toList.reverse } : Scan).flush =
          { s with output := .number text :: s.output } := by
        simp [flush, htext, hnone]
      rw [hflush] at hrest
      rw [Lexeme.chars, foldlM_step_operand hchars, hnone, List.append_nil, flush_eq_self hnone]
      exact hrest

/-! ### Numbers -/

theorem filterMap_number_emit (ops : List Operator) (output : List Token) :
    (emit ops output).filterMap Token.number? = output.filterMap Token.number? := by
  induction ops generalizing output with
  | nil => rfl
  | cons o ops ih =>
    rw [emit_cons, ih]
    rfl

/-- A lexeme emits the number that it is, and no other. -/
theorem Reads.filterMap_number (h : Reads s l t) :
    t.output.filterMap Token.number? =
      l.operand?.toList ++ s.output.filterMap Token.number? := by
  cases h with
  | operand text => rfl
  | operator _ _ _ => exact filterMap_number_emit _ _
  | opening => rfl
  | closing _ => exact filterMap_number_emit _ _

/-- Numbers are emitted in the order in which they stand in the text, the latest first in the
output. -/
theorem filterMap_number_of_steps {w : List Lexeme} (h : Steps read w s t) :
    t.output.filterMap Token.number? =
      (w.filterMap Lexeme.operand?).reverse ++ s.output.filterMap Token.number? := by
  induction h with
  | nil => rfl
  | @cons l w s r t hread _ ih =>
    rw [ih, (reads_of_read hread).filterMap_number]
    cases hoperand : l.operand? <;> simp [hoperand]

end Scan

/-- The postfix of a spelled text depends on its lexemes only. -/
theorem toPostfix_spell {w : List Lexeme} (hwritten : ∀ l ∈ w, l.IsWritten)
    (hseparate : SeparateNumbers w) {text : String} (htext : text.toList = spell w) :
    toPostfix text = w.foldlM Scan.read {} >>= Scan.finish := by
  have hfold := Scan.foldlM_step_spell hwritten hseparate {} fun h => absurd rfl h
  rw [Scan.flush_eq_self rfl] at hfold
  rw [← hfold, toPostfix, htext]
  cases (spell w).foldlM Scan.step {} with
  | error e => rfl
  | ok s => exact s.finish_flush.symm

/-- The numbers of the postfix are the operands of the text, in order. -/
theorem filterMap_number_of_toPostfix {w : List Lexeme} (hwritten : ∀ l ∈ w, l.IsWritten)
    (hseparate : SeparateNumbers w) {text : String} (htext : text.toList = spell w)
    {tokens : Postfix} (h : toPostfix text = .ok tokens) :
    tokens.filterMap Token.number? = w.filterMap Lexeme.operand? := by
  rw [toPostfix_spell hwritten hseparate htext] at h
  obtain ⟨t, hread, hfinish⟩ := exists_of_bind_eq_ok h
  have hsteps := steps_of_foldlM hread
  obtain ⟨ops, -, rfl⟩ := Scan.finish_eq_ok (Scan.run_of_steps hsteps) hfinish
  rw [List.filterMap_reverse, Scan.filterMap_number_emit, Scan.filterMap_number_of_steps hsteps]
  simp

/-! ### From texts to lexemes -/

/-- The characters that lexemes are written with. -/
def IsLexical (c : Char) : Prop :=
  isOperandChar c = true ∨ ∃ l : Lexeme, l.operand? = none ∧ l.chars = [c]

/-- Every text of lexical characters is spelled by lexemes, numbers being as long as possible. So
nothing is lost by looking at lexemes only. -/
theorem exists_spell {cs : List Char} (h : ∀ c ∈ cs, IsLexical c) :
    ∃ w, spell w = cs ∧ (∀ l ∈ w, l.IsWritten) ∧ SeparateNumbers w := by
  induction cs with
  | nil => exact ⟨[], rfl, by simp, .nil⟩
  | cons c cs ih =>
    rw [List.forall_mem_cons] at h
    obtain ⟨w, rfl, hwritten, hseparate⟩ := ih h.2
    rcases h.1 with hoperand | ⟨l, hother, hchars⟩
    · cases w with
      | nil => exact ⟨[.operand (String.ofList [c])], by simp [Lexeme.chars],
          by simpa [Lexeme.IsWritten, IsOperandText] using hoperand, List.isChain_singleton _⟩
      | cons m w =>
        rw [List.forall_mem_cons] at hwritten
        obtain ⟨hnext, hrest⟩ := List.isChain_cons.1 hseparate
        cases hfirst : m.operand? with
        | none =>
          refine ⟨.operand (String.ofList [c]) :: m :: w, by simp [Lexeme.chars], ?_, ?_⟩
          · refine List.forall_mem_cons.2 ⟨?_, List.forall_mem_cons.2 hwritten⟩
            simpa [Lexeme.IsWritten, IsOperandText] using hoperand
          · exact List.isChain_cons.2 ⟨by simp [hfirst], hseparate⟩
        | some text =>
          -- The character makes the number that follows it one longer.
          obtain rfl : m = .operand text := by
            cases m <;> simp_all [Lexeme.operand?]
          obtain ⟨-, hdigits⟩ := hwritten.1 text rfl
          refine ⟨.operand (String.ofList (c :: text.toList)) :: w, by simp [Lexeme.chars], ?_, ?_⟩
          · refine List.forall_mem_cons.2 ⟨?_, hwritten.2⟩
            simpa [Lexeme.IsWritten, IsOperandText] using ⟨hoperand, hdigits⟩
          · exact List.isChain_cons.2 ⟨fun k hk => .inr ((hnext k hk).resolve_left
              (by simp [Lexeme.operand?])), hrest⟩
    · refine ⟨l :: w, by simp [hchars], ?_, ?_⟩
      · refine List.forall_mem_cons.2 ⟨fun text htext => ?_, hwritten⟩
        simp [htext, Lexeme.operand?] at hother
      · exact List.isChain_cons.2 ⟨fun _ _ => .inl hother, hseparate⟩

theorem Operator.symbol_of_ofChar? {c : Char} {o : Operator} (h : ofChar? c = some o) :
    o.symbol = c := by
  unfold ofChar? at h
  split_ifs at h with hadd hsub hmul hdiv <;> obtain rfl := Option.some.inj h
  · exact hadd.symm
  · exact hsub.symm
  · exact hmul.symm
  · exact hdiv.symm

theorem isLexical_of_step {s t : Scan} {c : Char} (h : s.step c = .ok t) : IsLexical c := by
  unfold Scan.step Scan.punctuation at h
  split_ifs at h with hoperand hopening hclosing
  · exact .inl hoperand
  · exact .inr ⟨.opening, rfl, by simp [Lexeme.chars, hopening]⟩
  · exact .inr ⟨.closing, rfl, by simp [Lexeme.chars, hclosing]⟩
  · cases hoperator : Operator.ofChar? c with
    | none => simp [hoperator] at h
    | some o =>
      exact .inr ⟨.operator o, rfl, by rw [Lexeme.chars, Operator.symbol_of_ofChar? hoperator]⟩

theorem isLexical_of_steps {cs : List Char} {s t : Scan} (h : Steps Scan.step cs s t) :
    ∀ c ∈ cs, IsLexical c := by
  induction h with
  | nil => simp
  | cons hstep _ ih => exact List.forall_mem_cons.2 ⟨isLexical_of_step hstep, ih⟩

/-- A text that is converted consists of lexical characters. -/
theorem isLexical_of_toPostfix {text : String} {tokens : Postfix}
    (h : toPostfix text = .ok tokens) : ∀ c ∈ text.toList, IsLexical c := by
  unfold toPostfix at h
  split at h
  · next s hrun => exact isLexical_of_steps (steps_of_foldlM hrun)
  · simp at h

end ArithService
