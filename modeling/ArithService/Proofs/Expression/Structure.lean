import Mathlib
import ArithService.Proofs.Expression.Acceptance

/-!
# Which texts with a value are sentences

The conversion checks characters and parentheses, and the evaluation counts operands and
operators. Nobody looks at where they stand, so that `(2)(3)+` has a value. This is the only
way to get past the two checks: a text with a value is a sentence of the grammar unless one
operand stands directly behind another one.

## Main Definitions

* `surplus`, `depth` — by how many operands outnumber operators, and how many groups are open
* `Opens`, `Standing` — what the beginning of a text is the beginning of
* `Juxtaposed` — two characters with which one operand ends and the next one begins

## Design Notes

Where operands are apart, two operands have at least one operator between them, so one operand
more than operators leaves no room for a second one. `Standing.append` carries this from lexeme
to lexeme: as soon as an operator or a closing parenthesis comes where an operand is due,
operands are short for good.
-/

namespace ArithService

/-! ### Counting -/

/-- What a token adds to the number of values on the stack. -/
def Token.surplus : Token → Int
  | .number _ => 1
  | .operator _ => -1

/-- What a waiting entry will add to the number of values on the stack. -/
def Pending.surplus : Pending → Int
  | .group => 0
  | .operator _ => -1

/-- What a lexeme adds to the number of values on the stack. -/
def Lexeme.surplus : Lexeme → Int
  | .operand _ => 1
  | .operator _ => -1
  | _ => 0

/-- What a lexeme adds to the number of open groups. -/
def Lexeme.depth : Lexeme → Int
  | .opening => 1
  | .closing => -1
  | _ => 0

/-- By how many the operands of a text outnumber its operators. -/
def surplus (w : List Lexeme) : Int := (w.map Lexeme.surplus).sum

/-- How many groups are open at the end of a text. -/
def depth (w : List Lexeme) : Int := (w.map Lexeme.depth).sum

@[simp] theorem surplus_append_singleton (w : List Lexeme) (l : Lexeme) :
    surplus (w ++ [l]) = surplus w + l.surplus := by
  simp [surplus]

@[simp] theorem depth_append_singleton (w : List Lexeme) (l : Lexeme) :
    depth (w ++ [l]) = depth w + l.depth := by
  simp [depth]

/-- Running a token changes the number of values by its surplus. -/
theorem length_evaluateToken {t : Token} {stack after : List Binary64}
    (h : evaluateToken stack t = .ok after) : (after.length : Int) = stack.length + t.surplus := by
  cases t with
  | number text =>
    simp only [evaluateToken] at h
    split at h
    · obtain rfl := Except.ok.inj h
      simp [Token.surplus]
    · simp at h
  | operator o =>
    simp only [evaluateToken] at h
    split at h
    · split at h
      · obtain rfl := Except.ok.inj h
        simp [Token.surplus]
      · simp at h
    · simp at h

theorem length_of_steps {tokens : Postfix} {stack after : List Binary64}
    (h : Steps evaluateToken tokens stack after) :
    (after.length : Int) = stack.length + (tokens.map Token.surplus).sum := by
  induction h with
  | nil => simp
  | cons htoken _ ih =>
    rw [ih, length_evaluateToken htoken, List.map_cons, List.sum_cons]
    ring

/-- A postfix sequence with a value has one operand more than operators. This is all that the
evaluation has to say about the structure of a text. -/
theorem surplus_of_evaluatePostfix {tokens : Postfix} {x : Binary64}
    (h : evaluatePostfix tokens = .ok x) : (tokens.map Token.surplus).sum = 1 := by
  unfold evaluatePostfix at h
  split at h
  · next value hstack => simpa using (length_of_steps (steps_of_foldlM hstack)).symm
  · simp at h
  · simp at h

namespace Scan

/-- The surplus of everything that the scan has read. -/
def surplus (s : Scan) : Int :=
  (s.output.map Token.surplus).sum + (s.stack.map Pending.surplus).sum

theorem surplus_emit (ops : List Operator) (output : List Token) :
    ((emit ops output).map Token.surplus).sum =
      ((ops.map Pending.operator).map Pending.surplus).sum + (output.map Token.surplus).sum := by
  induction ops generalizing output with
  | nil => simp
  | cons o ops ih =>
    rw [emit_cons, ih]
    simp [Token.surplus, Pending.surplus]
    ring

theorem count_group_operators (ops : List Operator) :
    (ops.map Pending.operator).count .group = 0 := by
  simp [List.count_eq_zero]

/-- A lexeme adds its surplus, and opens or closes a group. The surplus of a waiting operator is
counted at once, though it is emitted later. -/
theorem Reads.surplus_depth {s t : Scan} {l : Lexeme} (h : Reads s l t) :
    t.surplus = s.surplus + l.surplus ∧
      (t.stack.count .group : Int) = s.stack.count .group + l.depth := by
  cases h with
  | operand text =>
    constructor
    · simp [surplus, Lexeme.surplus, Token.surplus]
      ring
    · simp [Lexeme.depth]
  | @operator o ops rest hstack _ _ =>
    constructor
    · simp only [surplus, hstack, surplus_emit, List.map_append, List.map_cons, List.sum_append,
        List.sum_cons, Lexeme.surplus, Pending.surplus]
      ring
    · simp [hstack, List.count_append, count_group_operators, Lexeme.depth]
  | opening =>
    constructor
    · simp [surplus, Lexeme.surplus, Pending.surplus]
    · simp [Lexeme.depth]
  | @closing ops rest hstack =>
    constructor
    · simp only [surplus, hstack, surplus_emit, List.map_append, List.map_cons, List.sum_append,
        List.sum_cons, Lexeme.surplus, Pending.surplus]
      ring
    · simp [hstack, List.count_append, count_group_operators, Lexeme.depth]

theorem surplus_depth_of_steps {w : List Lexeme} {s t : Scan} (h : Steps read w s t) :
    t.surplus = s.surplus + ArithService.surplus w ∧
      (t.stack.count .group : Int) = s.stack.count .group + depth w := by
  induction h with
  | nil => simp [ArithService.surplus, depth]
  | cons hread _ ih =>
    obtain ⟨hsurplus, hdepth⟩ := (reads_of_read hread).surplus_depth
    simp only [ArithService.surplus, depth, List.map_cons, List.sum_cons] at *
    constructor <;> linarith

end Scan

/-- What holds of the lexemes of a text that is converted to a postfix sequence with a value: no
group is closed that is not open, all groups are closed, and operands outnumber operators by
one. -/
structure IsBalanced (w : List Lexeme) : Prop where
  depth_nonneg : ∀ u v, w = u ++ v → 0 ≤ depth u
  depth_eq : depth w = 0
  surplus_eq : surplus w = 1

/-- **A text with a value is balanced.** The conversion sees to the groups, and the evaluation to
the surplus. -/
theorem isBalanced_of_evaluatePostfix {w : List Lexeme} (hwritten : ∀ l ∈ w, l.IsWritten)
    (hseparate : SeparateNumbers w) {text : String} (htext : text.toList = spell w)
    {tokens : Postfix} (htokens : toPostfix text = .ok tokens) {x : Binary64}
    (hvalue : evaluatePostfix tokens = .ok x) : IsBalanced w := by
  rw [toPostfix_spell hwritten hseparate htext] at htokens
  obtain ⟨t, hread, hfinish⟩ := exists_of_bind_eq_ok htokens
  have hsteps := steps_of_foldlM hread
  obtain ⟨ops, hstack, rfl⟩ := Scan.finish_eq_ok (Scan.run_of_steps hsteps) hfinish
  obtain ⟨hsurplus, hdepth⟩ := Scan.surplus_depth_of_steps hsteps
  refine ⟨?depth_nonneg, ?depth_eq, ?surplus_eq⟩
  case depth_nonneg =>
    rintro u v rfl
    rw [List.foldlM_append] at hread
    obtain ⟨s, hfirst, -⟩ := exists_of_bind_eq_ok hread
    have hopen := (Scan.surplus_depth_of_steps (steps_of_foldlM hfirst)).2
    simp only [List.count_nil, Nat.cast_zero, zero_add] at hopen
    exact hopen ▸ Int.natCast_nonneg _
  case depth_eq =>
    rw [hstack, Scan.count_group_operators] at hdepth
    simpa using hdepth.symm
  case surplus_eq =>
    have htokens := surplus_of_evaluatePostfix hvalue
    rw [List.map_reverse, List.sum_reverse, Scan.surplus_emit, ← hstack, add_comm] at htokens
    rw [Scan.surplus, htokens] at hsurplus
    simpa [Scan.surplus] using hsurplus.symm

/-! ### From left to right -/

/-- What an operand can follow within its group: nothing, or an expression and an operator. -/
inductive Lead : List Lexeme → Prop where
  | nil : Lead []
  | operator {e : Expression} {u : List Lexeme} (h : Derives .expression e u) (o : Operator) :
      Lead (u ++ [.operator o])

/-- The beginning of a text up to its last open parenthesis, with the number of these. -/
inductive Opens : Nat → List Lexeme → Prop where
  | nil : Opens 0 []
  | group {d : Nat} {p l : List Lexeme} (h : Opens d p) (hlead : Lead l) :
      Opens (d + 1) (p ++ l ++ [.opening])

/-- Whether the last lexeme of a text ends an operand. -/
def EndsOperand (w : List Lexeme) : Prop := ∃ l ∈ w.getLast?, l.endsOperand = true

@[simp] theorem endsOperand_append_singleton (w : List Lexeme) (l : Lexeme) :
    EndsOperand (w ++ [l]) ↔ l.endsOperand = true := by
  simp [EndsOperand]

/-- Where the beginning of a text has got to: an operand is due, an expression is complete, or
operands have become too few. -/
inductive Standing (w : List Lexeme) : Prop where
  | awaiting {d : Nat} {p l : List Lexeme} (htext : w = p ++ l) (hopens : Opens d p)
      (hlead : Lead l) (hdepth : depth w = d) (hsurplus : surplus w = 0)
  | complete {d : Nat} {p u : List Lexeme} {e : Expression} (htext : w = p ++ u)
      (hopens : Opens d p) (hderives : Derives .expression e u) (hdepth : depth w = d)
      (hsurplus : surplus w = 1) (hends : EndsOperand w)
  | short (hsurplus : surplus w ≤ 0) (hends : ¬ EndsOperand w → surplus w < 0)

section Standings

variable {w p v : List Lexeme} {l : Lexeme} {d : Nat}

/-- A factor where an operand is due completes an expression. -/
theorem Lead.append_factor (h : Lead w) {b : Expression} (hfactor : Derives .factor b v) :
    ∃ e, Derives .expression e (w ++ v) := by
  cases h with
  | nil => exact ⟨b, .term (.factor hfactor)⟩
  | operator hleft o => simpa using hleft.append_factor o hfactor

/-- A closing parenthesis completes the expression that its group is part of. -/
theorem Opens.close (h : Opens (d + 1) p) {e : Expression} (hgroup : Derives .expression e v) :
    ∃ q u e', Opens d q ∧ Derives .expression e' u ∧ p ++ v ++ [.closing] = q ++ u := by
  obtain _ | @⟨_, q, l, hopens, hlead⟩ := h
  obtain ⟨e', hderives⟩ := hlead.append_factor (.group hgroup)
  exact ⟨q, _, e', hopens, hderives, by simp⟩

/-- **A lexeme more.** Where operands are apart and no group is closed too often, the longer
beginning has got somewhere as well. -/
theorem Standing.append (h : Standing w) (hwritten : l.IsWritten)
    (hapart : EndsOperand w → l.beginsOperand = false) (hopen : 0 ≤ depth (w ++ [l])) :
    Standing (w ++ [l]) := by
  cases h with
  | @awaiting d p lead htext hopens hlead hdepth hsurplus =>
    cases l with
    | operand text =>
      obtain ⟨e, hderives⟩ := hlead.append_factor (.operand (hwritten text rfl))
      refine .complete (by rw [htext, List.append_assoc]) hopens hderives ?_ ?_ ?_ <;>
        simp [hdepth, hsurplus, Lexeme.depth, Lexeme.surplus, Lexeme.endsOperand]
    | opening =>
      refine .awaiting (by rw [htext, List.append_nil]) (.group hopens hlead) .nil ?_ ?_ <;>
        simp [hdepth, hsurplus, Lexeme.depth, Lexeme.surplus]
    | operator o => refine .short ?_ ?_ <;> simp [hsurplus, Lexeme.surplus]
    | closing => refine .short ?_ ?_ <;> simp [hsurplus, Lexeme.surplus, Lexeme.endsOperand]
  | @complete d p u e htext hopens hderives hdepth hsurplus hends =>
    cases l with
    | operand text => cases hapart hends
    | opening => cases hapart hends
    | operator o =>
      refine .awaiting (by rw [htext, List.append_assoc]) hopens (.operator hderives o) ?_ ?_ <;>
        simp [hdepth, hsurplus, Lexeme.depth, Lexeme.surplus]
    | closing =>
      rw [depth_append_singleton, hdepth, Lexeme.depth] at hopen
      obtain ⟨d, rfl⟩ : ∃ d', d = d' + 1 := ⟨d - 1, by omega⟩
      obtain ⟨q, v, e', houter, hwhole, hgroup⟩ := hopens.close hderives
      refine .complete (by rw [htext, hgroup]) houter hwhole ?_ ?_ ?_ <;>
        simp [hdepth, hsurplus, Lexeme.depth, Lexeme.surplus, Lexeme.endsOperand]
  | short hsurplus hends =>
    -- An operand can only follow something that ends none, and there operands are two short.
    have hfew : l.beginsOperand = true → surplus w < 0 := fun hbegins =>
      hends fun hend => by simp [hapart hend] at hbegins
    cases l with
    | operand text =>
      have := hfew rfl
      refine .short ?_ ?_ <;> simp [Lexeme.surplus, Lexeme.endsOperand]; omega
    | opening =>
      have := hfew rfl
      refine .short ?_ ?_ <;> simp [Lexeme.surplus] <;> omega
    | operator o => refine .short ?_ ?_ <;> simp [Lexeme.surplus] <;> omega
    | closing => exact .short (by simpa [Lexeme.surplus]) (by simp [Lexeme.endsOperand])

/-- Every beginning of a text whose operands are apart has got somewhere, by induction from its
end. -/
theorem standing_of_apartOperands (hwritten : ∀ l ∈ w, l.IsWritten) (hapart : ApartOperands w)
    (hopen : ∀ u v, w = u ++ v → 0 ≤ depth u) : Standing w := by
  induction w using List.reverseRecOn with
  | nil => exact .awaiting rfl .nil .nil rfl rfl
  | append_singleton w l ih =>
    obtain ⟨hbefore, -, hnext⟩ := List.isChain_append.1 hapart
    have hrest : ∀ u v, w = u ++ v → 0 ≤ depth u := fun u v htext =>
      hopen u (v ++ [l]) (by rw [htext, List.append_assoc])
    refine (ih (fun m hm => hwritten m (by simp [hm])) hbefore hrest).append
      (hwritten l (by simp)) ?_ (hopen _ [] (by simp))
    rintro ⟨m, hm, hends⟩
    simpa [hends] using hnext m hm l rfl

/-- **Apart and balanced means grammatical.** Lexemes that are balanced are a sentence, if no
operand stands directly behind another one. -/
theorem IsBalanced.exists_derives (h : IsBalanced w) (hwritten : ∀ l ∈ w, l.IsWritten)
    (hapart : ApartOperands w) : ∃ e, Derives .expression e w := by
  have hsurplus := h.surplus_eq
  have hdepth := h.depth_eq
  cases standing_of_apartOperands hwritten hapart h.depth_nonneg with
  | awaiting _ _ _ _ hnone => omega
  | short hfew _ => omega
  | @complete d p u e htext hopens hderives hopen _ _ =>
    obtain rfl : d = 0 := by omega
    cases hopens
    exact ⟨e, htext ▸ hderives⟩

end Standings

/-! ### Characters -/

/-- Two characters with which one operand ends and the next one begins. Within a number there
is no such place. -/
def Juxtaposed (c d : Char) : Prop :=
  (isOperandChar c = true ∨ c = ')') ∧ (isOperandChar d = true ∨ d = '(') ∧
    ¬ (isOperandChar c = true ∧ isOperandChar d = true)

instance : DecidableRel Juxtaposed := fun _ _ => inferInstanceAs (Decidable (_ ∧ _ ∧ _))

section Characters

variable {l m : Lexeme} {c d : Char}

/-- A character tells what kind of lexeme it is part of. -/
theorem Lexeme.IsWritten.kind_iff (h : l.IsWritten) (hc : c ∈ l.chars) :
    (isOperandChar c = true ↔ l.operand? ≠ none) ∧ (c = '(' ↔ l = .opening) ∧
      (c = ')' ↔ l = .closing) := by
  cases l with
  | operand text =>
    have hchar := (h text rfl).2 c hc
    refine ⟨by simp [hchar, operand?], ?_, ?_⟩ <;>
    · simp only [reduceCtorEq, iff_false]
      rintro rfl
      exact absurd hchar (by decide)
  | operator o =>
    obtain rfl := List.mem_singleton.1 hc
    cases o <;> decide
  | opening =>
    obtain rfl := List.mem_singleton.1 hc
    decide
  | closing =>
    obtain rfl := List.mem_singleton.1 hc
    decide

/-- Characters of two lexemes are juxtaposed where the first lexeme ends an operand, the second
one begins one, and the two cannot be the same number. -/
theorem juxtaposed_iff (hl : l.IsWritten) (hm : m.IsWritten) (hc : c ∈ l.chars)
    (hd : d ∈ m.chars) : Juxtaposed c d ↔
      (l.endsOperand ∧ m.beginsOperand) ∧ ¬ (l.operand? ≠ none ∧ m.operand? ≠ none) := by
  obtain ⟨hend, -, hclosing⟩ := hl.kind_iff hc
  obtain ⟨hbegin, hopening, -⟩ := hm.kind_iff hd
  rw [Juxtaposed, hend, hclosing, hbegin, hopening]
  cases l <;> cases m <;>
    simp [Lexeme.operand?, Lexeme.endsOperand, Lexeme.beginsOperand]

theorem Lexeme.IsWritten.chars_ne_nil (h : l.IsWritten) : l.chars ≠ [] := by
  cases l with
  | operand text => exact (h text rfl).1
  | _ => exact List.cons_ne_nil _ _

/-- Within a lexeme no characters are juxtaposed. -/
theorem Lexeme.IsWritten.isChain_chars (h : l.IsWritten) :
    l.chars.IsChain fun c d => ¬ Juxtaposed c d := by
  refine (List.pairwise_of_forall_mem_list fun c hc d hd => ?_).isChain
  rw [juxtaposed_iff h h hc hd]
  cases l <;> simp [operand?, endsOperand, beginsOperand]

/-- **Operands are apart exactly where their characters are.** -/
theorem isChain_spell_iff {w : List Lexeme} (hwritten : ∀ l ∈ w, l.IsWritten)
    (hseparate : SeparateNumbers w) :
    ((spell w).IsChain fun c d => ¬ Juxtaposed c d) ↔ ApartOperands w := by
  induction w with
  | nil => simp [ApartOperands]
  | cons l w ih =>
    rw [List.forall_mem_cons] at hwritten
    obtain ⟨hnext, hlater⟩ := List.isChain_cons.1 hseparate
    rw [spell_cons, List.isChain_append, ih hwritten.2 hlater]
    cases w with
    | nil => simp [ApartOperands, hwritten.1.isChain_chars]
    | cons m w =>
      have hfirst := hwritten.1
      obtain ⟨hsecond, -⟩ := List.forall_mem_cons.1 hwritten.2
      obtain ⟨cs, c, hend⟩ := List.eq_nil_or_concat' l.chars |>.resolve_left hfirst.chars_ne_nil
      obtain ⟨d, ds, hbegin⟩ := List.exists_cons_of_ne_nil hsecond.chars_ne_nil
      have hplace := juxtaposed_iff (c := c) (d := d) hfirst hsecond (by simp [hend])
        (by simp [hbegin])
      have hnumbers : ¬ (l.operand? ≠ none ∧ m.operand? ≠ none) := by
        simpa [imp_iff_not_or] using hnext m rfl
      rw [and_iff_left hnumbers] at hplace
      have hcons : ApartOperands (l :: m :: w) ↔ _ ∧ ApartOperands (m :: w) :=
        List.isChain_cons_cons
      rw [and_iff_right hfirst.isChain_chars, hcons, ← hplace, and_comm]
      simp [hend, hbegin]

end Characters

/-! ### Texts with a value -/

/-- A text with a value is a sentence exactly if no operands are juxtaposed in it. -/
theorem isInfix_iff_of_evaluate {text : String} {x : Binary64} (h : evaluate text = .ok x) :
    IsInfix (removeWhiteSpace text) ↔
      (removeWhiteSpace text).toList.IsChain fun c d => ¬ Juxtaposed c d := by
  constructor
  · rintro ⟨e, w, hderives, htext⟩
    have hapart := hderives.apartOperands
    rw [← htext, isChain_spell_iff hderives.isWritten hapart.separateNumbers]
    exact hapart
  · intro hchain
    obtain ⟨tokens, htokens, hvalue⟩ := evaluate_eq_ok_iff.1 h
    obtain ⟨w, htext, hwritten, hseparate⟩ := exists_spell (isLexical_of_toPostfix htokens)
    rw [← htext, isChain_spell_iff hwritten hseparate] at hchain
    have hbalanced := isBalanced_of_evaluatePostfix hwritten hseparate htext.symm htokens hvalue
    obtain ⟨e, hderives⟩ := hbalanced.exists_derives hwritten hchain
    exact ⟨e, w, hderives, htext⟩

/-- **Accepted means grammatical unless operands are juxtaposed.** A text that is evaluated, with
or without the check of its characters, or made into work, is a sentence of the grammar exactly
if none of its operands stands directly behind another one. -/
theorem isInfix_iff_of_accepted {text : String}
    (h : (∃ x, evaluateChecked text = .ok x) ∨ (∃ x, evaluate text = .ok x) ∨
      ∃ work, Work.ofText text = .ok work) :
    IsInfix (removeWhiteSpace text) ↔
      (removeWhiteSpace text).toList.IsChain fun c d => ¬ Juxtaposed c d := by
  obtain ⟨x, hvalue⟩ : ∃ x, evaluate text = .ok x := by
    rcases h with ⟨x, hchecked⟩ | hvalue | ⟨work, hwork⟩
    · exact ⟨x, evaluateChecked_eq_ok_iff.1 hchecked⟩
    · exact hvalue
    · obtain ⟨tokens, x, htokens, hvalue, -⟩ := Work.ofText_eq_ok_iff.1 hwork
      exact ⟨x, evaluate_eq_ok_iff.2 ⟨tokens, htokens, hvalue⟩⟩
  exact isInfix_iff_of_evaluate hvalue

/-- A sum with a group is accepted, and a sentence. -/
theorem isInfix_iff_of_accepted_sum :
    (∃ x, evaluateChecked "(2) + 3" = .ok x) ∧ IsInfix (removeWhiteSpace "(2) + 3") := by
  have hvalue : evaluateChecked "(2) + 3" = .ok (.ofCode false 0x4014000000000000) := by
    decide +kernel
  exact ⟨⟨_, hvalue⟩, (isInfix_iff_of_accepted (.inl ⟨_, hvalue⟩)).2 (by decide +kernel)⟩

/-- Two groups and a last operator are accepted as a sum by every way of evaluation, although
they are no sentence. -/
theorem juxtaposed_groups_are_accepted :
    evaluateChecked "(2)(3)+" = .ok (.ofCode false 0x4014000000000000) ∧
      evaluate "(2)(3)+" = .ok (.ofCode false 0x4014000000000000) ∧
      Work.ofText "(2)(3)+" = .ok (.binary "2" .add "3") ∧
      ¬ IsInfix (removeWhiteSpace "(2)(3)+") := by
  have hvalue : evaluate "(2)(3)+" = .ok (.ofCode false 0x4014000000000000) := by
    decide +kernel
  refine ⟨evaluateChecked_eq_ok_iff.2 hvalue, hvalue, by decide +kernel, fun hinfix => ?_⟩
  exact absurd ((isInfix_iff_of_evaluate hvalue).1 hinfix) (by decide +kernel)

end ArithService
