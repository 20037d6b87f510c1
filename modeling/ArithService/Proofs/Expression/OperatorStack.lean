import Mathlib
import ArithService.Proofs.Expression.Stages

/-!
# The operator stack

At every stage of the conversion, an operator on the stack stands on a weaker one, on an open
parenthesis or at the bottom. So the stack is never much higher than the number of open
parentheses, and an operator only makes room for one that binds at most as tightly.

## Main Definitions

* `Pending.precedence`, `Pending.RestsOn` — what may stand on what
* `IsLayered` — a stack on which every entry may stand on the next
* `Stage.HasRead` — a stage whose activity is due to the last character that was read

## Design Notes

Popping takes the top away, so it keeps any condition on neighbours; only pushing can break it.
That is why the invariant is a chain of neighbours (`Stage.Turn.isLayered`). The statement about
whole segments follows from the chain by cutting the stack at its parentheses
(`segment_induction`).
-/

namespace ArithService

/-- Binding strength of an entry. A parenthesis is never compared with anything. -/
def Pending.precedence : Pending → Nat
  | .group => 0
  | .operator o => o.precedence

/-- Whether an entry may stand directly on another one: an operator only on a weaker operator. -/
def Pending.RestsOn : Pending → Pending → Prop
  | .operator above, .operator below => below.precedence < above.precedence
  | _, _ => True

/-- A stack on which every entry may stand on the next one. -/
def IsLayered (stack : List Pending) : Prop := stack.IsChain Pending.RestsOn

/-- An operator may be put on a stack from which it displaces nothing, which is when the loop that
makes room ends. -/
theorem isLayered_operator_cons {o : Operator} {stack : List Pending} :
    IsLayered (.operator o :: stack) ↔ Scan.WeakTop o.precedence stack ∧ IsLayered stack := by
  rw [IsLayered, List.isChain_cons]
  refine and_congr_left fun _ => ?_
  cases stack with
  | nil => simp [Scan.WeakTop]
  | cons entry below => cases entry <;> simp [Scan.WeakTop, Pending.RestsOn]

theorem IsLayered.group_cons {stack : List Pending} (h : IsLayered stack) :
    IsLayered (.group :: stack) := by
  refine List.isChain_cons.2 ⟨fun entry _ => ?_, h⟩
  cases entry <;> trivial

/-! ### Turns -/

namespace Stage

variable {m n : Stage} {text : String}

/-- **One turn keeps the stack layered.** This is the step of the induction along a path, and it has
to be one for turns: between two characters the stack is only seen after all its moves. Turns that
pop leave the rest of a chain. The turn that pushes an operator asks for a weak top, and this is the
only place where the order of strengths comes in. -/
theorem Turn.isLayered (h : m.Turn n) (hstack : IsLayered m.scan.stack) :
    IsLayered n.scan.stack := by
  cases h with
  | operand _ => exact hstack
  | opening => exact IsLayered.group_cons (by simpa using hstack)
  | closing => simpa using hstack
  | operator _ => simpa using hstack
  | finish => simpa using hstack
  | displace htop _ => exact List.IsChain.tail (htop ▸ hstack)
  | place hweak => exact isLayered_operator_cons.2 ⟨hweak, hstack⟩
  | unwind htop => exact List.IsChain.tail (htop ▸ hstack)
  | close htop => exact List.IsChain.tail (htop ▸ hstack)
  | drain htop => exact List.IsChain.tail (htop ▸ hstack)

/-- The last character that was read is the one that a stage's activity is due to. -/
def HasRead (text : List Char) (m : Stage) : Prop :=
  match m.activity with
  | .reading => ∃ before, text = before ++ m.rest
  | .displacing o => ∃ before, text = before ++ o.symbol :: m.rest
  | .closing => ∃ before, text = before ++ ')' :: m.rest
  | .draining => m.rest = []

/-- One turn reads one character at most, and goes on with what it is due to. An operator in the
middle of making room is therefore still the last character that was read. -/
theorem Turn.hasRead {cs : List Char} (h : m.Turn n) (hread : m.HasRead cs) : n.HasRead cs := by
  cases h with
  | @operand c _ _ _ =>
    obtain ⟨before, htext⟩ := hread
    exact ⟨before ++ [c], by simpa using htext⟩
  | opening =>
    obtain ⟨before, htext⟩ := hread
    exact ⟨before ++ ['('], by simpa using htext⟩
  | closing => exact hread
  | operator hoperator =>
    obtain rfl := Operator.symbol_of_ofChar? hoperator
    exact hread
  | finish => rfl
  | displace _ _ => exact hread
  | @place o _ _ _ =>
    obtain ⟨before, htext⟩ := hread
    exact ⟨before ++ [o.symbol], by simpa using htext⟩
  | unwind _ => exact hread
  | close _ =>
    obtain ⟨before, htext⟩ := hread
    exact ⟨before ++ [')'], by simpa using htext⟩
  | drain _ => exact hread

/-- A turn that emits an operator does so at the end of the text, for a closing parenthesis, or for
an operator that binds at most as tightly. -/
theorem Turn.activity_of_emits {top : Operator} (h : m.Turn n)
    (hemits : n.scan.output = .operator top :: m.scan.output) :
    m.activity = .draining ∨ m.activity = .closing ∨
      ∃ o, m.activity = .displacing o ∧ o.precedence ≤ top.precedence := by
  -- Reading a character emits the number before it at most, and that is no operator.
  have hflush : ∀ s : Scan, s.flush.output ≠ .operator top :: s.output := by
    intro s houtput
    unfold Scan.flush at houtput
    split_ifs at houtput <;> simp at houtput
  cases h with
  | operand _ => simp at hemits
  | opening => exact absurd hemits (hflush _)
  | closing => exact absurd hemits (hflush _)
  | operator _ => exact absurd hemits (hflush _)
  | finish => exact absurd hemits (hflush _)
  | @displace o popped _ _ _ _ htop =>
    obtain rfl : popped = top := by simpa [Scan.pop] using hemits
    exact .inr (.inr ⟨o, rfl, htop⟩)
  | place _ => simp at hemits
  | unwind _ => exact .inr (.inl rfl)
  | close _ => simp at hemits
  | drain _ => exact .inl rfl

end Stage

/-- **At every stage the stack is layered**, by induction along the path to the stage, from the
empty stack on. -/
theorem Passes.isLayered {text : String} {m : Stage} (h : Passes text m) :
    IsLayered m.scan.stack := by
  induction h with
  | refl => exact .nil
  | tail _ hturn ih => exact hturn.isLayered ih

theorem Passes.hasRead {text : String} {m : Stage} (h : Passes text m) :
    m.HasRead text.toList := by
  induction h with
  | refl => exact ⟨[], rfl⟩
  | tail _ hturn ih => exact hturn.hasRead ih

/-! ### Segments -/

/-- What holds of operators alone, and of operators on a parenthesis on a stack of which it holds,
holds of every stack. Statements about segments are proved by this. -/
theorem segment_induction {P : List Pending → Prop}
    (operators : ∀ ops : List Operator, P (ops.map .operator))
    (group : ∀ (ops : List Operator) rest, P rest → P (ops.map .operator ++ .group :: rest))
    (stack : List Pending) : P stack := by
  induction hlength : stack.length using Nat.strong_induction_on generalizing stack with
  | _ length ih =>
    obtain ⟨ops, rfl | ⟨rest, rfl⟩⟩ := Scan.exists_segment stack
    · exact operators ops
    · refine group ops rest (ih rest.length ?_ rest rfl)
      rw [← hlength, List.length_append, List.length_cons]
      omega

theorem group_not_mem_operators (ops : List Operator) : .group ∉ ops.map Pending.operator := by
  simp

/-- There are two strengths, and so no three operators of which each is stronger than the next. -/
theorem length_le_two {ops : List Operator}
    (h : ops.Pairwise fun above below => below.precedence < above.precedence) :
    ops.length ≤ 2 := by
  have hbounds : ∀ o : Operator, 1 ≤ o.precedence ∧ o.precedence ≤ 2 := by
    intro o
    cases o <;> decide
  match ops, h with
  | [], _ => exact Nat.zero_le 2
  | [_], _ => exact Nat.le_succ 1
  | [_, _], _ => exact le_rfl
  | a :: b :: c :: _, h =>
    have hab := List.rel_of_pairwise_cons h (List.mem_cons_self)
    have hbc := List.rel_of_pairwise_cons h.of_cons (List.mem_cons_self)
    have ha := (hbounds a).2
    have hc := (hbounds c).1
    omega

/-- Layered operators bind more tightly the higher they stand: among operators only, a chain of
neighbours is an order. -/
theorem IsLayered.pairwise {ops : List Operator} (h : IsLayered (ops.map .operator)) :
    ops.Pairwise fun above below => below.precedence < above.precedence :=
  List.isChain_iff_pairwise.1 ((List.isChain_map _).1 h)

/-- The operators on a parenthesis are layered, and so is what stands under it. Across a parenthesis
nothing is said, as nothing is compared with one. -/
theorem IsLayered.cut {ops : List Operator} {rest : List Pending}
    (h : IsLayered (ops.map .operator ++ .group :: rest)) :
    IsLayered (ops.map .operator) ∧ IsLayered rest :=
  ⟨List.IsChain.left_of_append h, (List.IsChain.right_of_append h).tail⟩

/-- **Segments.** Between two parentheses of a layered stack strengths increase from bottom to top,
and so there are two operators at most. -/
theorem IsLayered.segment {stack : List Pending} (h : IsLayered stack) :
    ∀ segment ∈ stack.splitOn .group,
      segment.Pairwise (fun above below => below.precedence < above.precedence) ∧
        segment.length ≤ 2 := by
  have hoperators : ∀ ops : List Operator, IsLayered (ops.map .operator) →
      (ops.map Pending.operator).Pairwise
          (fun above below => below.precedence < above.precedence) ∧
        (ops.map Pending.operator).length ≤ 2 := by
    intro ops hlayered
    have hpairwise := hlayered.pairwise
    exact ⟨List.pairwise_map.2 hpairwise, by simpa using length_le_two hpairwise⟩
  induction stack using segment_induction with
  | operators ops =>
    rw [List.splitOn_eq_singleton (group_not_mem_operators ops), List.forall_mem_singleton]
    exact hoperators ops h
  | group ops rest ih =>
    obtain ⟨htop, hrest⟩ := h.cut
    rw [List.splitOn_append_cons_self_of_not_mem (group_not_mem_operators ops),
      List.forall_mem_cons]
    exact ⟨hoperators ops htop, ih hrest⟩

/-- **Height.** A layered stack has two operators for every open parenthesis at most, and two more
at the bottom. -/
theorem IsLayered.countP_le {stack : List Pending} (h : IsLayered stack) :
    stack.countP (· ≠ .group) ≤ 2 * stack.count .group + 2 := by
  have hall : ∀ ops : List Operator,
      (ops.map Pending.operator).countP (· ≠ .group) = ops.length := by
    intro ops
    simp [List.countP_map]
  have hnone : ∀ ops : List Operator, (ops.map Pending.operator).count .group = 0 :=
    fun ops => List.count_eq_zero.2 (group_not_mem_operators ops)
  induction stack using segment_induction with
  | operators ops =>
    rw [hall, hnone]
    exact length_le_two h.pairwise
  | group ops rest ih =>
    obtain ⟨htop, hrest⟩ := h.cut
    have hupper := length_le_two htop.pairwise
    have hlower := ih hrest
    rw [List.countP_append, hall, List.count_append, hnone, List.count_cons_self,
      List.countP_cons_of_neg (by simp)]
    omega

/-! ### The conversion -/

/-- **The operator stack.** The turns of the conversion of a text pass through the states between
two characters and end with its answer. At every stage on the way, strengths increase from bottom
to top between two parentheses on the stack and above the last one, so that there are two
operators at most in each place and two for every open parenthesis and two more on the whole stack.
An operator that is emitted before the end of the text gives way to a closing parenthesis, or to
an operator that binds at most as tightly, which is the character that was read last. -/
theorem operator_stack_is_layered (text : String) :
    (Stage.start text).EndsWith (toPostfix text) ∧
      (∀ before after s, text.toList = before ++ after → before.foldlM Scan.step {} = .ok s →
        Passes text ⟨after, .reading, s⟩) ∧
      ∀ m, Passes text m →
        (∀ segment ∈ m.scan.stack.splitOn .group,
          segment.Pairwise (fun above below => below.precedence < above.precedence) ∧
            segment.length ≤ 2) ∧
          m.scan.stack.countP (· ≠ .group) ≤ 2 * m.scan.stack.count .group + 2 ∧
          ∀ n top, m.Turn n → n.scan.output = .operator top :: m.scan.output →
            (m.activity = .draining ∧ m.rest = []) ∨
              ∃ before c, text.toList = before ++ c :: m.rest ∧
                (c = ')' ∨ ∃ o : Operator, c = o.symbol ∧ o.precedence ≤ top.precedence) := by
  refine ⟨endsWith_toPostfix text, fun _ _ _ => passes_of_foldlM, fun m hpasses => ?_⟩
  have hlayered := hpasses.isLayered
  refine ⟨hlayered.segment, hlayered.countP_le, fun n top hturn hemits => ?_⟩
  have hread := hpasses.hasRead
  unfold Stage.HasRead at hread
  rcases hturn.activity_of_emits hemits with hend | hclosing | ⟨o, hoperator, htop⟩
  · rw [hend] at hread
    exact .inl ⟨hend, hread⟩
  · rw [hclosing] at hread
    obtain ⟨before, htext⟩ := hread
    exact .inr ⟨before, ')', htext, .inl rfl⟩
  · rw [hoperator] at hread
    obtain ⟨before, htext⟩ := hread
    exact .inr ⟨before, o.symbol, htext, .inr ⟨o, rfl, htop⟩⟩

/-- Behind the factor of a product within a group there are two operators on the group and one under
it, and the product gives way to the minus that follows. -/
theorem operator_stack_is_layered_product :
    Passes "1-(2+3*4-5)" ⟨['-', '5', ')'], .reading, ⟨['4'],
        [.number "3", .number "2", .number "1"],
        [.operator .mul, .operator .add, .group, .operator .sub]⟩⟩ ∧
      (∀ segment ∈
          [Pending.operator .mul, .operator .add, .group, .operator .sub].splitOn .group,
        segment.Pairwise (fun above below => below.precedence < above.precedence) ∧
          segment.length ≤ 2) ∧
      ∃ before c, "1-(2+3*4-5)".toList = before ++ c :: ['5', ')'] ∧
        (c = ')' ∨ ∃ o : Operator, c = o.symbol ∧ o.precedence ≤ Operator.mul.precedence) := by
  obtain ⟨-, hstates, hstages⟩ := operator_stack_is_layered "1-(2+3*4-5)"
  have hpasses : Passes _ _ := hstates ['1', '-', '(', '2', '+', '3', '*', '4'] ['-', '5', ')']
    ⟨['4'], [.number "3", .number "2", .number "1"],
      [.operator .mul, .operator .add, .group, .operator .sub]⟩ (by decide +kernel)
    (by decide +kernel)
  have hminus : Passes "1-(2+3*4-5)" ⟨['5', ')'], .displacing .sub, _⟩ :=
    hpasses.tail (.operator rfl)
  have hemits := (hstages _ hminus).2.2 _ .mul (.displace rfl (by decide)) rfl
  exact ⟨hpasses, (hstages _ hpasses).1, hemits.resolve_left fun hend => nomatch hend.1⟩

end ArithService
