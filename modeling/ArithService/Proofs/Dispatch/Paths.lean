import Mathlib
import ArithService.Proofs.Expression.Acceptance
import ArithService.Proofs.Wire.Message

/-!
# All ways to a value

A submitted text can be evaluated at once, with or without the check of its characters, or be
made into work that is done in place, by a worker, or by a worker that is told about it in a
message. All ways give the same value.

## Design Notes

Every way is compared with the value of the postfix of the text. Operands are sent as texts of
their own, so the message is only as long as it may be because operands are parts of the text
(`sublist_of_mem_toPostfix`).
-/

namespace ArithService

variable {text id : String} {owner : Int} {created : Instant} {tokens : Postfix}

/-- The numbers of the postfix are parts of the text, so none of them is longer than it. -/
theorem sublist_of_mem_toPostfix (h : toPostfix text = .ok tokens) {part : String}
    (hmem : .number part ∈ tokens) : part.toList.Sublist text.toList := by
  obtain ⟨w, htext, hwritten, hseparate⟩ := exists_spell (isLexical_of_toPostfix h)
  have hnumbers := filterMap_number_of_toPostfix hwritten hseparate htext.symm h
  have hpart : part ∈ w.filterMap Lexeme.operand? := by
    rw [← hnumbers]
    exact List.mem_filterMap.2 ⟨_, hmem, rfl⟩
  obtain ⟨l, hl, hoperand⟩ := List.mem_filterMap.1 hpart
  have hchars : l.chars = part.toList := by
    cases l <;> simp_all [Lexeme.operand?, Lexeme.chars]
  obtain ⟨u, v, rfl⟩ := List.append_of_mem hl
  rw [← htext, spell_append, spell_cons, hchars]
  exact (List.sublist_append_left _ _).trans (List.sublist_append_right _ _)

/-- What a worker is told about a text that was made into work. -/
def submitted (id : String) (owner : Int) (text : String) (work : Work) (created : Instant) :
    Assignment :=
  .ofTask (.fresh id owner text work created)

theorem submitted_binary (left right : String) (o : Operator) :
    submitted id owner text (.binary left o right) created =
      { id, arg1 := left, arg2 := right, operation := o.text } :=
  if_neg o.text_ne_empty

theorem submitted_expression (stripped : String) :
    submitted id owner text (.expression stripped) created = { id, expression := text } := by
  rw [submitted, Assignment.ofTask]
  exact if_pos rfl

/-- A worker computes the value of the postfix, whichever of the two forms of work it is sent. -/
theorem compute_submitted (h : toPostfix (removeWhiteSpace text) = .ok tokens) :
    (submitted id owner text (classify (removeWhiteSpace text) tokens) created).compute =
      evaluatePostfix tokens := by
  unfold classify
  split
  · next left right o =>
    rw [submitted_binary, evaluatePostfix_binary]
    exact if_neg o.text_ne_empty
  · rw [submitted_expression, Assignment.compute, if_pos rfl, evaluate, h]

theorem fitsMessage_empty : FitsMessage "" := by
  simp [FitsMessage, length_textBytes]

theorem Operator.fitsMessage_text (o : Operator) : FitsMessage o.text := by
  cases o <;> simp [FitsMessage, length_textBytes, text, symbol, Char.utf8Size]

/-- Where the text fits a message, what a worker is told about it does so too. -/
theorem fits_submitted (htokens : toPostfix (removeWhiteSpace text) = .ok tokens)
    (htext : FitsMessage text) (hid : FitsMessage id) :
    (submitted id owner text (classify (removeWhiteSpace text) tokens) created).Fits := by
  have hpart : ∀ part, .number part ∈ tokens → FitsMessage part := fun part hmem =>
    htext.of_sublist <| (sublist_of_mem_toPostfix htokens hmem).trans <| by
      rw [toList_removeWhiteSpace]
      exact List.filter_sublist
  unfold classify
  split
  · next left right o =>
    rw [submitted_binary]
    exact ⟨hid, hpart left (by simp), hpart right (by simp), o.fitsMessage_text, fitsMessage_empty⟩
  · rw [submitted_expression]
    exact ⟨hid, fitsMessage_empty, fitsMessage_empty, fitsMessage_empty, htext⟩

/-- A way through work gives the value of the text, if it gives the value of the postfix. Each way
has only this left to show. -/
theorem exists_work_iff_evaluate {x : Binary64} {Gives : Work → Prop}
    (h : ∀ tokens, toPostfix (removeWhiteSpace text) = .ok tokens →
      (Gives (classify (removeWhiteSpace text) tokens) ↔ evaluatePostfix tokens = .ok x)) :
    (∃ work, Work.ofText text = .ok work ∧ Gives work) ↔ evaluate text = .ok x := by
  constructor
  · rintro ⟨work, hwork, hgives⟩
    obtain ⟨tokens, -, htokens, -, rfl⟩ := Work.ofText_eq_ok_iff.1 hwork
    exact evaluate_eq_ok_iff.2 ⟨tokens, htokens, (h tokens htokens).1 hgives⟩
  · intro hevaluate
    obtain ⟨tokens, htokens, hvalue⟩ := evaluate_eq_ok_iff.1 hevaluate
    exact ⟨_, Work.ofText_eq_ok_iff.2 ⟨tokens, x, htokens, hvalue, rfl⟩,
      (h tokens htokens).2 hvalue⟩

/-- **All ways to a value agree.** A text has the same finite value with and without the check
of its characters, as work done in place, and as work done by a worker, also when the worker is
told by message. It is refused as work with the error with which it is refused a value. -/
theorem evaluation_paths_agree (text id : String) (owner : Int) (created : Instant) :
    (∀ x, List.TFAE [
      evaluateChecked text = .ok x,
      evaluate text = .ok x,
      ∃ work, Work.ofText text = .ok work ∧ work.compute = .ok x,
      ∃ work, Work.ofText text = .ok work ∧
        (submitted id owner text work created).compute = .ok x]) ∧
    (FitsMessage text → FitsMessage id → ∀ x, evaluateChecked text = .ok x ↔
      ∃ work, Work.ofText text = .ok work ∧ ∃ m,
        Assignment.format.decode (submitted id owner text work created).encode = some m ∧
          m.compute = .ok x) ∧
    (∀ x, evaluateChecked text = .ok x → x.isFinite = true) ∧
    ∀ e, evaluateChecked text = .error e ↔ Work.ofText text = .error e := by
  refine ⟨fun x => ?paths, fun htext hid x => ?message, fun x h => ?finite,
    fun e => Work.ofText_eq_error_iff.symm⟩
  case paths =>
    tfae_have 1 ↔ 2 := evaluateChecked_eq_ok_iff
    tfae_have 3 ↔ 2 := exists_work_iff_evaluate fun tokens htokens => by
      rw [Work.compute_classify htokens]
    tfae_have 4 ↔ 2 := exists_work_iff_evaluate fun tokens htokens => by
      rw [compute_submitted htokens]
    tfae_finish
  case message =>
    refine evaluateChecked_eq_ok_iff.trans (exists_work_iff_evaluate fun tokens htokens => ?_).symm
    rw [Assignment.decode_encode (fits_submitted htokens htext hid)]
    simp [compute_submitted htokens]
  case finite => exact evaluate_isFinite (evaluateChecked_eq_ok_iff.1 h)

/-- A worker that is told about `6 / 4` by message computes one and a half. -/
theorem evaluation_paths_agree_quotient :
    FitsMessage "6 / 4" ∧ FitsMessage "task_1" ∧ ∃ work, Work.ofText "6 / 4" = .ok work ∧ ∃ m,
      Assignment.format.decode (submitted "task_1" 1 "6 / 4" work ⟨0, 0⟩).encode = some m ∧
        m.compute = .ok (.ofCode false 0x3ff8000000000000) := by
  have htext : FitsMessage "6 / 4" := by simp [FitsMessage, length_textBytes, Char.utf8Size]
  have hid : FitsMessage "task_1" := by simp [FitsMessage, length_textBytes, Char.utf8Size]
  have hvalue : evaluateChecked "6 / 4" = .ok (.ofCode false 0x3ff8000000000000) := by
    decide +kernel
  exact ⟨htext, hid, ((evaluation_paths_agree "6 / 4" "task_1" 1 ⟨0, 0⟩).2.1 htext hid _).1 hvalue⟩

end ArithService
