import Mathlib
import ArithService.Expression.Evaluate

/-!
# The grammar of infix texts

Expressions as trees, and the infix texts that stand for them.

## Main Definitions

* `Expression` — an arithmetic expression as a tree, with its `postorder` and its value
* `Lexeme`, `spell` — the parts of an infix text, and the text without white space
* `Derives` — the sentences of the grammar, with the tree that each stands for
* `Shows` — a text in which lexemes may have white space between them
* `IsInfix` — a text that is a sentence of the grammar

## Design Notes

The grammar has sums of products of factors, and both kinds of operations group to the left:

    expression = term   (("+" | "-") term)*
    term       = factor (("*" | "/") factor)*
    factor     = operand | "(" expression ")"

`Derives` is one relation with the phrase as an index rather than three mutual ones, so that
`induction` works on it. A sentence is a list of lexemes; the characters come in with `spell`.
-/

namespace ArithService

/-! ### Expressions -/

/-- An arithmetic expression. An operand is kept as it was written. -/
inductive Expression where
  | operand (text : String)
  | operation (o : Operator) (left right : Expression)
deriving DecidableEq, Repr

namespace Expression

/-- The tokens of an expression, operands before their operator. -/
def postorder : Expression → Postfix
  | operand text => [.number text]
  | operation o left right => left.postorder ++ right.postorder ++ [.operator o]

/-- The value of an expression: the left side, then the right side, then the operation. The
first of these that fails decides the error. -/
def value : Expression → Except ExpressionError Binary64
  | operand text => readOperand text
  | operation o left right => do
    let a ← left.value
    let b ← right.value
    o.apply a b

end Expression

/-! ### Lexemes -/

/-- A part of an infix text. -/
inductive Lexeme where
  | operand (text : String)
  | operator (o : Operator)
  | opening
  | closing
deriving DecidableEq, Repr

namespace Lexeme

/-- The characters of a lexeme. -/
def chars : Lexeme → List Char
  | operand text => text.toList
  | operator o => [o.symbol]
  | opening => ['(']
  | closing => [')']

/-- The text of an operand. -/
def operand? : Lexeme → Option String
  | operand text => some text
  | _ => none

/-- Whether a lexeme can end an operand: a number or a closing parenthesis. -/
def endsOperand : Lexeme → Bool
  | operand _ => true
  | closing => true
  | _ => false

/-- Whether a lexeme can begin an operand: a number or an opening parenthesis. -/
def beginsOperand : Lexeme → Bool
  | operand _ => true
  | opening => true
  | _ => false

end Lexeme

/-- Lexemes written one after the other. -/
def spell (w : List Lexeme) : List Char := w.flatMap Lexeme.chars

@[simp] theorem spell_nil : spell [] = [] := rfl

@[simp] theorem spell_cons (l : Lexeme) (w : List Lexeme) : spell (l :: w) = l.chars ++ spell w :=
  rfl

@[simp] theorem spell_append (u w : List Lexeme) : spell (u ++ w) = spell u ++ spell w :=
  List.flatMap_append

/-- A number as it is written: digits and dots, and at least one of them. -/
def IsOperandText (text : String) : Prop :=
  text.toList ≠ [] ∧ ∀ c ∈ text.toList, isOperandChar c = true

/-- Operands are written with digits and dots. -/
def Lexeme.IsWritten (l : Lexeme) : Prop := ∀ text, l = .operand text → IsOperandText text

/-- No operand stands directly behind another one. -/
def ApartOperands (w : List Lexeme) : Prop :=
  w.IsChain fun l m => ¬ (l.endsOperand ∧ m.beginsOperand)

/-- Numbers are as long as possible: none stands directly behind another one. -/
def SeparateNumbers (w : List Lexeme) : Prop :=
  w.IsChain fun l m => l.operand? = none ∨ m.operand? = none

/-- Numbers are operands, so where operands are apart numbers are separate. -/
theorem ApartOperands.separateNumbers {w : List Lexeme} (h : ApartOperands w) :
    SeparateNumbers w := by
  refine h.imp fun l m hapart => ?_
  cases l <;> cases m <;> simp_all [Lexeme.operand?, Lexeme.endsOperand, Lexeme.beginsOperand]

/-! ### Sentences -/

/-- The phrases of the grammar. -/
inductive Phrase where
  | expression
  | term
  | factor
deriving DecidableEq, Repr

/-- The sentences of each phrase, with the expression that a sentence stands for. -/
inductive Derives : Phrase → Expression → List Lexeme → Prop where
  | operand {text : String} (htext : IsOperandText text) :
      Derives .factor (.operand text) [.operand text]
  | group {e : Expression} {w : List Lexeme} (h : Derives .expression e w) :
      Derives .factor e (.opening :: (w ++ [.closing]))
  | factor {e : Expression} {w : List Lexeme} (h : Derives .factor e w) : Derives .term e w
  | product {o : Operator} {a b : Expression} {u w : List Lexeme} (ho : o = .mul ∨ o = .div)
      (hleft : Derives .term a u) (hright : Derives .factor b w) :
      Derives .term (.operation o a b) (u ++ .operator o :: w)
  | term {e : Expression} {w : List Lexeme} (h : Derives .term e w) : Derives .expression e w
  | sum {o : Operator} {a b : Expression} {u w : List Lexeme} (ho : o = .add ∨ o = .sub)
      (hleft : Derives .expression a u) (hright : Derives .term b w) :
      Derives .expression (.operation o a b) (u ++ .operator o :: w)

/-- A text that shows lexemes in order, with any white space before, between and behind them. -/
inductive Shows : List Lexeme → List Char → Prop where
  | nil {gap : List Char} (hgap : ∀ c ∈ gap, isWhiteSpace c = true) : Shows [] gap
  | cons {l : Lexeme} {w : List Lexeme} {gap cs : List Char}
      (hgap : ∀ c ∈ gap, isWhiteSpace c = true) (hrest : Shows w cs) :
      Shows (l :: w) (gap ++ l.chars ++ cs)

/-- A text that is a sentence of the grammar, without any white space. -/
def IsInfix (text : String) : Prop := ∃ e w, Derives .expression e w ∧ spell w = text.toList

/-! ### Properties of sentences -/

section Sentences

variable {p : Phrase} {e : Expression} {w : List Lexeme}

theorem isWritten_operator {u v : List Lexeme} {o : Operator} (hu : ∀ l ∈ u, l.IsWritten)
    (hv : ∀ l ∈ v, l.IsWritten) : ∀ l ∈ u ++ .operator o :: v, l.IsWritten :=
  List.forall_mem_append.2 ⟨hu, List.forall_mem_cons.2 ⟨by simp [Lexeme.IsWritten], hv⟩⟩

/-- The operands of a sentence are written with digits and dots, by induction on how it is
derived. -/
theorem Derives.isWritten (h : Derives p e w) : ∀ l ∈ w, l.IsWritten := by
  induction h with
  | operand htext =>
    intro l hl text hoperand
    rw [List.mem_singleton.1 hl, Lexeme.operand.injEq] at hoperand
    exact hoperand ▸ htext
  | group _ ih =>
    refine List.forall_mem_cons.2 ⟨by simp [Lexeme.IsWritten], List.forall_mem_append.2 ⟨ih, ?_⟩⟩
    simp [Lexeme.IsWritten]
  | factor _ ih => exact ih
  | term _ ih => exact ih
  | product _ _ _ ihLeft ihRight => exact isWritten_operator ihLeft ihRight
  | sum _ _ _ ihLeft ihRight => exact isWritten_operator ihLeft ihRight

theorem apartOperands_operator {u v : List Lexeme} {o : Operator} (hu : ApartOperands u)
    (hv : ApartOperands v) : ApartOperands (u ++ .operator o :: v) :=
  List.isChain_append.2 ⟨hu, List.isChain_cons.2 ⟨by simp [Lexeme.endsOperand], hv⟩,
    by simp [Lexeme.beginsOperand]⟩

/-- In a sentence no operand stands directly behind another one. This is the only property of
sentences that the conversion and the evaluation do not ask for. -/
theorem Derives.apartOperands (h : Derives p e w) : ApartOperands w := by
  induction h with
  | operand _ => exact List.isChain_singleton _
  | group _ ih =>
    refine List.isChain_cons.2 ⟨by simp [Lexeme.endsOperand], List.isChain_append.2 ⟨ih, ?_, ?_⟩⟩
    · exact List.isChain_singleton _
    · simp [Lexeme.beginsOperand]
  | factor _ ih => exact ih
  | term _ ih => exact ih
  | product _ _ _ ihLeft ihRight => exact apartOperands_operator ihLeft ihRight
  | sum _ _ _ ihLeft ihRight => exact apartOperands_operator ihLeft ihRight

/-- Any operator and a factor behind an expression make an expression again: a product takes
the last term of a sum for its left side. -/
theorem Derives.append_factor (h : Derives .expression e w) (o : Operator) {b : Expression}
    {v : List Lexeme} (hright : Derives .factor b v) :
    ∃ e', Derives .expression e' (w ++ .operator o :: v) := by
  have hoperator : (o = .mul ∨ o = .div) ∨ (o = .add ∨ o = .sub) := by cases o <;> simp
  rcases hoperator with hproduct | hsum
  · cases h with
    | term hleft => exact ⟨_, .term (.product hproduct hleft hright)⟩
    | sum ho hleft hlast =>
      rw [List.append_assoc, List.cons_append]
      exact ⟨_, .sum ho hleft (.product hproduct hlast hright)⟩
  · exact ⟨_, .sum hsum h (.factor hright)⟩

end Sentences

end ArithService
