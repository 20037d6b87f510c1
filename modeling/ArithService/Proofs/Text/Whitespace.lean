import Mathlib
import ArithService.Text.Digits
import ArithService.Text.Whitespace

/-!
# White space in texts

Taking white space out of a text or off its ends, and what is left.

## Main Definitions

* `IsWhite` — white space only
-/

namespace ArithService

theorem isWhiteSpace_of_isDigit {c : Char} (h : isDigit c = true) : isWhiteSpace c = false := by
  simp only [isDigit, Bool.and_eq_true, decide_eq_true_eq, Char.le_def, UInt32.le_iff_toNat_le] at h
  change 48 ≤ c.toNat ∧ c.toNat ≤ 57 at h
  simp only [isWhiteSpace, Bool.or_eq_false_iff, Bool.and_eq_false_iff, decide_eq_false_iff_not]
  omega

@[simp] theorem toList_removeWhiteSpace (text : String) :
    (removeWhiteSpace text).toList = text.toList.filter fun c => !isWhiteSpace c :=
  String.toList_ofList

/-- There is no white space left to take out. -/
@[simp] theorem removeWhiteSpace_removeWhiteSpace (text : String) :
    removeWhiteSpace (removeWhiteSpace text) = removeWhiteSpace text := by
  rw [removeWhiteSpace, toList_removeWhiteSpace, List.filter_filter]
  simp [removeWhiteSpace]

/-- A text is blank when nothing is left of it. -/
theorem isBlank_iff {text : String} : isBlank text = true ↔ removeWhiteSpace text = "" := by
  rw [← String.toList_inj, toList_removeWhiteSpace]
  simp [isBlank]

/-! ### The ends of a text -/

/-- White space only. -/
def IsWhite (cs : List Char) : Prop := ∀ c ∈ cs, isWhiteSpace c = true

theorem isWhite_nil : IsWhite [] := by simp [IsWhite]

theorem IsWhite.append {a b : List Char} (ha : IsWhite a) (hb : IsWhite b) : IsWhite (a ++ b) :=
  fun c hc => (List.mem_append.1 hc).elim (ha c) (hb c)

theorem IsWhite.reverse {cs : List Char} (h : IsWhite cs) : IsWhite cs.reverse :=
  fun c hc => h c (List.mem_reverse.1 hc)

theorem isWhite_takeWhile (cs : List Char) : IsWhite (cs.takeWhile isWhiteSpace) :=
  fun _ hc => List.mem_takeWhile_imp hc

/-- White space in front is left out, as much of it as there is. -/
theorem trimLeft_append {before : List Char} (h : IsWhite before) (cs : List Char) :
    trimLeft (before ++ cs) = trimLeft cs := by
  rw [trimLeft, List.dropWhile_append_of_pos h]
  rfl

/-- Nothing is left out in front of another character. -/
theorem trimLeft_eq_self {cs : List Char} (h : ∀ c ∈ cs.head?, isWhiteSpace c = false) :
    trimLeft cs = cs := by
  cases cs with
  | nil => rfl
  | cons c cs => rw [trimLeft, List.dropWhile_cons, h c rfl]; rfl

/-- White space at both ends is left out, and nothing else. What is in between may have white space
of its own. -/
theorem trimChars_append {before cs after : List Char} (hbefore : IsWhite before)
    (hafter : IsWhite after) (hfirst : ∀ c ∈ cs.head?, isWhiteSpace c = false)
    (hlast : ∀ c ∈ cs.getLast?, isWhiteSpace c = false) :
    trimChars (before ++ cs ++ after) = cs := by
  have hfront : trimLeft (before ++ cs ++ after) = trimLeft (cs ++ after) := by
    rw [List.append_assoc, trimLeft_append hbefore]
  have hend : trimLeft (after.reverse ++ cs.reverse) = cs.reverse := by
    rw [trimLeft_append hafter.reverse, trimLeft_eq_self (by rwa [List.head?_reverse])]
  cases cs with
  | nil =>
    have hnone : trimLeft after = [] := by
      rw [← List.append_nil after, trimLeft_append hafter]
      rfl
    rw [trimChars, hfront, List.nil_append, hnone]
    rfl
  | cons c cs =>
    have hwhole : trimLeft (c :: cs ++ after) = c :: cs ++ after :=
      trimLeft_eq_self (by simpa using hfirst)
    rw [trimChars, hfront, hwhole, List.reverse_append, hend, List.reverse_reverse]

/-- What is left out behind a text is white space. -/
theorem exists_trimLeft_eq (cs : List Char) :
    ∃ after, IsWhite after ∧ trimLeft cs = trimChars cs ++ after := by
  refine ⟨((trimLeft cs).reverse.takeWhile isWhiteSpace).reverse,
    (isWhite_takeWhile _).reverse, ?_⟩
  rw [trimChars, ← List.reverse_append]
  show trimLeft cs = ((trimLeft cs).reverse.takeWhile isWhiteSpace ++
    (trimLeft cs).reverse.dropWhile isWhiteSpace).reverse
  rw [List.takeWhile_append_dropWhile, List.reverse_reverse]

/-- What is left out at both ends is white space. This is how facts about a text are carried over to
what is left of it, and back. -/
theorem exists_trimChars_eq (cs : List Char) :
    ∃ before after, IsWhite before ∧ IsWhite after ∧ cs = before ++ trimChars cs ++ after := by
  obtain ⟨after, hafter, htrim⟩ := exists_trimLeft_eq cs
  refine ⟨cs.takeWhile isWhiteSpace, after, isWhite_takeWhile cs, hafter, ?_⟩
  rw [List.append_assoc, ← htrim]
  exact List.takeWhile_append_dropWhile.symm

theorem not_isWhiteSpace_of_mem_head?_trimLeft {cs : List Char} {c : Char}
    (h : c ∈ (trimLeft cs).head?) : isWhiteSpace c = false := by
  have hfirst := List.head?_dropWhile_not isWhiteSpace cs
  rw [trimLeft, Option.mem_def] at h
  rw [h] at hfirst
  simpa using hfirst

/-- Nothing is left to be left out, so it makes no difference how often a value is trimmed on its
way. -/
theorem trimChars_trimChars (cs : List Char) : trimChars (trimChars cs) = trimChars cs := by
  have hfirst : ∀ c ∈ (trimChars cs).head?, isWhiteSpace c = false := by
    intro c hc
    obtain ⟨after, -, htrim⟩ := exists_trimLeft_eq cs
    refine @not_isWhiteSpace_of_mem_head?_trimLeft cs c ?_
    rw [htrim, Option.mem_def, List.head?_append, Option.mem_def.1 hc]
    rfl
  have hlast : ∀ c ∈ (trimChars cs).getLast?, isWhiteSpace c = false := by
    intro c hc
    rw [trimChars, List.getLast?_reverse] at hc
    exact not_isWhiteSpace_of_mem_head?_trimLeft hc
  have hwhole := trimChars_append isWhite_nil isWhite_nil hfirst hlast
  rwa [List.nil_append, List.append_nil] at hwhole

@[simp] theorem trim_trim (text : String) : trim (trim text) = trim text := by
  rw [trim, trim, String.toList_ofList, trimChars_trimChars]

end ArithService
