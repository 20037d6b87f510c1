import Mathlib
import ArithService.Proofs.Text.Digits
import ArithService.Database.Row

/-!
# Texts without zero characters

A text is read back up to its first zero character. Texts without one are read back whole.

## Main Definitions

* `IsZeroFree` — a text without zero characters
-/

namespace ArithService

/-- A text without zero characters. -/
def IsZeroFree (text : String) : Prop := ∀ c ∈ text.toList, c.toNat ≠ 0

/-- Texts without zero characters are closed under appending; texts are put together from such
parts. -/
theorem IsZeroFree.append {a b : String} (ha : IsZeroFree a) (hb : IsZeroFree b) :
    IsZeroFree (a ++ b) := by
  intro c hc
  rw [String.toList_append, List.mem_append] at hc
  exact hc.elim (ha c) (hb c)

/-- A text without zero characters is read back whole. -/
@[simp] theorem IsZeroFree.textRead {text : String} (h : IsZeroFree text) :
    textRead text = text := by
  have hall : text.toList.takeWhile (fun c => c.toNat ≠ 0) = text.toList :=
    List.takeWhile_eq_self_iff.2 fun c hc => by simpa using h c hc
  rw [ArithService.textRead, hall, String.ofList_toList]

/-- A digit is not the zero character, which is why identifiers and timestamps are read back
whole. -/
theorem toNat_ne_zero_of_isDigit {c : Char} (h : isDigit c = true) : c.toNat ≠ 0 := by
  intro hzero
  have hlow : '0' ≤ c := by
    simp only [isDigit, Bool.and_eq_true, decide_eq_true_eq] at h
    exact h.1
  rw [Char.le_def, UInt32.le_iff_toNat_le] at hlow
  change 48 ≤ c.toNat at hlow
  omega

/-- The digits of a number are digits. -/
theorem isDigit_of_mem_toDigits {n : Nat} {c : Char} (h : c ∈ Nat.toDigits 10 n) :
    isDigit c = true := by
  have hdigit := Nat.isDigit_of_mem_toDigits (by decide) (by decide) h
  simpa [isDigit, Char.isDigit, Char.le_def] using hdigit

/-- Padded numbers consist of digits. -/
theorem isDigit_of_mem_padded {width n : Nat} {c : Char} (h : c ∈ (padded width n).toList) :
    isDigit c = true := by
  simp only [padded, decimal, Nat.toString_eq_repr, String.toList_ofList, Nat.toList_repr,
    List.mem_append] at h
  rcases h with h | h
  · rw [List.eq_of_mem_replicate h]
    decide
  · exact isDigit_of_mem_toDigits h

theorem isZeroFree_padded (width n : Nat) : IsZeroFree (padded width n) := fun _ hc =>
  toNat_ne_zero_of_isDigit (isDigit_of_mem_padded hc)

end ArithService
