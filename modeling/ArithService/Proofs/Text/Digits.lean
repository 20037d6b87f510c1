import Mathlib
import ArithService.Text.Digits

/-!
# Numbers of fixed width

Numbers written with the same number of digits are ordered as their texts, and the digits
give the number back.

## Main Definitions

* `fixedDigits` — the last digits of a number, most significant first

## Design Notes

`padded` counts the digits it has and fills up with zeros, which is awkward in an induction.
`fixedDigits` takes one digit off the end at a time instead, and `toList_padded` says that the
two agree on every number that fits. All facts below are proved on `fixedDigits`.
-/

namespace ArithService

/-- The last `width` digits of a number, most significant first. -/
def fixedDigits : Nat → Nat → List Char
  | 0, _ => []
  | width + 1, n => fixedDigits width (n / 10) ++ [Nat.digitChar (n % 10)]

/-! ### Single digits -/

theorem isDigit_digitChar {d : Nat} (hd : d < 10) : isDigit (Nat.digitChar d) = true := by
  interval_cases d <;> decide

theorem digitValue_digitChar {d : Nat} (hd : d < 10) : digitValue (Nat.digitChar d) = d :=
  Nat.toNat_digitChar_sub_48_of_lt_ten hd

/-- Digits are ordered as their values. -/
theorem digitChar_lt_digitChar {d e : Nat} (hd : d < 10) (he : e < 10) :
    Nat.digitChar d < Nat.digitChar e ↔ d < e := by
  rw [Char.lt_def, UInt32.lt_iff_toNat_lt]
  show (Nat.digitChar d).toNat < (Nat.digitChar e).toNat ↔ d < e
  rw [Nat.toNat_digitChar_of_lt_ten hd, Nat.toNat_digitChar_of_lt_ten he]
  omega

/-! ### Fixed width -/

@[simp] theorem length_fixedDigits (width n : Nat) : (fixedDigits width n).length = width := by
  induction width generalizing n with
  | zero => rfl
  | succ width ih => simp [fixedDigits, ih]

theorem isDigit_of_mem_fixedDigits {width n : Nat} {c : Char} (hc : c ∈ fixedDigits width n) :
    isDigit c = true := by
  induction width generalizing n with
  | zero => simp [fixedDigits] at hc
  | succ width ih =>
    rcases List.mem_append.1 hc with hc | hc
    · exact ih hc
    · rw [List.mem_singleton.1 hc]
      exact isDigit_digitChar (Nat.mod_lt _ (by decide))

theorem fixedDigits_zero (width : Nat) : fixedDigits width 0 = List.replicate width '0' := by
  induction width with
  | zero => rfl
  | succ width ih => simp [fixedDigits, ih, List.replicate_succ', Nat.digitChar]

theorem digitsValue_append_singleton (ds : List Char) (c : Char) :
    digitsValue (ds ++ [c]) = 10 * digitsValue ds + digitValue c := by
  simp [digitsValue]

/-- The digits of a number that fits give the number back, so nothing is lost in a text of fixed
width. -/
theorem digitsValue_fixedDigits {width n : Nat} (hn : n < 10 ^ width) :
    digitsValue (fixedDigits width n) = n := by
  induction width generalizing n with
  | zero =>
    have : n = 0 := by simpa using hn
    simp [this, fixedDigits, digitsValue]
  | succ width ih =>
    have hrest : n / 10 < 10 ^ width := by rw [pow_succ] at hn; omega
    rw [fixedDigits, digitsValue_append_singleton, ih hrest,
      digitValue_digitChar (Nat.mod_lt _ (by decide))]
    omega

/-! ### Order -/

/-- Texts that start with parts of the same length are ordered by these parts first. Identifiers
have their stem in common, and times their fields. -/
theorem append_lt_append_iff {a b x y : List Char} (hlen : a.length = b.length) :
    a ++ x < b ++ y ↔ a < b ∨ (a = b ∧ x < y) := by
  induction a generalizing b with
  | nil =>
    have : b = [] := List.length_eq_zero_iff.1 hlen.symm
    simp [this]
  | cons c a ih =>
    cases b with
    | nil => simp at hlen
    | cons d b =>
      have hlen : a.length = b.length := by simpa using hlen
      simp only [List.cons_append, List.cons_lt_cons_iff, ih hlen, List.cons.injEq]
      tauto

/-- **Numbers of one width are ordered as their digits.** By induction on the width, one digit off
the end at a time: the digits before it decide unless they are the same. -/
theorem fixedDigits_lt_iff {width m n : Nat} (hm : m < 10 ^ width) (hn : n < 10 ^ width) :
    fixedDigits width m < fixedDigits width n ↔ m < n := by
  induction width generalizing m n with
  | zero =>
    have hm : m = 0 := by simpa using hm
    have hn : n = 0 := by simpa using hn
    simp [hm, hn, fixedDigits]
  | succ width ih =>
    have hm' : m / 10 < 10 ^ width := by rw [pow_succ] at hm; omega
    have hn' : n / 10 < 10 ^ width := by rw [pow_succ] at hn; omega
    have hlast : [Nat.digitChar (m % 10)] < [Nat.digitChar (n % 10)] ↔ m % 10 < n % 10 := by
      rw [List.cons_lt_cons_iff,
        digitChar_lt_digitChar (Nat.mod_lt _ (by decide)) (Nat.mod_lt _ (by decide))]
      simp
    have hsame : fixedDigits width (m / 10) = fixedDigits width (n / 10) ↔ m / 10 = n / 10 := by
      constructor
      · intro h
        rw [← digitsValue_fixedDigits hm', h, digitsValue_fixedDigits hn']
      · intro h
        rw [h]
    rw [fixedDigits, fixedDigits, append_lt_append_iff (by simp), ih hm' hn', hsame, hlast]
    omega

/-! ### Padded numbers -/

/-- A number that fits is padded to exactly its last digits. -/
theorem toList_padded {width n : Nat} (hpos : 0 < width) (hn : n < 10 ^ width) :
    (padded width n).toList = fixedDigits width n := by
  suffices h : List.replicate (width - (Nat.toDigits 10 n).length) '0' ++ Nat.toDigits 10 n =
      fixedDigits width n by
    simpa [padded, decimal, Nat.toString_eq_repr] using h
  induction width generalizing n with
  | zero => omega
  | succ width ih =>
    by_cases hsmall : n < 10
    · rw [Nat.toDigits_of_lt_base hsmall, fixedDigits, Nat.div_eq_of_lt hsmall,
        Nat.mod_eq_of_lt hsmall, fixedDigits_zero]
      simp
    · have hrest : n / 10 < 10 ^ width := by rw [pow_succ] at hn; omega
      have hpos : 0 < width := by
        by_contra hzero
        have : width = 0 := by omega
        rw [this] at hrest
        omega
      rw [Nat.toDigits_of_base_le (by decide) (by omega), fixedDigits, ← ih hpos hrest]
      simp

/-- A number with exactly `width` digits needs no padding. Identifiers are written without any. -/
theorem toDigits_eq_fixedDigits {width n : Nat} (hpos : 0 < width) (hn : n < 10 ^ width)
    (hbig : 10 ^ (width - 1) ≤ n) : Nat.toDigits 10 n = fixedDigits width n := by
  have hlen : width ≤ (Nat.toDigits 10 n).length := by
    by_contra hshort
    have hle : (Nat.toDigits 10 n).length ≤ width - 1 := by omega
    have hone : 0 < width - 1 := by
      have := Nat.length_toDigits_pos (b := 10) (n := n)
      omega
    have := (Nat.length_toDigits_le_iff (by decide) hone).1 hle
    omega
  rw [← toList_padded hpos hn]
  simp [padded, decimal, Nat.toString_eq_repr, Nat.sub_eq_zero_of_le hlen]

end ArithService
