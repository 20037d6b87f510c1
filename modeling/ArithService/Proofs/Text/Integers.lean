import Mathlib
import ArithService.Proofs.Text.ZeroFree

/-!
# Integers read back

An integer written in decimal is read back as the same integer, with or without a sign, by every
reader whose bounds it keeps.

## Main Definitions

* `IsInt64` — an integer of 64 bits with sign
* `withSign` — a natural number as the integer that its digits stand for behind a sign

## Design Notes

The reader takes one digit at a time and looks at the bounds after each. The total never moves
towards zero, so the bounds hold on the way if they hold at the end (`readDigits_withSign`).
-/

namespace ArithService

/-- An integer of 64 bits with sign. -/
def IsInt64 (n : Int) : Prop := -2 ^ 63 ≤ n ∧ n < 2 ^ 63

instance (n : Int) : Decidable (IsInt64 n) := inferInstanceAs (Decidable (_ ∧ _))

/-- A natural number with a sign. -/
def withSign (negative : Bool) (n : Nat) : Int := if negative then -(n : Int) else n

/-! ### Digits -/

/-- More digits never make a number smaller. -/
theorem le_ofDigitChars (ds : List Char) (total : Nat) : total ≤ Nat.ofDigitChars 10 ds total := by
  induction ds generalizing total with
  | nil => exact le_rfl
  | cons c ds ih =>
    have hnext : total ≤ 10 * total + digitValue c := by omega
    exact hnext.trans (ih _)

/-- Digits are read as the number they stand for, behind the digits that came before. Bounds are
asked of the whole number only, since no beginning of it is farther from zero. -/
theorem readDigits_withSign (negative : Bool) {low high : Int} {ds : List Char} (total : Nat)
    (hdigits : ∀ c ∈ ds, isDigit c = true) (hzero : low ≤ 0 ∧ 0 ≤ high)
    (hbounds : low ≤ withSign negative (Nat.ofDigitChars 10 ds total) ∧
      withSign negative (Nat.ofDigitChars 10 ds total) ≤ high) :
    readDigits negative low high ds (withSign negative total) =
      .ok (withSign negative (Nat.ofDigitChars 10 ds total)) := by
  induction ds generalizing total with
  | nil => rfl
  | cons c ds ih =>
    have hnext : (if negative = true then 10 * withSign negative total - (digitValue c : Int)
        else 10 * withSign negative total + digitValue c) =
        withSign negative (10 * total + digitValue c) := by
      cases negative
      · simp [withSign]
      · simp only [withSign, if_true]
        push_cast
        ring
    have hgrows := le_ofDigitChars ds (10 * total + digitValue c)
    -- What has been read lies between zero and the end, and so within the bounds.
    have hwithin : low ≤ withSign negative (10 * total + digitValue c) ∧
        withSign negative (10 * total + digitValue c) ≤ high := by
      change low ≤ withSign negative (Nat.ofDigitChars 10 ds (10 * total + digitValue c)) ∧
        withSign negative (Nat.ofDigitChars 10 ds (10 * total + digitValue c)) ≤ high at hbounds
      cases negative
      · simp only [withSign, Bool.false_eq_true, if_false] at hbounds ⊢
        omega
      · simp only [withSign, if_true] at hbounds ⊢
        omega
    rw [readDigits, if_pos (hdigits c (by simp))]
    simp only [hnext, if_neg (not_lt.2 hwithin.2), if_neg (not_lt.2 hwithin.1)]
    exact ih _ (fun d hd => hdigits d (by simp [hd])) hbounds

/-- What is read keeps the bounds that the total kept before. -/
theorem bounds_of_readDigits {negative : Bool} {low high n : Int} {ds : List Char} {total : Int}
    (htotal : low ≤ total ∧ total ≤ high) (h : readDigits negative low high ds total = .ok n) :
    low ≤ n ∧ n ≤ high := by
  induction ds generalizing total with
  | nil =>
    obtain rfl := Except.ok.inj h
    exact htotal
  | cons c ds ih =>
    simp only [readDigits] at h
    split_ifs at h with _ hsign hhigh hlow hhigh hlow
    · exact ih ⟨not_lt.1 hlow, not_lt.1 hhigh⟩ h
    · exact ih ⟨not_lt.1 hlow, not_lt.1 hhigh⟩ h

/-! ### Whole texts -/

/-- An integer that is read keeps the bounds of the reader. Callers that go on in 64 bits need not
ask again. -/
theorem bounds_of_readInteger {low high n : Int} {text : String} (hzero : low ≤ 0 ∧ 0 ≤ high)
    (h : readInteger low high text = .ok n) : low ≤ n ∧ n ≤ high := by
  unfold readInteger at h
  split at h
  · cases h
  · cases h
  · cases h
  · exact bounds_of_readDigits hzero h
  · split_ifs at h
    exact bounds_of_readDigits hzero h
  · exact bounds_of_readDigits hzero h

theorem isInt64_of_readInt64 {text : String} {n : Int} (h : readInt64 text = .ok n) :
    IsInt64 n := by
  have hbounds := bounds_of_readInteger (by decide) h
  unfold IsInt64
  omega

theorem toList_toString_ofNat (n : Nat) : (toString (n : Int)).toList = Nat.toDigits 10 n := by
  show (Nat.repr n).toList = _
  exact Nat.toList_repr

theorem toList_toString_negSucc (n : Nat) :
    (toString (Int.negSucc n)).toList = '-' :: Nat.toDigits 10 (n + 1) := by
  show ("-" ++ Nat.repr (n + 1)).toList = _
  rw [String.toList_append, Nat.toList_repr]
  rfl

theorem isZeroFree_toString (n : Int) : IsZeroFree (toString n) := by
  intro c hc
  cases n with
  | ofNat m => exact toNat_ne_zero_of_isDigit (isDigit_of_mem_toDigits (by
      rwa [← toList_toString_ofNat m]))
  | negSucc m =>
    rw [toList_toString_negSucc, List.mem_cons] at hc
    rcases hc with rfl | hc
    · decide
    · exact toNat_ne_zero_of_isDigit (isDigit_of_mem_toDigits hc)

theorem ne_of_isDigit {c d : Char} (hc : isDigit c = true) (hd : isDigit d = false) : c ≠ d := by
  rintro rfl
  simp [hc] at hd

/-- A natural number begins with a digit. -/
theorem exists_toDigits_eq_cons (n : Nat) :
    ∃ d ds, Nat.toDigits 10 n = d :: ds ∧ isDigit d = true := by
  cases hcases : Nat.toDigits 10 n with
  | nil => exact absurd hcases Nat.toDigits_ne_nil
  | cons d ds => exact ⟨d, ds, rfl, isDigit_of_mem_toDigits (n := n) (by simp [hcases])⟩

/-- **An integer is read back** where it keeps the bounds of the reader. The most negative one does,
although its amount alone would not. -/
theorem readInteger_toString {low high n : Int} (hzero : low ≤ 0 ∧ 0 ≤ high) (hlow : low ≤ n)
    (hhigh : n ≤ high) : readInteger low high (toString n) = .ok n := by
  have hdigits : ∀ m : Nat, ∀ c ∈ Nat.toDigits 10 m, isDigit c = true :=
    fun m c hc => isDigit_of_mem_toDigits hc
  cases n with
  | ofNat m =>
    have hread : readDigits false low high (Nat.toDigits 10 m) 0 = .ok (m : Int) := by
      have hwhole := readDigits_withSign false 0 (hdigits m) hzero
        (by rw [Nat.ofDigitChars_ten_toDigits]; exact ⟨hlow, hhigh⟩)
      rwa [Nat.ofDigitChars_ten_toDigits] at hwhole
    have htext : (toString (Int.ofNat m)).toList = Nat.toDigits 10 m := toList_toString_ofNat m
    -- The first character is a digit, and so no sign.
    obtain ⟨d, ds, hcases, hfirst⟩ := exists_toDigits_eq_cons m
    have hplus : d ≠ '+' := ne_of_isDigit hfirst (by decide)
    have hminus : d ≠ '-' := ne_of_isDigit hfirst (by decide)
    rw [hcases] at hread htext
    unfold readInteger
    rw [htext]
    split <;> simp_all
  | negSucc m =>
    have hread : readDigits true low high (Nat.toDigits 10 (m + 1)) 0 = .ok (Int.negSucc m) := by
      have hwhole := readDigits_withSign true 0 (hdigits (m + 1)) hzero
        (by rw [Nat.ofDigitChars_ten_toDigits]; exact ⟨hlow, hhigh⟩)
      rwa [Nat.ofDigitChars_ten_toDigits] at hwhole
    have hnegative : low < 0 := lt_of_le_of_lt hlow (Int.negSucc_lt_zero m)
    have hsome : Nat.toDigits 10 (m + 1) ≠ [] := Nat.toDigits_ne_nil
    unfold readInteger
    rw [toList_toString_negSucc]
    split <;> simp_all

theorem readInt64_toString {n : Int} (h : IsInt64 n) : readInt64 (toString n) = .ok n := by
  have hlow := h.1
  have hhigh := h.2
  exact readInteger_toString (by decide) (by omega) (by omega)

end ArithService
