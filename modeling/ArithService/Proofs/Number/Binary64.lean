import Mathlib
import ArithService.Number.Binary64

/-!
# Equality as numbers

`Binary64.sameNumber` is an equivalence on everything but NaN, and puts the two zeros together.
Equality itself is that of the bits.
-/

namespace ArithService.Binary64

variable {x y z : Binary64}

theorem sameNumber_self (h : x ≠ .nan) : x.sameNumber x = true := by
  cases x with
  | nan => exact absurd rfl h
  | number negative code => simp [sameNumber]

theorem sameNumber_comm (h : x.sameNumber y = true) : y.sameNumber x = true := by
  cases x with
  | nan => simp [sameNumber] at h
  | number s a =>
    cases y with
    | nan => simp [sameNumber] at h
    | number t b =>
      simp only [sameNumber, Bool.or_eq_true, Bool.and_eq_true, decide_eq_true_eq] at h ⊢
      rcases h with hzero | hsame
      · exact .inl hzero.symm
      · exact .inr ⟨hsame.1.symm, hsame.2.symm⟩

theorem sameNumber_trans (hxy : x.sameNumber y = true) (hyz : y.sameNumber z = true) :
    x.sameNumber z = true := by
  cases x with
  | nan => simp [sameNumber] at hxy
  | number s a =>
    cases y with
    | nan => simp [sameNumber] at hxy
    | number t b =>
      cases z with
      | nan => simp [sameNumber] at hyz
      | number u c =>
        simp only [sameNumber, Bool.or_eq_true, Bool.and_eq_true, decide_eq_true_eq] at hxy hyz ⊢
        rcases hxy with hzero | ⟨rfl, rfl⟩
        · rcases hyz with hzero' | ⟨rfl, rfl⟩
          · exact .inl ⟨hzero.1, hzero'.2⟩
          · exact .inl hzero
        · exact hyz

@[simp] theorem isZero_zero : zero.isZero = true := by decide

/-- Zeros are the same number, whichever signs they have. So a sign that gets lost on the way of a
result is no other result. -/
theorem sameNumber_of_isZero (hx : x.isZero = true) (hy : y.isZero = true) :
    x.sameNumber y = true := by
  cases x with
  | nan => simp [isZero] at hx
  | number s a =>
    cases y with
    | nan => simp [isZero] at hy
    | number t b =>
      simp only [isZero, decide_eq_true_eq] at hx hy
      simp [sameNumber, hx, hy]

theorem ne_nan_of_isFinite (h : x.isFinite = true) : x ≠ .nan := by
  rintro rfl
  simp [isFinite] at h

/-- The other zero. -/
def negativeZero : Binary64 := ofCode true 0

theorem isZero_iff : x.isZero = true ↔ x = zero ∨ x = negativeZero := by
  cases x with
  | nan => simp [isZero, zero, negativeZero, ofCode]
  | number negative code =>
    simp only [isZero, decide_eq_true_eq, zero, negativeZero, ofCode, number.injEq, Fin.ext_iff,
      Nat.zero_min]
    cases negative <;> tauto

/-- **Numbers are read back from their bits**, the sign of a zero and infinities included. -/
@[simp] theorem ofBits_toBits (x : Binary64) : ofBits x.toBits = x := by
  cases x with
  | nan => decide
  | number negative code =>
    have hcode : code.val ≤ infinityCode := Nat.le_of_lt_succ code.isLt
    have hbound : infinityCode < 0x8000000000000000 := by decide
    cases negative with
    | false =>
      have hbits : (toBits (.number false code)).toNat = code.val :=
        UInt64.toNat_ofNat_of_lt' (show code.val + 0 < 2 ^ 64 by omega)
      simp only [ofBits, hbits, Nat.mod_eq_of_lt (show code.val < 0x8000000000000000 by omega)]
      rw [if_neg (by omega), decide_eq_false (by omega), ofCode]
      simp [hcode]
    | true =>
      have hbits : (toBits (.number true code)).toNat = code.val + 0x8000000000000000 :=
        UInt64.toNat_ofNat_of_lt' (show code.val + 0x8000000000000000 < 2 ^ 64 by omega)
      simp only [ofBits, hbits]
      rw [show (code.val + 0x8000000000000000) % 0x8000000000000000 = code.val by omega,
        if_neg (by omega), decide_eq_true (by omega), ofCode]
      simp [hcode]

end ArithService.Binary64
