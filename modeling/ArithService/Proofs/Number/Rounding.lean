import Mathlib
import ArithService.Number.Arithmetic
import ArithService.Number.Decimal

/-!
# Rounding

A ratio of units is rounded to the nearest code, and to the even one of two that are as near.
Rounding keeps order, and gives infinity from halfway between the largest finite number and the
next power of two.

## Main Definitions

* `IsNearestEven` — the integer nearest to a rational number, ties to the even one
* `IsInBinade`, `RoundsTo` — the binade of a magnitude, and the code that it is rounded to
* `toRat`, `IsCorrectlyRounded` — the value of a finite number, and what makes it the right one

## Design Notes

Magnitudes are rational numbers of units here, and codes have no upper end: `RoundsTo` goes on
where `codeOfRatio` stops at infinity. So order and nearness are proved once, without a case
for overflow, and the end comes in with `RoundsTo.lt_infinityCode_iff` alone.
-/

namespace ArithService.Binary64

/-! ### Nearest integers -/

/-- The integer nearest to a magnitude, and the even one of two that are as near. -/
structure IsNearestEven (x : ℚ) (q : ℕ) : Prop where
  near : |x - q| ≤ 1 / 2
  even : |x - q| = 1 / 2 → Even q

section Nearest

variable {x y : ℚ} {p q : ℕ}

/-- Rounding to integers keeps order. Only at ties is there something to prove, and there both go to
the even one. -/
theorem IsNearestEven.mono (hp : IsNearestEven x p) (hq : IsNearestEven y q) (h : x ≤ y) :
    p ≤ q := by
  by_contra hless
  have hcast : (q : ℚ) + 1 ≤ p := by exact_mod_cast not_le.1 hless
  obtain ⟨hlow, -⟩ := abs_le.1 hp.near
  obtain ⟨-, hhigh⟩ := abs_le.1 hq.near
  -- Both magnitudes lie halfway between the two integers, and these would both be even.
  have hnext : (p : ℚ) = q + 1 := by linarith
  have heven : Even p := hp.even (by rw [abs_of_nonpos] <;> linarith)
  have heven' : Even q := hq.even (by rw [abs_of_nonneg] <;> linarith)
  have hsucc : p = q + 1 := by exact_mod_cast hnext
  rw [hsucc, Nat.even_add_one] at heven
  exact heven heven'

theorem IsNearestEven.natCast (q : ℕ) : IsNearestEven q q :=
  ⟨by simp, by simp⟩

theorem IsNearestEven.half_le (h : IsNearestEven x q) (hne : p ≠ q) : 1 / 2 ≤ |x - p| := by
  have hapart : (1 : ℚ) ≤ |(q : ℚ) - p| := by
    have hint : (1 : ℤ) ≤ |(q : ℤ) - p| := Int.one_le_abs (by omega)
    exact_mod_cast hint
  have hnear := h.near
  have htriangle := abs_sub_le (q : ℚ) x p
  rw [abs_sub_comm (q : ℚ) x] at htriangle
  linarith

/-- No integer is nearer. -/
theorem IsNearestEven.abs_sub_le (h : IsNearestEven x q) (p : ℕ) : |x - q| ≤ |x - p| := by
  by_cases hne : p = q
  · rw [hne]
  · exact h.near.trans (h.half_le hne)

/-- If another integer is as near, the chosen one is even. -/
theorem IsNearestEven.even_of_tie (h : IsNearestEven x q) (hne : p ≠ q)
    (htie : |x - q| = |x - p|) : Even q :=
  h.even (le_antisymm h.near (htie ▸ h.half_le hne))

/-- Below the halfway point before an integer, that integer is not reached. This is what keeps
magnitudes below overflow finite. -/
theorem IsNearestEven.lt_of_lt_sub_half (h : IsNearestEven x q) (hx : x < p - 1 / 2) : q < p := by
  obtain ⟨hlow, -⟩ := abs_le.1 h.near
  have hcast : (q : ℚ) < p := by linarith
  exact_mod_cast hcast

/-- A fraction below one half is dropped, and one half too if that leaves an even integer. -/
theorem isNearestEven_down {r : ℚ} (hnonneg : 0 ≤ r) (h : r < 1 / 2 ∨ (r = 1 / 2 ∧ Even q)) :
    IsNearestEven (q + r) q := by
  have hfraction : |(q : ℚ) + r - q| = r := by
    rw [add_sub_cancel_left, abs_of_nonneg hnonneg]
  refine ⟨?_, fun htie => ?_⟩
  · rw [hfraction]
    exact h.elim le_of_lt fun hhalf => hhalf.1.le
  · rw [hfraction] at htie
    exact (h.resolve_left htie.not_lt).2

/-- Any other fraction is filled up to one. -/
theorem isNearestEven_up {r : ℚ} (hless : r < 1) (h : ¬ (r < 1 / 2 ∨ (r = 1 / 2 ∧ Even q))) :
    IsNearestEven (q + r) (q + 1 : ℕ) := by
  obtain ⟨habove, hodd⟩ := not_or.1 h
  have hfraction : |(q : ℚ) + r - (q + 1 : ℕ)| = 1 - r := by
    rw [abs_of_nonpos] <;> push_cast <;> linarith
  refine ⟨?_, fun htie => ?_⟩
  · rw [hfraction]
    linarith [not_lt.1 habove]
  · rw [hfraction] at htie
    rw [Nat.even_add_one]
    exact fun heven => hodd ⟨by linarith, heven⟩

end Nearest

/-- Dividing with a remainder and rounding by it gives the nearest integer. It is the only place
where the division that is carried out is looked at. -/
theorem isNearestEven_divideToEven (n : ℕ) {d : ℕ} (hd : 0 < d) :
    IsNearestEven (n / d : ℚ) (divideToEven n d) := by
  have hpos : (0 : ℚ) < d := by exact_mod_cast hd
  obtain ⟨r, hr⟩ : ∃ r : ℚ, r = (n % d : ℕ) / d := ⟨_, rfl⟩
  have hsplit : (n / d : ℚ) = (n / d : ℕ) + r := by
    rw [hr, div_eq_iff hpos.ne', add_mul, div_mul_cancel₀ _ hpos.ne', mul_comm]
    exact_mod_cast (Nat.div_add_mod n d).symm
  have hnonneg : 0 ≤ r := by
    rw [hr]
    positivity
  have hless : r < 1 := by
    rw [hr, div_lt_one hpos]
    exact_mod_cast Nat.mod_lt n hd
  -- What the division asks of the remainder, asked of the fraction.
  have hbelow : 2 * (n % d) < d ↔ r < 1 / 2 := by
    rw [hr, div_lt_div_iff₀ hpos two_pos]
    norm_cast
    omega
  have hhalf : 2 * (n % d) = d ↔ r = 1 / 2 := by
    rw [hr, div_eq_div_iff hpos.ne' two_ne_zero]
    norm_cast
    omega
  rw [hsplit, divideToEven]
  simp only [hbelow, hhalf, ← Nat.even_iff]
  split_ifs with hdown
  · exact isNearestEven_down hnonneg hdown
  · exact isNearestEven_up hless hdown

/-! ### Binades -/

/-- The binade of a magnitude, as the spacing of codes in it: all magnitudes below `2 ^ 53` units
have codes one unit apart. -/
structure IsInBinade (x : ℚ) (shift : ℕ) : Prop where
  lt : x < 2 ^ 53 * 2 ^ shift
  le : shift ≠ 0 → 2 ^ 52 * 2 ^ shift ≤ x

/-- A magnitude is rounded to a code: within its binade, to the nearest multiple of the
spacing. -/
inductive RoundsTo (x : ℚ) : ℕ → Prop where
  | intro {shift q : ℕ} (hbinade : IsInBinade x shift)
      (hnearest : IsNearestEven (x / 2 ^ shift) q) : RoundsTo x (shift * binade + q)

theorem binade_eq : binade = 2 ^ 52 := by decide

section Binades

variable {x y : ℚ} {shift q code code' : ℕ}

/-- Within a binade, the rounded multiple does not leave it but to the next one, and there only to
its first code. -/
theorem IsInBinade.le_two_mul_binade (h : IsInBinade x shift)
    (hnearest : IsNearestEven (x / 2 ^ shift) q) : q ≤ 2 * binade := by
  refine hnearest.mono (.natCast (2 * binade)) ?_
  rw [div_le_iff₀ (by positivity)]
  have hbelow := h.lt.le
  push_cast [binade_eq]
  linarith

/-- Nor does it fall below the binade, as the least magnitude of a binade is a multiple itself. -/
theorem IsInBinade.binade_le (h : IsInBinade x shift)
    (hnearest : IsNearestEven (x / 2 ^ shift) q) (hshift : shift ≠ 0) : binade ≤ q := by
  refine IsNearestEven.mono (.natCast binade) hnearest ?_
  rw [le_div_iff₀ (by positivity)]
  have habove := h.le hshift
  push_cast [binade_eq]
  linarith

theorem IsInBinade.mono {shift' : ℕ} (hx : IsInBinade x shift) (hy : IsInBinade y shift')
    (h : x ≤ y) : shift ≤ shift' := by
  by_contra hless
  have habove := hx.le (by omega)
  have hbelow := hy.lt
  have hpow : (2 : ℚ) ^ 53 * 2 ^ shift' ≤ 2 ^ 52 * 2 ^ shift := by
    rw [← pow_add, ← pow_add]
    exact pow_le_pow_right₀ (by norm_num) (by omega)
  linarith

/-- **Rounding keeps order.** In one binade it is the order of integers; in two, the code that ends
the lower one is in between. -/
theorem RoundsTo.mono (hx : RoundsTo x code) (hy : RoundsTo y code') (h : x ≤ y) :
    code ≤ code' := by
  obtain @⟨s, q, hbinade, hnearest⟩ := hx
  obtain @⟨s', q', hbinade', hnearest'⟩ := hy
  rcases (hbinade.mono hbinade' h).eq_or_lt with rfl | hless
  · have hquotients : q ≤ q' := hnearest.mono hnearest' (by gcongr)
    omega
  · -- In a higher binade even the least code is not below the last one of the lower binade.
    have hhigh := hbinade.le_two_mul_binade hnearest
    have hlow := hbinade'.binade_le hnearest' (by omega)
    have hstep : (s + 1) * binade ≤ s' * binade := Nat.mul_le_mul_right _ hless
    rw [Nat.add_mul] at hstep
    omega

end Binades

/-! ### Codes as magnitudes -/

section Codes

variable {code code' shift q : ℕ}

theorem codeUnits_of_lt (h : code < binade) : codeUnits code = code := if_pos h

theorem codeUnits_normal (e : ℕ) {f : ℕ} (hf : f < binade) :
    codeUnits ((e + 1) * binade + f) = (binade + f) * 2 ^ e := by
  have hpos : 0 < binade := by decide
  have hquotient : ((e + 1) * binade + f) / binade = e + 1 := by
    rw [Nat.add_comm, Nat.add_mul_div_right _ _ hpos, Nat.div_eq_of_lt hf, Nat.zero_add]
  have hremainder : ((e + 1) * binade + f) % binade = f := by
    rw [Nat.add_comm, Nat.add_mul_mod_self_right, Nat.mod_eq_of_lt hf]
  have hnormal : ¬ (e + 1) * binade + f < binade := by
    rw [Nat.add_mul]
    omega
  rw [codeUnits, if_neg hnormal, hquotient, hremainder]
  rfl

/-- A code counts the fractions of its binade. -/
theorem code_cases (code : ℕ) :
    code < binade ∨ ∃ e f, f < binade ∧ code = (e + 1) * binade + f := by
  have hpos : 0 < binade := by decide
  rcases lt_or_ge code binade with hless | hmore
  · exact .inl hless
  · obtain ⟨rest, rfl⟩ := Nat.exists_eq_add_of_le hmore
    refine .inr ⟨rest / binade, rest % binade, Nat.mod_lt _ hpos, ?_⟩
    have hsplit := Nat.div_add_mod' rest binade
    rw [Nat.add_mul]
    omega

/-- The code of the nearest multiple stands for it, also where it carries into the next binade. So
the sum in `RoundsTo` needs no case for a carry. -/
theorem codeUnits_add (hhigh : q ≤ 2 * binade) (hlow : shift ≠ 0 → binade ≤ q) :
    codeUnits (shift * binade + q) = q * 2 ^ shift := by
  have hpos : 0 < binade := by decide
  rcases lt_or_ge q binade with hless | hmore
  · have hfirst : shift = 0 := by
      by_contra hshift
      exact absurd (hlow hshift) (not_le.2 hless)
    simp [hfirst, codeUnits_of_lt hless]
  · rcases hhigh.eq_or_lt with rfl | hwithin
    · rw [show shift * binade + 2 * binade = (shift + 1 + 1) * binade + 0 by ring,
        codeUnits_normal _ hpos]
      ring
    · obtain ⟨f, rfl⟩ := Nat.exists_eq_add_of_le hmore
      rw [show shift * binade + (binade + f) = (shift + 1) * binade + f by ring,
        codeUnits_normal _ (by omega)]

/-- Codes are ordered as their magnitudes. -/
theorem codeUnits_strictMono : StrictMono codeUnits := by
  refine strictMono_nat_of_lt_succ fun code => ?_
  rcases code_cases code with hless | ⟨e, f, hf, rfl⟩
  · have hnext : codeUnits (0 * binade + (code + 1)) = (code + 1) * 2 ^ 0 :=
      codeUnits_add (by omega) (by simp)
    rw [Nat.zero_mul, Nat.zero_add, pow_zero, Nat.mul_one] at hnext
    rw [hnext, codeUnits_of_lt hless]
    exact Nat.lt_succ_self code
  · have hnext : codeUnits (e * binade + (binade + f + 1)) = (binade + f + 1) * 2 ^ e :=
      codeUnits_add (by omega) (by omega)
    rw [show e * binade + (binade + f + 1) = (e + 1) * binade + f + 1 by ring] at hnext
    rw [hnext, codeUnits_normal e hf]
    exact Nat.mul_lt_mul_of_pos_right (Nat.lt_succ_self _) (by positivity)

end Codes

/-! ### Nearness -/

section Nearness

variable {x : ℚ} {shift q code other : ℕ}

/-- Every code stands for a multiple of a given spacing, or lies below the binade of that spacing.
With this the nearest multiple can be compared with all codes, and not only with those of its own
binade. -/
theorem exists_mul_or_lt (code shift : ℕ) : (∃ k, codeUnits code = k * 2 ^ shift) ∨
    (shift ≠ 0 ∧ codeUnits code < 2 ^ 52 * 2 ^ shift) := by
  rw [← binade_eq]
  rcases code_cases code with hless | ⟨e, f, hf, rfl⟩
  · rw [codeUnits_of_lt hless]
    rcases Nat.eq_zero_or_pos shift with rfl | hshift
    · exact .inl ⟨code, by simp⟩
    · exact .inr ⟨hshift.ne', hless.trans_le (Nat.le_mul_of_pos_right _ (by positivity))⟩
  · rw [codeUnits_normal e hf]
    rcases le_or_gt shift e with hle | hgt
    · refine .inl ⟨(binade + f) * 2 ^ (e - shift), ?_⟩
      rw [Nat.mul_assoc, ← pow_add, Nat.sub_add_cancel hle]
    · refine .inr ⟨by omega, ?_⟩
      calc (binade + f) * 2 ^ e < 2 * binade * 2 ^ e :=
            Nat.mul_lt_mul_of_pos_right (by omega) (by positivity)
        _ = binade * 2 ^ (e + 1) := by ring
        _ ≤ binade * 2 ^ shift := Nat.mul_le_mul_left _ (Nat.pow_le_pow_right (by decide) hgt)

theorem abs_sub_mul_two_pow (x : ℚ) (k shift : ℕ) :
    |x - (k * 2 ^ shift : ℕ)| = |x / 2 ^ shift - k| * 2 ^ shift := by
  have hpos : (0 : ℚ) < 2 ^ shift := by positivity
  rw [← abs_of_pos hpos, ← abs_mul, abs_of_pos hpos, sub_mul, div_mul_cancel₀ _ hpos.ne']
  push_cast
  rfl

/-- The rounded multiple of the spacing is as near as any multiple. -/
theorem IsNearestEven.abs_sub_mul_le (h : IsNearestEven (x / 2 ^ shift) q) (k : ℕ) :
    |x - (q * 2 ^ shift : ℕ)| ≤ |x - (k * 2 ^ shift : ℕ)| := by
  rw [abs_sub_mul_two_pow, abs_sub_mul_two_pow]
  exact mul_le_mul_of_nonneg_right (h.abs_sub_le k) (by positivity)

/-- The rounded multiple of the spacing is nearer than anything below the binade, since the
least magnitude of the binade is a multiple that lies between. -/
theorem IsInBinade.abs_sub_mul_lt (hbinade : IsInBinade x shift)
    (hnearest : IsNearestEven (x / 2 ^ shift) q) (hshift : shift ≠ 0) {units : ℕ}
    (hbelow : units < 2 ^ 52 * 2 ^ shift) : |x - (q * 2 ^ shift : ℕ)| < |x - units| := by
  have hleast := hbinade.le hshift
  have hcast : (units : ℚ) < 2 ^ 52 * 2 ^ shift := by exact_mod_cast hbelow
  calc |x - (q * 2 ^ shift : ℕ)| ≤ |x - (2 ^ 52 * 2 ^ shift : ℕ)| := hnearest.abs_sub_mul_le _
    _ = x - 2 ^ 52 * 2 ^ shift := by
      push_cast
      exact abs_of_nonneg (by linarith)
    _ < x - units := by linarith
    _ ≤ |x - units| := le_abs_self _

/-- A magnitude is rounded to a code that stands for the nearest multiple of the spacing. -/
theorem RoundsTo.exists_nearest (h : RoundsTo x code) : ∃ shift q, IsInBinade x shift ∧
    IsNearestEven (x / 2 ^ shift) q ∧ code = shift * binade + q ∧
      codeUnits code = q * 2 ^ shift := by
  obtain @⟨shift, q, hbinade, hnearest⟩ := h
  exact ⟨shift, q, hbinade, hnearest, rfl, codeUnits_add (hbinade.le_two_mul_binade hnearest)
    (hbinade.binade_le hnearest)⟩

/-- **Rounding to the nearest.** No code is nearer to a magnitude than the one it is rounded
to. -/
theorem RoundsTo.abs_sub_le (h : RoundsTo x code) (other : ℕ) :
    |x - codeUnits code| ≤ |x - codeUnits other| := by
  obtain ⟨shift, q, hbinade, hnearest, -, hunits⟩ := h.exists_nearest
  rw [hunits]
  rcases exists_mul_or_lt other shift with ⟨k, hk⟩ | ⟨hshift, hbelow⟩
  · rw [hk]
    exact hnearest.abs_sub_mul_le k
  · exact (hbinade.abs_sub_mul_lt hnearest hshift hbelow).le

/-- **Ties to even.** If another code is as near, the one that is rounded to is even. -/
theorem RoundsTo.even_of_tie (h : RoundsTo x code) (hne : other ≠ code)
    (htie : |x - codeUnits code| = |x - codeUnits other|) : Even code := by
  obtain ⟨shift, q, hbinade, hnearest, hcode, hunits⟩ := h.exists_nearest
  rcases exists_mul_or_lt other shift with ⟨k, hk⟩ | ⟨hshift, hbelow⟩
  · have hother : k ≠ q := by
      rintro rfl
      exact hne (codeUnits_strictMono.injective (hk.trans hunits.symm))
    rw [hunits, hk, abs_sub_mul_two_pow, abs_sub_mul_two_pow] at htie
    have heven : Even q := hnearest.even_of_tie hother (mul_right_cancel₀ (by positivity) htie)
    rw [hcode]
    exact (Even.mul_left (by decide) _).add heven
  · rw [hunits] at htie
    exact absurd htie (hbinade.abs_sub_mul_lt hnearest hshift hbelow).ne

end Nearness

/-! ### The largest finite number -/

section Largest

variable {x : ℚ} {code : ℕ}

/-- Halfway between the largest finite magnitude and the next power of two, in units. -/
def overflowUnits : ℚ := (2 ^ 54 - 1) * 2 ^ 2044

/-- The spacing of the codes in the last binade. -/
theorem lastSpacing_eq : (2 : ℚ) ^ 2045 = 2 * 2 ^ 2044 := by rw [← pow_succ']

theorem overflowUnits_div : overflowUnits / 2 ^ 2045 = (2 * binade : ℕ) - 1 / 2 := by
  rw [overflowUnits, lastSpacing_eq, mul_comm (2 : ℚ), ← div_div,
    mul_div_cancel_right₀ _ (by positivity), binade_eq]
  norm_num

theorem isInBinade_overflowUnits : IsInBinade overflowUnits 2045 := by
  have hpos : (0 : ℚ) < 2 ^ 2044 := by positivity
  constructor
  · rw [overflowUnits, lastSpacing_eq, ← mul_assoc]
    exact mul_lt_mul_of_pos_right (by norm_num) hpos
  · intro _
    rw [overflowUnits, lastSpacing_eq, ← mul_assoc]
    exact mul_le_mul_of_nonneg_right (by norm_num) hpos.le

/-- Halfway, the next power of two is the even one of two codes, and it is infinity. So the bound on
finite results is a strict one. -/
theorem roundsTo_overflowUnits : RoundsTo overflowUnits infinityCode := by
  have hnearest : IsNearestEven (overflowUnits / 2 ^ 2045) (2 * binade) := by
    have hhalf : |overflowUnits / 2 ^ 2045 - (2 * binade : ℕ)| = 1 / 2 := by
      rw [overflowUnits_div, abs_sub_comm, sub_sub_cancel]
      norm_num
    exact ⟨hhalf.le, fun _ => even_two_mul _⟩
  exact .intro isInBinade_overflowUnits hnearest

/-- **Overflow.** A magnitude is rounded to infinity from that point on, and not before. Both halves
come from order: the point itself is rounded to infinity, and everything below it to less. -/
theorem RoundsTo.lt_infinityCode_iff (h : RoundsTo x code) :
    code < infinityCode ↔ x < overflowUnits := by
  constructor
  · intro hfinite
    by_contra hlarge
    exact absurd (roundsTo_overflowUnits.mono h (not_lt.1 hlarge)) (not_le.2 hfinite)
  · intro hsmall
    obtain @⟨shift, q, hbinade, hnearest⟩ := h
    have hhigh := hbinade.le_two_mul_binade hnearest
    have hshift := hbinade.mono isInBinade_overflowUnits hsmall.le
    have hlast : infinityCode = 2045 * binade + 2 * binade := by decide
    rw [hlast]
    rcases hshift.eq_or_lt with rfl | hlower
    · -- In the last binade the quotient stays away from the next power of two.
      have hquotient : x / 2 ^ 2045 < (2 * binade : ℕ) - 1 / 2 := by
        rw [← overflowUnits_div]
        exact div_lt_div_of_pos_right hsmall (by positivity)
      have hless : q < 2 * binade := hnearest.lt_of_lt_sub_half hquotient
      omega
    · have hpos : 0 < binade := by decide
      have hstep : (shift + 1) * binade ≤ 2045 * binade := Nat.mul_le_mul_right _ hlower
      rw [Nat.add_mul] at hstep
      omega

end Largest

/-! ### Ratios -/

/-- The logarithm of the quotient tells the binade. -/
theorem isInBinade_log2 (n : ℕ) {d : ℕ} (hd : 0 < d) :
    IsInBinade (n / d : ℚ) (Nat.log2 (n / d) - 52) := by
  have hpos : (0 : ℚ) < d := by exact_mod_cast hd
  constructor
  · have hlog : n / d < 2 ^ (53 + (Nat.log2 (n / d) - 52)) :=
      Nat.lt_log2_self.trans_le (Nat.pow_le_pow_right (by decide) (by omega))
    rw [div_lt_iff₀ hpos, ← pow_add]
    exact_mod_cast (Nat.div_lt_iff_lt_mul hd).1 hlog
  · intro hsome
    have hquotient : n / d ≠ 0 := by
      intro hzero
      rw [hzero] at hsome
      exact hsome (by decide)
    have hlog : 2 ^ (52 + (Nat.log2 (n / d) - 52)) ≤ n / d := by
      rw [Nat.add_sub_cancel' (by omega)]
      exact Nat.log2_self_le hquotient
    rw [le_div_iff₀ hpos, ← pow_add]
    exact_mod_cast (Nat.le_div_iff_mul_le hd).1 hlog

/-- **Codes of ratios are rounded**, and cut off at infinity. -/
theorem exists_roundsTo (n : ℕ) {d : ℕ} (hd : 0 < d) :
    ∃ code, RoundsTo (n / d : ℚ) code ∧ codeOfRatio n d = min infinityCode code := by
  have hnearest := isNearestEven_divideToEven n
    (d := d * 2 ^ (Nat.log2 (n / d) - 52)) (by positivity)
  push_cast at hnearest
  rw [← div_div] at hnearest
  exact ⟨_, .intro (isInBinade_log2 n hd) hnearest, rfl⟩

/-! ### Values -/

/-- The value of a finite number. -/
def toRat : Binary64 → ℚ
  | .nan => 0
  | .number negative code => signedUnits negative code / unitsPerOne

/-- A number is a value rounded correctly, for a value that is not negative: every other finite
number without a sign is farther from it, or as far, and then the code of the number is even. -/
def IsCorrectlyRounded (v : ℚ) (x : Binary64) : Prop :=
  ∃ code < infinityCode, x = ofCode false code ∧ ∀ other < infinityCode, other ≠ code →
    |v - x.toRat| < |v - (ofCode false other).toRat| ∨
      (|v - x.toRat| = |v - (ofCode false other).toRat| ∧ Even code)

theorem cast_unitsPerOne : (unitsPerOne : ℚ) = 2 ^ 1074 := by
  -- The exponent gets a name, so that the power is not worked out.
  obtain ⟨e, he⟩ : ∃ e, e = 1074 := ⟨_, rfl⟩
  unfold unitsPerOne
  rw [← he]
  exact Nat.cast_pow 2 e

theorem unitsPerOne_pos : (0 : ℚ) < unitsPerOne := by
  rw [cast_unitsPerOne]
  positivity

section Values

variable {v w : ℚ} {code code' : ℕ}

@[simp] theorem isFinite_ofCode {negative : Bool} :
    (ofCode negative code).isFinite = true ↔ code < infinityCode := by
  simp [ofCode, isFinite]

theorem toRat_ofCode (h : code < infinityCode) :
    (ofCode false code).toRat = codeUnits code / unitsPerOne := by
  have hsigned : signedUnits false (min code infinityCode) = codeUnits code := by
    rw [Nat.min_eq_left h.le]
    rfl
  show ((signedUnits false (min code infinityCode) : ℤ) : ℚ) / unitsPerOne = _
  rw [hsigned, Int.cast_natCast]

theorem ofCode_min (negative : Bool) (code : ℕ) :
    ofCode negative (min infinityCode code) = ofCode negative code := by
  simp [ofCode, min_comm]

theorem abs_sub_toRat (v : ℚ) (h : code < infinityCode) :
    |v - (ofCode false code).toRat| = |v * unitsPerOne - codeUnits code| / unitsPerOne := by
  rw [toRat_ofCode h, ← abs_of_pos unitsPerOne_pos, ← abs_div, abs_of_pos unitsPerOne_pos,
    sub_div, mul_div_cancel_right₀ _ unitsPerOne_pos.ne']

/-- A value that is rounded to a finite code is rounded correctly. -/
theorem RoundsTo.isCorrectlyRounded (h : RoundsTo (v * unitsPerOne) code)
    (hfinite : code < infinityCode) : IsCorrectlyRounded v (ofCode false code) := by
  refine ⟨code, hfinite, rfl, fun other hother hne => ?_⟩
  rw [abs_sub_toRat v hfinite, abs_sub_toRat v hother, div_lt_div_iff_of_pos_right unitsPerOne_pos,
    div_left_inj' unitsPerOne_pos.ne']
  rcases (h.abs_sub_le other).lt_or_eq with hnearer | htie
  · exact .inl hnearer
  · exact .inr ⟨htie, h.even_of_tie hne htie⟩

/-- Overflow begins halfway between the largest finite number and `2 ^ 1024`. -/
theorem mul_unitsPerOne_lt_overflowUnits_iff :
    v * unitsPerOne < overflowUnits ↔ v < 2 ^ 1024 - 2 ^ 970 := by
  have hunits : overflowUnits = (2 ^ 1024 - 2 ^ 970) * unitsPerOne := by
    have hhigh : (2 : ℚ) ^ 1024 = 2 ^ 54 * 2 ^ 970 := by rw [← pow_add]
    have hlow : (2 : ℚ) ^ 2044 = 2 ^ 970 * 2 ^ 1074 := by rw [← pow_add]
    rw [overflowUnits, cast_unitsPerOne, hhigh, hlow, ← mul_assoc, sub_one_mul]
  rw [hunits, mul_lt_mul_iff_left₀ unitsPerOne_pos]

/-- Rounded values are ordered as the values. -/
theorem RoundsTo.toRat_le (hv : RoundsTo (v * unitsPerOne) code)
    (hw : RoundsTo (w * unitsPerOne) code') (hcode : code < infinityCode)
    (hcode' : code' < infinityCode) (h : v ≤ w) :
    (ofCode false code).toRat ≤ (ofCode false code').toRat := by
  have hcodes : code ≤ code' := hv.mono hw (mul_le_mul_of_nonneg_right h unitsPerOne_pos.le)
  have hunits : codeUnits code ≤ codeUnits code' := codeUnits_strictMono.monotone hcodes
  rw [toRat_ofCode hcode, toRat_ofCode hcode']
  exact div_le_div_of_nonneg_right (by exact_mod_cast hunits) unitsPerOne_pos.le

/-- A decimal is counted in units and rounded as a ratio. -/
theorem codeOfDecimal_neg (digits scale : ℕ) :
    codeOfDecimal ⟨digits, -(scale : ℤ)⟩ = codeOfRatio (digits * unitsPerOne) (10 ^ scale) := by
  unfold codeOfDecimal
  rcases Nat.eq_zero_or_pos scale with rfl | hscale
  · rw [if_neg (by simp), show Nat.pow 10 (-((0 : ℕ) : ℤ)).toNat = 1 from rfl, Nat.mul_one]
    rfl
  · rw [if_pos (by simpa using hscale), Int.natAbs_neg, Int.natAbs_natCast]
    rfl

/-- A decimal is read as the number that its value is rounded to. -/
theorem exists_roundsTo_ofDecimal (digits scale : ℕ) :
    ∃ code, RoundsTo (digits / 10 ^ scale * unitsPerOne) code ∧
      ofDecimal false ⟨digits, -(scale : ℤ)⟩ = ofCode false code := by
  obtain ⟨code, hrounds, hcode⟩ := exists_roundsTo (digits * unitsPerOne)
    (d := 10 ^ scale) (by positivity)
  push_cast at hrounds
  rw [mul_div_right_comm] at hrounds
  exact ⟨code, hrounds, by rw [ofDecimal, codeOfDecimal_neg, hcode, ofCode_min]⟩

end Values

end ArithService.Binary64
