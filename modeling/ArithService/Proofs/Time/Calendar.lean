import Mathlib
import ArithService.Time.Calendar

/-!
# The calendar of day numbers

Every day number has a valid date, the date gives the day number back, and later days have
later dates.

## Main Definitions

* `yearStart` — the days before 1 March of a year
* `CivilDate.Before` — the order of dates: by year, then month, then day

## Design Notes

`CivilDate.ofDayNumber_spec` is the only place where the divisions of the conversion are
looked at. It describes a date by its year counted from March, its day within that year, and
its month counted from March; the other facts are linear arithmetic on these.
-/

namespace ArithService

/-- The days before 1 March of a year, counted from 1 March of year 0. -/
def yearStart (year : Int) : Int := 365 * year + year / 4 - year / 100 + year / 400

/-- A later year starts at least a year's days later. -/
theorem yearStart_add_le {a b : Int} (h : a < b) : yearStart a + 365 ≤ yearStart b := by
  unfold yearStart
  rcases (by omega : b = a + 1 ∨ a + 2 ≤ b) with rfl | hfar <;> omega

/-! ### Within an era -/

/-- A day of an era lies in a century, a cycle of four years, and a year of that cycle. Only
the last year of a cycle has a leap day, and the last cycle of a century has one only in the
last century. -/
theorem exists_cycle_of_dayOfEra {n : Int} (hlow : 0 ≤ n) (hhigh : n ≤ 146096) :
    ∃ century cycle year day : Int,
      n = 36524 * century + 1461 * cycle + 365 * year + day ∧
      (0 ≤ century ∧ century ≤ 3) ∧ (0 ≤ cycle ∧ cycle ≤ 24) ∧ (0 ≤ year ∧ year ≤ 3) ∧
      (0 ≤ day ∧ day ≤ 365) ∧ (day = 365 → year = 3 ∧ (cycle = 24 → century = 3)) := by
  obtain ⟨c, hc⟩ : ∃ c, c = min (n / 36524) 3 := ⟨_, rfl⟩
  obtain ⟨r, hr⟩ : ∃ r, r = n - 36524 * c := ⟨_, rfl⟩
  have hrange : 0 ≤ c ∧ c ≤ 3 ∧ 0 ≤ r ∧ r ≤ 36524 ∧ (r = 36524 → c = 3) := by omega
  obtain ⟨s, hs⟩ : ∃ s, s = r % 1461 := ⟨_, rfl⟩
  obtain ⟨k, hk⟩ : ∃ k, k = min (s / 365) 3 := ⟨_, rfl⟩
  have hcycle : 0 ≤ r / 1461 ∧ r / 1461 ≤ 24 := by omega
  have hyear : 0 ≤ k ∧ k ≤ 3 ∧ 0 ≤ s - 365 * k ∧ s - 365 * k ≤ 365 ∧
      (s - 365 * k = 365 → k = 3) := by omega
  refine ⟨c, r / 1461, k, s - 365 * k, by omega, by omega, hcycle, by omega, by omega, ?_⟩
  intro hlast
  exact ⟨by omega, fun hcycle => by omega⟩

/-- The year of an era that the conversion computes, and the day of that year. -/
theorem yearOfEra_spec {n : Int} (hlow : 0 ≤ n) (hhigh : n ≤ 146096) :
    ∃ year day : Int, (n - n / 1460 + n / 36524 - n / 146096) / 365 = year ∧
      n = 365 * year + year / 4 - year / 100 + day ∧ (0 ≤ year ∧ year ≤ 399) ∧
      (0 ≤ day ∧ day ≤ 365) ∧ (day = 365 → year % 4 = 3 ∧ (year % 100 = 99 → year = 399)) := by
  obtain ⟨c, q, k, d, hn, hc, hq, hk, hd, hleap⟩ := exists_cycle_of_dayOfEra hlow hhigh
  have hshift : n / 36524 - n / 146096 = c := by
    by_cases hinside : 1461 * q + 365 * k + d ≤ 36523
    · have hfirst : n / 36524 = c := by omega
      have hsecond : n / 146096 = 0 := by omega
      omega
    · have hd : d = 365 := by omega
      obtain ⟨rfl, hq⟩ := hleap hd
      obtain rfl : c = 3 := hq (by omega)
      have hend : n = 146096 := by omega
      rw [hend]
      decide
  have hquarter : (100 * c + 4 * q + k) / 4 = 25 * c + q := by omega
  have hcentury : (100 * c + 4 * q + k) / 100 = c := by omega
  have hlast : d = 365 → (100 * c + 4 * q + k) % 4 = 3 ∧
      ((100 * c + 4 * q + k) % 100 = 99 → 100 * c + 4 * q + k = 399) := by
    intro hd
    obtain ⟨rfl, hq⟩ := hleap hd
    clear hn hd hleap
    exact ⟨by omega, fun hmod => by omega⟩
  refine ⟨100 * c + 4 * q + k, d, ?_, by rw [hquarter, hcentury]; linarith, by omega, hd, hlast⟩
  -- the leap days before the day are off by one only near the end of a year
  obtain ⟨m, hm⟩ : ∃ m, m = 24 * c + q + 365 * k + d := ⟨_, rfl⟩
  have hsplit : n = m + 1460 * (25 * c + q) := by rw [hm, hn]; ring
  obtain ⟨e, he, hcase⟩ : ∃ e, n / 1460 = e + (25 * c + q) ∧
      ((e = 0 ∧ d < 365) ∨ (e = 1 ∧ 1 ≤ d)) := by
    rw [hsplit, Int.add_mul_ediv_left _ _ (by decide)]
    clear hn hsplit hshift hquarter hcentury hlast
    by_cases hlate : 1460 ≤ m
    · exact ⟨1, by omega, by omega⟩
    · exact ⟨0, by omega, by omega⟩
  have hdays : n - n / 1460 + n / 36524 - n / 146096 =
      d - e + 365 * (100 * c + 4 * q + k) := by
    rw [he]
    linarith only [hn, hshift]
  have hinside : (d - e) / 365 = 0 := by
    apply Int.ediv_eq_zero_of_lt <;> omega
  rw [hdays, Int.add_mul_ediv_left _ _ (by decide), hinside, zero_add]

/-- The month that the conversion computes for a day of a year, and the day of that month. -/
theorem monthFromMarch_spec {day : Int} (hlow : 0 ≤ day) (hhigh : day ≤ 365) :
    ∃ month dayOfMonth : Int, (5 * day + 2) / 153 = month ∧
      day - (153 * month + 2) / 5 + 1 = dayOfMonth ∧ (0 ≤ month ∧ month ≤ 11) ∧
      (1 ≤ dayOfMonth ∧ dayOfMonth ≤ 31) ∧
      (month = 1 ∨ month = 3 ∨ month = 6 ∨ month = 8 → dayOfMonth ≤ 30) ∧
      (month = 11 → dayOfMonth ≤ 29 ∧ (dayOfMonth = 29 → day = 365)) := by
  obtain ⟨m, hm⟩ : ∃ m, m = (5 * day + 2) / 153 := ⟨_, rfl⟩
  have hrange : 0 ≤ m ∧ m ≤ 11 := by omega
  refine ⟨m, _, hm.symm, rfl, hrange, ?_⟩
  obtain ⟨hzero, heleven⟩ := hrange
  interval_cases m <;> omega

namespace CivilDate

/-- Whether a date is earlier than another: by year, then month, then day. -/
def Before (a b : CivilDate) : Prop :=
  a.year < b.year ∨ (a.year = b.year ∧ (a.month < b.month ∨ (a.month = b.month ∧ a.day < b.day)))

/-! ### Dates of day numbers -/

/-- A date of a day number: `year` and `month` count from March, `day` is the day of that
year and `dayOfMonth` the day of that month. -/
theorem ofDayNumber_spec (n : Int) :
    ∃ year day month dayOfMonth : Int,
      ofDayNumber n = ⟨if month < 10 then year else year + 1,
        (if month < 10 then month + 3 else month - 9).toNat, dayOfMonth.toNat⟩ ∧
      n + epochShift = yearStart year + day ∧
      day = (153 * month + 2) / 5 + dayOfMonth - 1 ∧
      (0 ≤ day ∧ day ≤ 365) ∧
      (day = 365 → year % 4 = 3 ∧ (year % 100 = 99 → year % 400 = 399)) ∧
      (0 ≤ month ∧ month ≤ 11) ∧ (1 ≤ dayOfMonth ∧ dayOfMonth ≤ 31) ∧
      (month = 1 ∨ month = 3 ∨ month = 6 ∨ month = 8 → dayOfMonth ≤ 30) ∧
      (month = 11 → dayOfMonth ≤ 29 ∧ (dayOfMonth = 29 → day = 365)) := by
  obtain ⟨era, hera⟩ : ∃ era, (n + epochShift) / daysPerEra = era := ⟨_, rfl⟩
  obtain ⟨doe, hdoe⟩ : ∃ doe, (n + epochShift) % daysPerEra = doe := ⟨_, rfl⟩
  have hsum : n + epochShift = daysPerEra * era + doe := by
    rw [← hera, ← hdoe, Int.mul_ediv_add_emod]
  have hlow : 0 ≤ doe := by rw [← hdoe]; exact Int.emod_nonneg _ (by decide)
  have hhigh : doe ≤ 146096 := by
    have : doe < daysPerEra := by rw [← hdoe]; exact Int.emod_lt_of_pos _ (by decide)
    exact Int.le_of_lt_add_one this
  obtain ⟨y, d, hy, hd, hyrange, hdrange, hleap⟩ := yearOfEra_spec hlow hhigh
  obtain ⟨m, dm, hm, hdm, hmrange, hdmrange, hthirty, hfebruary⟩ :=
    monthFromMarch_spec hdrange.1 hdrange.2
  have hday : doe - (365 * y + y / 4 - y / 100) = d := by linarith
  refine ⟨y + era * 400, d, m, dm, ?_, ?_, by linarith, hdrange, ?_, hmrange, hdmrange, hthirty,
    hfebruary⟩
  · simp only [ofDayNumber, hera, hdoe, hy, hday, hm, hdm]
    congr 1
    by_cases hmonth : m < 10
    · have : ¬ m + 3 ≤ 2 := by omega
      simp [hmonth, this]
    · have : m - 9 ≤ 2 := by omega
      simp only [hmonth, if_false, if_pos this]
  · -- An era has a whole number of leap cycles, so its years start as those of the first one.
    have hstart : yearStart (y + era * 400) = 365 * y + y / 4 - y / 100 + 146097 * era := by
      unfold yearStart
      clear hsum hd hleap hday hfebruary hy hm hdm
      omega
    rw [hsum, hstart, hd, daysPerEra]
    ring
  · intro hlast
    obtain ⟨hfour, hcentury⟩ := hleap hlast
    refine ⟨by omega, fun hmod => ?_⟩
    have := hcentury (by omega)
    omega

/-- The date of a day number gives the day number back. -/
@[simp] theorem dayNumber_ofDayNumber (n : Int) : (ofDayNumber n).dayNumber = n := by
  obtain ⟨y, d, m, dm, hdate, hn, hd, -, -, hm, hdm, -, -⟩ := ofDayNumber_spec n
  obtain ⟨month, hmonth⟩ : ∃ month : Nat,
      (if m < 10 then m + 3 else m - 9).toNat = month := ⟨_, rfl⟩
  have hyear : (if month ≤ 2 then (if m < 10 then y else y + 1) - 1
      else if m < 10 then y else y + 1) = y := by split_ifs at hmonth ⊢ <;> omega
  have hback : (((month + 9) % 12 : Nat) : Int) = m := by split_ifs at hmonth <;> omega
  have hcast : ((dm.toNat : Nat) : Int) = dm := Int.toNat_of_nonneg (by omega)
  have hstart : y / 400 * daysPerEra + (y % 400 * 365 + y % 400 / 4 - y % 400 / 100) =
      yearStart y := by
    unfold yearStart daysPerEra
    clear hn hmonth hyear hback hcast hd
    omega
  simp only [dayNumber, hdate, hmonth, hyear, hback, hcast]
  linarith

/-- Every day number has a date that exists. -/
theorem isValid_ofDayNumber (n : Int) : (ofDayNumber n).isValid = true := by
  obtain ⟨y, d, m, dm, hdate, -, -, -, hleap, hm, hdm, hthirty, hfebruary⟩ := ofDayNumber_spec n
  rw [hdate]
  obtain ⟨hzero, heleven⟩ := hm
  have hday : 1 ≤ dm.toNat ∧ dm.toNat ≤ 31 := by omega
  by_cases hlate : m = 11
  · -- February: the leap day stands at the end of a leap year only
    subst hlate
    obtain ⟨hshort, hlast⟩ := hfebruary rfl
    by_cases htwentynine : dm = 29
    · obtain ⟨hfour, hcentury⟩ := hleap (hlast htwentynine)
      have hisLeap : isLeapYear (y + 1) = true := by
        simp only [isLeapYear, Bool.and_eq_true, Bool.or_eq_true, decide_eq_true_eq, ne_eq,
          decide_not, Bool.not_eq_true', decide_eq_false_iff_not]
        refine ⟨by omega, ?_⟩
        by_cases hmod : y % 100 = 99
        · have := hcentury hmod
          right
          omega
        · left
          omega
      simp [isValid, daysInMonth, hisLeap, htwentynine]
    · have : dm.toNat ≤ 28 := by omega
      simp only [isValid, daysInMonth]
      split_ifs <;> simp_all
      all_goals omega
  · interval_cases m <;> simp [isValid, daysInMonth] at * <;> omega

/-- Later days of a year are in later months, or later in the same month. -/
theorem month_or_day_lt {d m k d' m' k' : Int} (h : d < d')
    (hd : d = (153 * m + 2) / 5 + k - 1) (hd' : d' = (153 * m' + 2) / 5 + k' - 1)
    (hm : 0 ≤ m ∧ m ≤ 11) (hm' : 0 ≤ m' ∧ m' ≤ 11) (hk : 1 ≤ k) (hk' : k' ≤ 31)
    (hthirty : m' = 1 ∨ m' = 3 ∨ m' = 6 ∨ m' = 8 → k' ≤ 30) :
    m < m' ∨ (m = m' ∧ k < k') := by
  rcases lt_trichotomy m m' with hlt | rfl | hgt
  · exact Or.inl hlt
  · exact Or.inr ⟨rfl, by omega⟩
  · exfalso
    have hnext : (153 * (m' + 1) + 2) / 5 ≤ (153 * m + 2) / 5 := by omega
    obtain ⟨hzero, heleven⟩ := hm'
    interval_cases m' <;> omega

/-- Later days have later dates. -/
theorem ofDayNumber_before {a b : Int} (h : a < b) : (ofDayNumber a).Before (ofDayNumber b) := by
  obtain ⟨y, d, m, k, hdate, hn, hd, hdrange, -, hm, hk, -, -⟩ := ofDayNumber_spec a
  obtain ⟨y', d', m', k', hdate', hn', hd', hdrange', -, hm', hk', hthirty', -⟩ :=
    ofDayNumber_spec b
  -- counted from March, the year decides, and within a year the day
  have hyears : y < y' ∨ (y = y' ∧ d < d') := by
    rcases lt_trichotomy y y' with hlt | rfl | hgt
    · exact Or.inl hlt
    · exact Or.inr ⟨rfl, by omega⟩
    · have := yearStart_add_le hgt
      omega
  have hmonths : y < y' ∨ (y = y' ∧ (m < m' ∨ (m = m' ∧ k < k'))) := by
    rcases hyears with hlt | ⟨heq, hlt⟩
    · exact Or.inl hlt
    · exact Or.inr ⟨heq, month_or_day_lt hlt hd hd' hm hm' hk.1 hk'.2 hthirty'⟩
  rw [hdate, hdate']
  clear hdate hdate' hd hd' hn hn' hyears hthirty' hdrange hdrange'
  simp only [Before]
  split_ifs <;> omega

end CivilDate

end ArithService
