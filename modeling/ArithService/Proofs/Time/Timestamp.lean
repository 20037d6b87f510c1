import Mathlib
import ArithService.Proofs.Text.Digits
import ArithService.Proofs.Time.Calendar
import ArithService.Time.Timestamp

/-!
# The order of timestamps

Stored timestamps of years 0 to 9999 have a fixed layout, and their order as texts is the
order of the instants, leap seconds included.

## Main Definitions

* `Instant.IsProper` — a leap second only at the end of a minute
* `Instant.IsPlain` — a proper instant with a year of four digits
* `layoutChars` — numbers written one after the other, each with its own width and separator
* `Instant.fields` — the numbers in a timestamp

## Design Notes

A timestamp is a list of numbers written by a fixed layout. Texts of one layout are ordered
as the lists of numbers (`layoutChars_lt_iff`), and a later instant has a later list
(`Instant.fields_lt`). Since both orders are total, that is all there is to show.
-/

namespace ArithService

/-! ### Layouts -/

/-- The layout of a timestamp: the width of each number and the character after it. -/
def timestampLayout : List (Nat × Char) :=
  [(4, '-'), (2, '-'), (2, 'T'), (2, ':'), (2, ':'), (2, '.'), (9, 'Z')]

/-- Numbers written by a layout. -/
def layoutChars : List (Nat × Char) → List Nat → List Char
  | (width, c) :: layout, n :: ns => fixedDigits width n ++ c :: layoutChars layout ns
  | _, _ => []

/-- Whether every number fits its width. -/
def Fits (layout : List (Nat × Char)) (ns : List Nat) : Prop :=
  List.Forall₂ (fun field n => n < 10 ^ field.1) layout ns

/-- Texts of one layout are ordered as their numbers. By induction on the layout: where the first
numbers differ they decide, and where they are the same the separator is, too. -/
theorem layoutChars_lt_iff {layout : List (Nat × Char)} {ms ns : List Nat}
    (hms : Fits layout ms) (hns : Fits layout ns) :
    layoutChars layout ms < layoutChars layout ns ↔ ms < ns := by
  induction layout generalizing ms ns with
  | nil =>
    cases hms
    cases hns
    simp [layoutChars]
  | cons field layout ih =>
    cases hms with
    | @cons _ m _ ms hm hms =>
    cases hns with
    | @cons _ n _ ns hn hns =>
    have hsame : fixedDigits field.1 m = fixedDigits field.1 n ↔ m = n :=
      ⟨fun h => by rw [← digitsValue_fixedDigits hm, h, digitsValue_fixedDigits hn],
        fun h => by rw [h]⟩
    rw [layoutChars, layoutChars, append_lt_append_iff (by simp), fixedDigits_lt_iff hm hn,
      hsame, List.cons_lt_cons_iff, List.cons_lt_cons_iff, ih hms hns]
    simp

namespace Instant

/-! ### Plain instants -/

/-- Whether a leap second stands at the end of a minute. -/
def IsProper (t : Instant) : Prop :=
  t.nanos < 1000000000 ∨ (t.nanos < 2000000000 ∧ t.seconds % 60 = 59)

/-- A proper instant of the years 0 to 9999. -/
structure IsPlain (t : Instant) : Prop where
  proper : t.IsProper
  year_nonneg : 0 ≤ t.date.year
  year_le : t.date.year ≤ 9999

theorem ofNanoseconds_isProper (n : Int) : (ofNanoseconds n).IsProper := by
  left
  simp only [ofNanoseconds]
  omega

/-- The numbers in a timestamp. -/
def fields (t : Instant) : List Nat :=
  [t.date.year.toNat, t.date.month, t.date.day, t.secondOfDay / 3600, t.secondOfDay / 60 % 60,
    t.secondOfDay % 60 + t.nanos / 1000000000, t.nanos % 1000000000]

theorem secondOfDay_lt (t : Instant) : t.secondOfDay < 86400 := by
  unfold secondOfDay
  omega

/-- The second of a proper instant is at most 60. -/
theorem IsProper.second_lt {t : Instant} (h : t.IsProper) :
    t.secondOfDay % 60 + t.nanos / 1000000000 < 61 := by
  unfold IsProper at h
  omega

theorem date_isValid (t : Instant) : t.date.isValid = true := CivilDate.isValid_ofDayNumber _

theorem month_day_lt (t : Instant) : t.date.month < 13 ∧ t.date.day < 32 := by
  have h := t.date_isValid
  simp only [CivilDate.isValid, Bool.and_eq_true, decide_eq_true_eq] at h
  have hlen : daysInMonth t.date.year t.date.month ≤ 31 := by
    unfold daysInMonth
    split_ifs <;> omega
  omega

/-- The numbers in the timestamp of a plain instant fit the layout. -/
theorem IsPlain.fits {t : Instant} (h : t.IsPlain) : Fits timestampLayout t.fields := by
  have hyear := h.year_le
  have hdate := t.month_day_lt
  have hday := t.secondOfDay_lt
  have hsecond := h.proper.second_lt
  refine .cons ?_ (.cons ?_ (.cons ?_ (.cons ?_ (.cons ?_ (.cons ?_ (.cons ?_ .nil))))))
  all_goals
    norm_num
    omega

/-- The timestamp of a plain instant has the fixed layout: its year has four digits and no sign. -/
theorem IsPlain.toList_text {t : Instant} (h : t.IsPlain) :
    t.text.toList = layoutChars timestampLayout t.fields := by
  have hyear : yearText t.date.year = padded 4 t.date.year.toNat :=
    if_pos ⟨h.year_nonneg, h.year_le⟩
  obtain ⟨hyears, hrest⟩ := List.forall₂_cons.1 h.fits
  obtain ⟨hmonth, hrest⟩ := List.forall₂_cons.1 hrest
  obtain ⟨hday, hrest⟩ := List.forall₂_cons.1 hrest
  obtain ⟨hhour, hrest⟩ := List.forall₂_cons.1 hrest
  obtain ⟨hminute, hrest⟩ := List.forall₂_cons.1 hrest
  obtain ⟨hsecond, hrest⟩ := List.forall₂_cons.1 hrest
  obtain ⟨hnanos, -⟩ := List.forall₂_cons.1 hrest
  simp only [text, secondText, hyear, String.toList_append, toList_padded (by decide) hyears,
    toList_padded (by decide) hmonth, toList_padded (by decide) hday,
    toList_padded (by decide) hhour, toList_padded (by decide) hminute,
    toList_padded (by decide) hsecond, toList_padded (by decide) hnanos, fields, layoutChars,
    timestampLayout, List.append_assoc]
  rfl

/-! ### Order -/

theorem atMost_iff {a b : Instant} :
    a.atMost b = true ↔ a.seconds < b.seconds ∨ (a.seconds = b.seconds ∧ a.nanos ≤ b.nanos) := by
  simp [atMost]

theorem not_atMost_iff {a b : Instant} :
    a.atMost b = false ↔
      b.seconds < a.seconds ∨ (b.seconds = a.seconds ∧ b.nanos < a.nanos) := by
  simp only [atMost, Bool.or_eq_false_iff, decide_eq_false_iff_not, Bool.and_eq_false_iff]
  omega

/-- On one day, a later second or a later nanosecond gives later numbers. A leap second is the
second 60 of its minute, so it comes after all others. -/
theorem timeFields_lt {s m s' m' : Nat} (h : s < s' ∨ (s = s' ∧ m < m'))
    (hproper : m < 1000000000 ∨ (m < 2000000000 ∧ s % 60 = 59)) :
    [s / 3600, s / 60 % 60, s % 60 + m / 1000000000, m % 1000000000] <
      [s' / 3600, s' / 60 % 60, s' % 60 + m' / 1000000000, m' % 1000000000] := by
  simp only [List.cons_lt_cons_iff, List.not_lt_nil, and_false, or_false]
  rcases h with hlt | ⟨rfl, hlt⟩
  · omega
  · omega

/-- A later instant has later numbers: a later day has a later date, and on one day it is the time
that counts. -/
theorem fields_lt {a b : Instant} (ha : a.IsPlain) (hb : b.IsPlain) (h : b.atMost a = false) :
    a.fields < b.fields := by
  have hyears : 0 ≤ a.date.year ∧ 0 ≤ b.date.year := ⟨ha.year_nonneg, hb.year_nonneg⟩
  -- An earlier day decides; on the same day the time does.
  rcases lt_trichotomy (a.seconds / 86400) (b.seconds / 86400) with hlt | heq | hgt
  · have hbefore : a.date.Before b.date := CivilDate.ofDayNumber_before hlt
    unfold CivilDate.Before at hbefore
    simp only [fields, List.cons_lt_cons_iff]
    omega
  · have hdate : a.date = b.date := by unfold date; rw [heq]
    have hproper := ha.proper
    have hlater := not_atMost_iff.1 h
    have hlex : a.secondOfDay < b.secondOfDay ∨
        (a.secondOfDay = b.secondOfDay ∧ a.nanos < b.nanos) := by
      unfold secondOfDay
      omega
    have htime := timeFields_lt hlex (by unfold IsProper at hproper; unfold secondOfDay; omega)
    simp only [fields, hdate]
    exact .cons (.cons (.cons htime))
  · have hlater := not_atMost_iff.1 h
    omega

/-- **Stored timestamps are ordered as the instants.** A database compares texts where the store in
memory compares instants, so the two agree as far as this goes. -/
theorem IsPlain.text_le_text_iff {a b : Instant} (ha : a.IsPlain) (hb : b.IsPlain) :
    a.text ≤ b.text ↔ a.atMost b = true := by
  have hiff : a.text ≤ b.text ↔ ¬ b.fields < a.fields := by
    rw [← layoutChars_lt_iff hb.fits ha.fits, ← hb.toList_text, ← ha.toList_text]
    rfl
  rw [hiff]
  constructor
  · intro hnot
    by_contra hlater
    exact hnot (fields_lt hb ha (by simpa using hlater))
  · -- Instants that are at most each other are equal, and have the same numbers.
    intro hle hlt
    by_cases hback : b.atMost a = true
    · have hsame : a = b := by
        simp only [atMost, Bool.or_eq_true, decide_eq_true_eq, Bool.and_eq_true] at hle hback
        cases a
        cases b
        simp only [mk.injEq] at *
        omega
      rw [hsame] at hlt
      exact List.lt_irrefl _ hlt
    · have hgt := fields_lt ha hb (by simpa using hback)
      exact List.lt_asymm hlt hgt

end Instant

end ArithService
