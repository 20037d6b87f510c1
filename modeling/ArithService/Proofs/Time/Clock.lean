import Mathlib
import ArithService.Proofs.Text.Integers
import ArithService.Proofs.Time.Reader

/-!
# Clock readings

The clock of the service runs between 10^18 and 9.2 · 10^18 nanoseconds, which are dates of
the years 2001 to 2261. Within these bounds nothing about instants depends on the range of
dates or of 64-bit numbers.

## Main Definitions

* `Instant.HasPlainYear` — a year of four digits
* `Instant.IsClockReading` — what the clock can show

## Design Notes

Dates are compared through their day numbers: the years in question begin and end at known
days, and a later day is never in an earlier year.
-/

namespace ArithService.Instant

/-! ### Years of four digits -/

/-- An instant of the years 0 to 9999. -/
def HasPlainYear (t : Instant) : Prop := 0 ≤ t.date.year ∧ t.date.year ≤ 9999

theorem IsProper.isPlain {t : Instant} (h : t.IsProper) (hyear : t.HasPlainYear) : t.IsPlain :=
  ⟨h, hyear.1, hyear.2⟩

theorem IsPlain.hasPlainYear {t : Instant} (h : t.IsPlain) : t.HasPlainYear :=
  ⟨h.year_nonneg, h.year_le⟩

/-- A later day is never in an earlier year, so years can be bounded by the days they begin and end
with. -/
theorem year_le_of_day_le {a b : Int} (h : a ≤ b) :
    (CivilDate.ofDayNumber a).year ≤ (CivilDate.ofDayNumber b).year := by
  rcases h.eq_or_lt with rfl | hlt
  · exact le_rfl
  · rcases CivilDate.ofDayNumber_before hlt with hyear | ⟨hyear, -⟩
    · exact hyear.le
    · exact hyear.le

/-- The years 0 to 9999 in seconds. -/
theorem hasPlainYear_of_seconds {t : Instant} (hlow : -62167219200 ≤ t.seconds)
    (hhigh : t.seconds ≤ 253402300799) : t.HasPlainYear := by
  have hfirst : (CivilDate.ofDayNumber (-719528)).year = 0 := by decide
  have hlast : (CivilDate.ofDayNumber 2932896).year = 9999 := by decide
  have hday : -719528 ≤ t.seconds / 86400 ∧ t.seconds / 86400 ≤ 2932896 := by omega
  constructor
  · rw [← hfirst]
    exact year_le_of_day_le hday.1
  · rw [← hlast]
    exact year_le_of_day_le hday.2

/-- The earliest instant is not of the years 0 to 9999. -/
theorem not_hasPlainYear_earliest : ¬ earliest.HasPlainYear := by
  have hyear : earliest.date.year = -262143 := by decide
  intro h
  have := h.1
  omega

/-- Counts of nanoseconds in 64 bits are plain instants: they reach from 1677 to 2262. -/
theorem isPlain_ofNanoseconds {n : Int} (h : IsInt64 n) : (ofNanoseconds n).IsPlain := by
  obtain ⟨hlow, hhigh⟩ := h
  refine (ofNanoseconds_isProper n).isPlain (hasPlainYear_of_seconds ?_ ?_)
  · simp only [ofNanoseconds]
    omega
  · simp only [ofNanoseconds]
    omega

@[simp] theorem nanoseconds_ofNanoseconds (n : Int) : (ofNanoseconds n).nanoseconds = n := by
  simp only [nanoseconds, ofNanoseconds]
  omega

/-- Later counts of nanoseconds are later instants. -/
theorem atMost_ofNanoseconds {m n : Int} :
    (ofNanoseconds m).atMost (ofNanoseconds n) = true ↔ m ≤ n := by
  simp only [atMost_iff, ofNanoseconds]
  omega

/-- Later counts of nanoseconds have greater texts, so rows can be ordered by either. -/
theorem text_ofNanoseconds_lt_iff {m n : Int} (hm : (ofNanoseconds m).IsPlain)
    (hn : (ofNanoseconds n).IsPlain) :
    (ofNanoseconds m).text < (ofNanoseconds n).text ↔ m < n := by
  rw [← not_le, hn.text_le_text_iff hm, atMost_ofNanoseconds, not_le]

/-- Timestamps of other years come before those of the years 0 to 9999: a sign comes before every
digit. So a deadline beyond the year 9999 is taken for one long past. -/
theorem text_lt_text_of_year {a b : Instant} (ha : ¬ a.HasPlainYear) (hb : b.IsPlain) :
    a.text < b.text := by
  obtain ⟨c, ds, rest, hsign, -, -, htext⟩ := toList_text_of_year ha
  have hplain := hb.toList_text
  simp only [fields, timestampLayout, layoutChars] at hplain
  cases hyear : fixedDigits 4 b.date.year.toNat with
  | nil => simpa [hyear] using length_fixedDigits 4 b.date.year.toNat
  | cons d more =>
    rw [hyear] at hplain
    have hmem : d ∈ fixedDigits 4 b.date.year.toNat := by simp [hyear]
    have hdigit : isDigit d = true := isDigit_of_mem_fixedDigits hmem
    have hfirst : c < '0' := by rcases hsign with rfl | rfl <;> decide
    have hnext : '0' ≤ d := by
      simp only [isDigit, Bool.and_eq_true, decide_eq_true_eq] at hdigit
      exact hdigit.1
    show a.text.toList < b.text.toList
    rw [htext, hplain]
    exact .rel (hfirst.trans_le hnext)

/-- Before a plain instant, no timestamp is at or behind its own one. The instant that is compared
with it need not be plain. -/
theorem IsPlain.not_text_le {deadline n : Instant} (hdeadline : deadline.IsPlain)
    (hproper : n.IsProper) (hbefore : deadline.atMost n = false) : ¬ deadline.text ≤ n.text := by
  by_cases hyear : n.HasPlainYear
  · rw [hdeadline.text_le_text_iff (hproper.isPlain hyear), hbefore]
    simp
  · exact not_le.2 (text_lt_text_of_year hyear hdeadline)

/-! ### The clock -/

/-- What the clock can show. -/
structure IsClockReading (t : Instant) : Prop where
  proper : t.IsProper
  low : 10 ^ 18 ≤ t.nanoseconds
  high : t.nanoseconds ≤ 92 * 10 ^ 17

instance (t : Instant) : Decidable t.IsProper := inferInstanceAs (Decidable (_ ∨ _))

instance (t : Instant) : Decidable t.IsClockReading :=
  decidable_of_iff (t.IsProper ∧ 10 ^ 18 ≤ t.nanoseconds ∧ t.nanoseconds ≤ 92 * 10 ^ 17)
    ⟨fun h => ⟨h.1, h.2.1, h.2.2⟩, fun h => ⟨h.proper, h.low, h.high⟩⟩

theorem IsClockReading.isPlain {t : Instant} (h : t.IsClockReading) : t.IsPlain := by
  have hproper := h.proper
  have hlow := h.low
  have hhigh := h.high
  unfold IsProper at hproper
  unfold nanoseconds at hlow hhigh
  refine h.proper.isPlain (hasPlainYear_of_seconds ?_ ?_)
  · omega
  · omega

/-! ### Moving -/

/-- Moving keeps leap seconds at the ends of minutes: it moves whole seconds and nanoseconds below
the leap second, and never out of a day into another second. -/
theorem IsProper.move {t : Instant} (h : t.IsProper) (d : Span) : (t.move d).IsProper := by
  unfold Instant.move
  split_ifs with hleap hforwards hbackwards
  · exact ofNanoseconds_isProper _
  · exact ofNanoseconds_isProper _
  · -- The movement stays within the leap second, or within the second before it.
    have hbound : d.nanos < 1000000000 := Int.tmod_lt_of_pos _ (by decide)
    unfold IsProper at h ⊢
    simp only [isLeap, decide_eq_true_eq] at hleap
    simp only
    omega
  · exact ofNanoseconds_isProper _

theorem IsProper.of_add? {t moved : Instant} {d : Span} (h : t.IsProper)
    (hmoved : t.add? d = some moved) : moved.IsProper := by
  simp only [add?] at hmoved
  split_ifs at hmoved
  obtain rfl := Option.some.inj hmoved
  exact h.move d

end ArithService.Instant
