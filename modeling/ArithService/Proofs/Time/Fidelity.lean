import Mathlib
import ArithService.Proofs.Text.Bytes
import ArithService.Proofs.Time.Clock

/-!
# Timestamps keep order and identity

Among the years 0 to 9999 nothing is lost when instants are stored as texts: all texts are of one
length, their bytes are ordered as the instants, and each one is read as the instant it was written
for. Leap seconds are instants like all others.

## Design Notes

Statements compare stored times as bytes, while the lemmas about layouts compare characters;
`textBytes_lt_iff` says that this is the same.
-/

namespace ArithService

/-- Texts of one layout are of one length, as every number that fits is padded to its width. -/
theorem length_layoutChars {layout : List (Nat × Char)} {ns : List Nat} (h : Fits layout ns) :
    (layoutChars layout ns).length = (layout.map (·.1 + 1)).sum := by
  induction h with
  | nil => rfl
  | cons _ _ ih =>
    simp only [layoutChars, List.length_append, List.length_cons, length_fixedDigits, ih,
      List.map_cons, List.sum_cons]
    omega

namespace Instant

variable {a b : Instant}

/-- The timestamp of a plain instant has thirty characters. -/
theorem IsPlain.length_text (h : a.IsPlain) : a.text.length = 30 := by
  rw [← String.length_toList, h.toList_text, length_layoutChars h.fits]
  rfl

theorem IsPlain.text_lt_text_iff (ha : a.IsPlain) (hb : b.IsPlain) :
    a.text < b.text ↔ b.atMost a = false := by
  rw [← not_le, hb.text_le_text_iff ha, Bool.not_eq_true]

theorem IsPlain.ofText_text (h : a.IsPlain) : ofText a.text = a := by
  rw [ofText, Timestamp.readRfc3339?_text h]

end Instant

/-- **Stored timestamps keep order and identity.** Instants of the years 0 to 9999 are written with
thirty characters. One of them is earlier than another, which means that the other is not at or
before it, exactly if its bytes are smaller. Each one reads back as itself. -/
theorem timestamps_keep_order {a b : Instant} (ha : a.IsPlain) (hb : b.IsPlain) :
    a.text.length = 30 ∧ b.text.length = 30 ∧
      (b.atMost a = false ↔ textBytes a.text < textBytes b.text) ∧ Instant.ofText a.text = a := by
  refine ⟨ha.length_text, hb.length_text, ?_, ha.ofText_text⟩
  rw [textBytes_lt_iff, ha.text_lt_text_iff hb]

/-- The middle of a leap second is before midnight, and so is its timestamp. -/
theorem timestamps_keep_order_leapSecond :
    (⟨1483228799, 1500000000⟩ : Instant).IsPlain ∧ (⟨1483228800, 0⟩ : Instant).IsPlain ∧
      (⟨1483228799, 1500000000⟩ : Instant).text = "2016-12-31T23:59:60.500000000Z" ∧
      textBytes "2016-12-31T23:59:60.500000000Z" < textBytes "2017-01-01T00:00:00.000000000Z" ∧
      Instant.ofText "2016-12-31T23:59:60.500000000Z" = ⟨1483228799, 1500000000⟩ := by
  have hleap : (⟨1483228799, 1500000000⟩ : Instant).IsPlain :=
    ⟨by decide, by decide, by decide⟩
  have hmidnight : (⟨1483228800, 0⟩ : Instant).IsPlain := ⟨by decide, by decide, by decide⟩
  have hleapText : (⟨1483228799, 1500000000⟩ : Instant).text =
      "2016-12-31T23:59:60.500000000Z" := by decide +kernel
  have hmidnightText : (⟨1483228800, 0⟩ : Instant).text =
      "2017-01-01T00:00:00.000000000Z" := by decide +kernel
  obtain ⟨-, -, horder, hread⟩ := timestamps_keep_order hleap hmidnight
  rw [hleapText, hmidnightText] at horder
  rw [hleapText] at hread
  exact ⟨hleap, hmidnight, hleapText, horder.1 (by decide), hread⟩

end ArithService
