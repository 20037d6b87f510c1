import Mathlib
import ArithService.Proofs.Text.Whitespace
import ArithService.Proofs.Text.ZeroFree
import ArithService.Proofs.Time.Timestamp

/-!
# Reading stored timestamps

A stored timestamp of the years 0 to 9999 reads back as the instant it was written for. The
timestamp of any other year has a sign in front, is not readable, and counts as the earliest
instant.

## Design Notes

The reader takes one number at a time from a list of characters. Every number of the layout
is followed by a character that is no digit, so what it takes is exactly the number that was
written (`readNumber_append`).
-/

namespace ArithService

/-! ### Numbers -/

namespace Timestamp

/-- Reading takes the digits in front of the next separator, if their number is allowed. -/
theorem readNumber_append {least most : Nat} {ds : List Char} {c : Char} {rest : List Char}
    (hds : ∀ d ∈ ds, isDigit d = true) (hc : isDigit c = false) (hleast : least ≤ ds.length)
    (hmost : ds.length ≤ most) :
    readNumber least most (ds ++ c :: rest) = some (digitsValue ds, c :: rest) := by
  have hdigits : ((ds ++ c :: rest).take most).takeWhile isDigit = ds := by
    rw [List.take_append, List.take_of_length_le hmost, List.takeWhile_append_of_pos hds]
    cases most - ds.length with
    | zero => simp
    | succ more => simp [hc]
  simp [readNumber, hdigits, Nat.not_lt.2 hleast]

/-- A number of the layout is read back. -/
theorem readNumber_fixedDigits {least most width n : Nat} {c : Char} {rest : List Char}
    (hn : n < 10 ^ width) (hc : isDigit c = false) (hleast : least ≤ width)
    (hmost : width ≤ most) :
    readNumber least most (fixedDigits width n ++ c :: rest) = some (n, c :: rest) := by
  rw [readNumber_append (fun _ => isDigit_of_mem_fixedDigits) hc (by simpa using hleast)
    (by simpa using hmost), digitsValue_fixedDigits hn]

@[simp] theorem readChar_cons (c : Char) (rest : List Char) :
    readChar c (c :: rest) = some rest := by simp [readChar]

/-- A fraction of nine digits is read back. -/
theorem readFraction_fixedDigits {n : Nat} {c : Char} {rest : List Char} (hn : n < 10 ^ 9)
    (hc : isDigit c = false) :
    readFraction (fixedDigits 9 n ++ c :: rest) = some (n, c :: rest) := by
  have hdigits : ((fixedDigits 9 n ++ c :: rest).take 9).takeWhile isDigit = fixedDigits 9 n := by
    rw [List.take_append, List.take_of_length_le (by simp),
      List.takeWhile_append_of_pos fun _ => isDigit_of_mem_fixedDigits]
    simp
  have hne : fixedDigits 9 n ≠ [] := by
    intro h
    have := congrArg List.length h
    simp at this
  have hrest : (fixedDigits 9 n ++ c :: rest).drop (fixedDigits 9 n).length = c :: rest := by simp
  simp only [readFraction, hdigits, if_neg hne, digitsValue_fixedDigits hn, length_fixedDigits,
    Nat.sub_self, Nat.pow_eq, pow_zero, mul_one]
  rw [length_fixedDigits] at hrest
  simp [hrest, hc]

/-! ### Years of four digits -/

/-- The date and time of day that a plain instant shows give the instant. -/
theorem instantOf?_fields {t : Instant} (h : t.IsPlain) :
    instantOf? t.date (t.secondOfDay / 3600) (t.secondOfDay / 60 % 60)
      (t.secondOfDay % 60 + t.nanos / 1000000000) (t.nanos % 1000000000) = some t := by
  have hvalid := t.date_isValid
  have hlow := h.year_nonneg
  have hhigh := h.year_le
  have hday := t.secondOfDay_lt
  have hsecond := h.proper.second_lt
  have hproper := h.proper
  unfold Instant.IsProper at hproper
  have hnumber : t.date.dayNumber = t.seconds / 86400 :=
    CivilDate.dayNumber_ofDayNumber _
  have hsplit : t.seconds = t.seconds / 86400 * 86400 + (t.secondOfDay : Int) := by
    unfold Instant.secondOfDay
    omega
  rw [instantOf?, if_pos ⟨hvalid, by omega, by omega, by omega, by omega, by omega⟩, hnumber]
  have hbase : (t.secondOfDay / 3600 * 3600 + t.secondOfDay / 60 % 60 * 60 : Nat) +
      t.secondOfDay % 60 = t.secondOfDay := by omega
  cases t with
  | mk seconds nanos =>
    simp only at hproper hsplit ⊢
    split_ifs with hleap
    · simp only [Option.some.injEq, Instant.mk.injEq]
      omega
    · simp only [Option.some.injEq, Instant.mk.injEq]
      omega

/-- A triple whose parts are read one after the other is read. -/
theorem readTriple_eq {α : Type} {first : List Char → Option (α × List Char)}
    {next : List Char → Option (Nat × List Char)} {c : Char} {a : α} {m n : Nat}
    {cs second third rest : List Char} (hfirst : first cs = some (a, c :: second))
    (hsecond : next second = some (m, c :: third)) (hthird : next third = some (n, rest)) :
    readTriple first next c cs = some ((a, m, n), rest) := by
  simp [readTriple, hfirst, hsecond, hthird]

/-- Three numbers of the layout are read back. -/
theorem readTriple_fixedDigits {width a m n : Nat} {c d : Char} {rest : List Char}
    (ha : a < 10 ^ width) (hm : m < 10 ^ 2) (hn : n < 10 ^ 2) (hc : isDigit c = false)
    (hd : isDigit d = false) :
    readTriple (readNumber width width) (readNumber 2 2) c
        (fixedDigits width a ++ c :: (fixedDigits 2 m ++ c :: (fixedDigits 2 n ++ d :: rest))) =
      some ((a, m, n), d :: rest) :=
  readTriple_eq (readNumber_fixedDigits ha hc le_rfl le_rfl)
    (readNumber_fixedDigits hm hc le_rfl le_rfl) (readNumber_fixedDigits hn hd le_rfl le_rfl)

/-- A text of the fixed layout is read number by number. -/
theorem readRfc3339?_layout {text : String} {year month day hour minute second nanos : Nat}
    (htext : text.toList =
      layoutChars timestampLayout [year, month, day, hour, minute, second, nanos])
    (hfits : Fits timestampLayout [year, month, day, hour, minute, second, nanos]) :
    readRfc3339? text = instantOf? ⟨year, month, day⟩ hour minute second nanos := by
  obtain ⟨hyear, hrest⟩ := List.forall₂_cons.1 hfits
  obtain ⟨hmonth, hrest⟩ := List.forall₂_cons.1 hrest
  obtain ⟨hday, hrest⟩ := List.forall₂_cons.1 hrest
  obtain ⟨hhour, hrest⟩ := List.forall₂_cons.1 hrest
  obtain ⟨hminute, hrest⟩ := List.forall₂_cons.1 hrest
  obtain ⟨hsecond, hrest⟩ := List.forall₂_cons.1 hrest
  obtain ⟨hnanos, -⟩ := List.forall₂_cons.1 hrest
  have hdash : isDigit '-' = false ∧ isDigit 'T' = false := by decide
  have hcolon : isDigit ':' = false ∧ isDigit '.' = false := by decide
  have hfraction : readOptionalFraction ('.' :: (fixedDigits 9 nanos ++ ['Z'])) =
      some (nanos, ['Z']) :=
    readFraction_fixedDigits hnanos (by decide)
  have hzone : readZone ['Z'] = some (0, []) := rfl
  simp only [layoutChars, timestampLayout] at htext
  simp only [readRfc3339?, htext, readTriple_fixedDigits hyear hmonth hday hdash.1 hdash.2,
    readTriple_fixedDigits hhour hminute hsecond hcolon.1 hcolon.2, hfraction, hzone,
    readSeparator, Option.bind_eq_bind, Option.bind_some, true_or, if_true, Int.sub_zero]
  cases instantOf? ⟨year, month, day⟩ hour minute second nanos <;> rfl

/-- The timestamp of a plain instant is read back. -/
theorem readRfc3339?_text {t : Instant} (h : t.IsPlain) : readRfc3339? t.text = some t := by
  have hcast : ((t.date.year.toNat : Nat) : Int) = t.date.year :=
    Int.toNat_of_nonneg h.year_nonneg
  rw [readRfc3339?_layout h.toList_text h.fits, hcast]
  exact instantOf?_fields h

/-! ### Other years -/

/-- A year with a sign is not read where four digits are asked for. -/
theorem readRfc3339?_eq_none {text : String} {c : Char} {rest : List Char}
    (htext : text.toList = c :: rest) (hc : isDigit c = false) : readRfc3339? text = none := by
  have hyear : readNumber 4 4 (c :: rest) = none := by simp [readNumber, hc]
  simp [readRfc3339?, htext, readTriple, hyear]

/-- A year with a sign is read up to the next separator. -/
theorem readYear_sign {c : Char} {ds : List Char} (rest : List Char) (hc : c = '+' ∨ c = '-')
    (hds : ∀ d ∈ ds, isDigit d = true) (hne : ds ≠ []) :
    ∃ year, readYear (c :: (ds ++ '-' :: rest)) = some (year, '-' :: rest) := by
  have hread : readNumber 1 (ds ++ '-' :: rest).length (ds ++ '-' :: rest) =
      some (digitsValue ds, '-' :: rest) :=
    readNumber_append hds (by decide) (List.length_pos_iff.2 hne) (by simp)
  rcases hc with rfl | rfl
  · have htrim : trimLeft ('+' :: (ds ++ '-' :: rest)) = '+' :: (ds ++ '-' :: rest) :=
      List.dropWhile_cons_of_neg (by decide)
    rw [readYear, htrim]
    simp only [hread]
    exact ⟨_, rfl⟩
  · have htrim : trimLeft ('-' :: (ds ++ '-' :: rest)) = '-' :: (ds ++ '-' :: rest) :=
      List.dropWhile_cons_of_neg (by decide)
    rw [readYear, htrim]
    simp only [hread]
    exact ⟨_, rfl⟩

/-- A field of two digits is read back. -/
theorem readField_fixedDigits {n : Nat} {c : Char} {rest : List Char} (hn : n < 10 ^ 2)
    (hc : isDigit c = false) :
    readField (fixedDigits 2 n ++ c :: rest) = some (n, c :: rest) := by
  have htrim : trimLeft (fixedDigits 2 n ++ c :: rest) = fixedDigits 2 n ++ c :: rest := by
    cases hds : fixedDigits 2 n with
    | nil => simpa using congrArg List.length hds
    | cons d ds =>
      have hd : isDigit d = true := isDigit_of_mem_fixedDigits (by rw [hds]; simp)
      simp [trimLeft, isWhiteSpace_of_isDigit hd]
  rw [readField, htrim, readNumber_fixedDigits hn hc (by decide) (by decide)]

/-- A date that is followed by a letter is not read without a zone either. -/
theorem readPlain?_eq_none {text : String} {c : Char} {ds rest : List Char} {month day : Nat}
    (htext : text.toList =
      c :: (ds ++ '-' :: (fixedDigits 2 month ++ '-' :: (fixedDigits 2 day ++ 'T' :: rest))))
    (hc : c = '+' ∨ c = '-') (hds : ∀ d ∈ ds, isDigit d = true) (hne : ds ≠ [])
    (hmonth : month < 10 ^ 2) (hday : day < 10 ^ 2) : readPlain? text = none := by
  obtain ⟨year, hyear⟩ :=
    readYear_sign (fixedDigits 2 month ++ '-' :: (fixedDigits 2 day ++ 'T' :: rest)) hc hds hne
  have hdate : readTriple readYear readField '-' text.toList =
      some ((year, month, day), 'T' :: rest) := by
    rw [htext]
    exact readTriple_eq hyear (readField_fixedDigits hmonth (by decide))
      (readField_fixedDigits hday (by decide))
  -- The second way to read a text asks for white space where the letter stands.
  have hletter : readField ('T' :: rest) = none := by
    simp [readField, trimLeft, isWhiteSpace, readNumber, isDigit]
  have htime : readTriple readField readField ':' ('T' :: rest) = none := by
    simp [readTriple, hletter]
  simp [readPlain?, hdate, htime]

end Timestamp

/-! ### Stored texts -/

namespace Instant

theorem isZeroFree_text (t : Instant) : IsZeroFree t.text := by
  have hyear : IsZeroFree (yearText t.date.year) := by
    unfold yearText
    split_ifs
    · exact isZeroFree_padded _ _
    · exact .append (by simp [IsZeroFree]) (isZeroFree_padded _ _)
    · exact .append (by simp [IsZeroFree]) (isZeroFree_padded _ _)
  have hmark : IsZeroFree "-" ∧ IsZeroFree "T" ∧ IsZeroFree ":" ∧ IsZeroFree "." ∧
      IsZeroFree "Z" := by simp [IsZeroFree]
  obtain ⟨hdash, hletter, hcolon, hpoint, hzone⟩ := hmark
  have hsecond : IsZeroFree t.secondText :=
    ((((((((((hyear.append hdash).append (isZeroFree_padded _ _)).append hdash).append
      (isZeroFree_padded _ _)).append hletter).append (isZeroFree_padded _ _)).append
      hcolon).append (isZeroFree_padded _ _)).append hcolon).append (isZeroFree_padded _ _))
  exact ((hsecond.append hpoint).append (isZeroFree_padded _ _)).append hzone

/-- **The timestamp of a plain instant reads back as the instant.** -/
theorem IsPlain.timeRead_text {t : Instant} (h : t.IsPlain) : TaskRow.timeRead t.text = t := by
  rw [TaskRow.timeRead, t.isZeroFree_text.textRead, ofText, Timestamp.readRfc3339?_text h]

/-- A timestamp of another year starts with a sign: years above 9999 are written with a plus, years
before 0 with a minus. The digits behind it may be more than four. -/
theorem toList_text_of_year {t : Instant} (h : ¬ (0 ≤ t.date.year ∧ t.date.year ≤ 9999)) :
    ∃ (c : Char) (ds rest : List Char), (c = '+' ∨ c = '-') ∧ (∀ d ∈ ds, isDigit d = true) ∧
      ds ≠ [] ∧ t.text.toList = c :: (ds ++ '-' :: (fixedDigits 2 t.date.month ++ '-' ::
        (fixedDigits 2 t.date.day ++ 'T' :: rest))) := by
  have hdate := t.month_day_lt
  have hmonth : (padded 2 t.date.month).toList = fixedDigits 2 t.date.month :=
    toList_padded (by decide) (by omega)
  have hday : (padded 2 t.date.day).toList = fixedDigits 2 t.date.day :=
    toList_padded (by decide) (by omega)
  have hyear : yearText t.date.year =
      (if t.date.year < 0 then "-" else "+") ++ padded 4 t.date.year.natAbs := if_neg h
  refine ⟨if t.date.year < 0 then '-' else '+', (padded 4 t.date.year.natAbs).toList,
    (padded 2 (t.secondOfDay / 3600)).toList ++ ':' ::
      ((padded 2 (t.secondOfDay / 60 % 60)).toList ++ ':' ::
        ((padded 2 (t.secondOfDay % 60 + t.nanos / 1000000000)).toList ++ '.' ::
          ((padded 9 (t.nanos % 1000000000)).toList ++ ['Z']))), ?_,
    fun _ => isDigit_of_mem_padded, ?_, ?_⟩
  · split_ifs <;> simp
  · simp [padded, decimal, Nat.toString_eq_repr, Nat.toDigits_ne_nil]
  · simp only [text, secondText, hyear, String.toList_append, hmonth, hday, List.append_assoc]
    split_ifs <;> simp

/-- The timestamp of another year reads back as the earliest instant. Both readers have to refuse
it: the one that asks for a zone at the sign, the other one at the letter behind the date. -/
theorem timeRead_text_of_year {t : Instant} (h : ¬ (0 ≤ t.date.year ∧ t.date.year ≤ 9999)) :
    TaskRow.timeRead t.text = earliest := by
  obtain ⟨c, ds, rest, hc, hds, hne, htext⟩ := toList_text_of_year h
  have hdate := t.month_day_lt
  have hsign : isDigit c = false := by rcases hc with rfl | rfl <;> decide
  rw [TaskRow.timeRead, t.isZeroFree_text.textRead, ofText,
    Timestamp.readRfc3339?_eq_none htext hsign,
    Timestamp.readPlain?_eq_none htext hc hds hne (by omega) (by omega)]
  rfl

end Instant

end ArithService
