import Mathlib
import ArithService.Proofs.Expression.Work
import ArithService.Proofs.Number.Rounding
import ArithService.Proofs.Text.Digits
import ArithService.Proofs.Text.Whitespace

/-!
# Values of operands

An operand is read as the number nearest to the decimal that it spells, and it is refused where
it spells none or one that is too large. How the decimal is spelled makes no difference.

## Main Definitions

* `IsNumeral`, `numeralValue` — decimal numerals, and the exact value of one
* `IsDecimal`, `decimalValue` — the same for a text with white space around it
* `Respells` — zeros and dots that make no difference

## Design Notes

Reading splits a numeral after its first run of digits and drops the dot from the digits, while
the value is defined by the places on both sides of the dot. Numerals therefore come in two forms,
with a dot (`isNumeral_append_dot_iff`) and without (`isNumeral_iff_of_notMem`), and everything
about values and about reading is proved once for each form.
-/

namespace ArithService

open Binary64

/-! ### Numerals -/

/-- A decimal numeral: digits and at most one dot, with at least one digit. -/
structure IsNumeral (cs : List Char) : Prop where
  chars : ∀ c ∈ cs, isDigit c = true ∨ c = '.'
  dots : cs.count '.' ≤ 1
  digit : ∃ c ∈ cs, isDigit c = true

/-- Digits only. -/
def AreDigits (cs : List Char) : Prop := ∀ c ∈ cs, isDigit c = true

/-- The characters before the dot. -/
def wholeDigits (cs : List Char) : List Char := cs.takeWhile (· ≠ '.')

/-- The characters after the dot. -/
def fractionDigits (cs : List Char) : List Char := (cs.dropWhile (· ≠ '.')).drop 1

/-- The exact value of a numeral. -/
def numeralValue (cs : List Char) : ℚ :=
  digitsValue (wholeDigits cs) + digitsValue (fractionDigits cs) / 10 ^ (fractionDigits cs).length

/-- A text is a decimal when it is a numeral with white space around it. -/
def IsDecimal (text : String) : Prop := IsNumeral (trimChars text.toList)

/-- The exact value of a decimal. -/
def decimalValue (text : String) : ℚ := numeralValue (trimChars text.toList)

/-- Spelling a numeral another way: with a zero in front, with a zero at the end of its fraction,
or with a dot at the end of a whole number. -/
inductive Respells : List Char → List Char → Prop where
  | leadingZero (cs : List Char) : Respells cs ('0' :: cs)
  | trailingZero {cs : List Char} (hdot : '.' ∈ cs) : Respells cs (cs ++ ['0'])
  | trailingDot {cs : List Char} (hdot : '.' ∉ cs) : Respells cs (cs ++ ['.'])

section Numerals

variable {cs whole fraction : List Char}

/-! ### Forms of a numeral -/

theorem AreDigits.dot_notMem (h : AreDigits cs) : '.' ∉ cs := fun hdot => by
  simpa [isDigit] using h _ hdot

/-- A numeral without a dot is a run of digits. -/
theorem isNumeral_iff_of_notMem (h : '.' ∉ cs) : IsNumeral cs ↔ cs ≠ [] ∧ AreDigits cs := by
  constructor
  · rintro ⟨hchars, -, d, hmem, -⟩
    exact ⟨List.ne_nil_of_mem hmem,
      fun c hc => (hchars c hc).resolve_right fun heq => h (heq ▸ hc)⟩
  · rintro ⟨hsome, hdigits⟩
    obtain ⟨d, hmem⟩ := List.exists_mem_of_ne_nil cs hsome
    refine ⟨fun c hc => .inl (hdigits c hc), ?_, d, hmem, hdigits d hmem⟩
    rw [List.count_eq_zero.2 h]
    exact Nat.zero_le 1

/-- A numeral with a dot has digits on its two sides, and one side may be empty. The two forms are
told apart by their first dot, behind which there is no other. -/
theorem isNumeral_append_dot_iff : IsNumeral (whole ++ '.' :: fraction) ↔
    whole ++ fraction ≠ [] ∧ AreDigits (whole ++ fraction) := by
  have hmem : ∀ c, c ∈ whole ++ '.' :: fraction ↔ c ∈ whole ++ fraction ∨ c = '.' := by
    intro c
    simp only [List.mem_append, List.mem_cons]
    tauto
  have hcount : (whole ++ '.' :: fraction).count '.' = (whole ++ fraction).count '.' + 1 := by
    simp only [List.count_append, List.count_cons_self]
    omega
  constructor
  · rintro ⟨hchars, hdots, d, hoccurs, hdigit⟩
    have hnone : '.' ∉ whole ++ fraction := List.count_eq_zero.1 (by omega)
    have hother : d ≠ '.' := by
      rintro rfl
      simp [isDigit] at hdigit
    exact ⟨List.ne_nil_of_mem (((hmem d).1 hoccurs).resolve_right hother), fun c hc =>
      (hchars c ((hmem c).2 (.inl hc))).resolve_right fun heq => hnone (heq ▸ hc)⟩
  · rintro ⟨hsome, hdigits⟩
    obtain ⟨d, hoccurs⟩ := List.exists_mem_of_ne_nil _ hsome
    refine ⟨fun c hc => ((hmem c).1 hc).imp_left (hdigits c), ?_, d, (hmem d).2 (.inl hoccurs),
      hdigits d hoccurs⟩
    rw [hcount, List.count_eq_zero.2 hdigits.dot_notMem]

/-! ### Exact values -/

theorem digitsValue_append (ds es : List Char) :
    digitsValue (ds ++ es) = digitsValue ds * 10 ^ es.length + digitsValue es := by
  induction es using List.reverseRecOn with
  | nil => simp [digitsValue]
  | append_singleton es c ih =>
    rw [← List.append_assoc, digitsValue_append_singleton, digitsValue_append_singleton, ih,
      List.length_append, List.length_singleton, pow_succ]
    ring

theorem ne_dot_of_notMem (h : '.' ∉ cs) : ∀ c ∈ cs, decide (c ≠ '.') = true := by
  intro c hc
  exact decide_eq_true fun heq => h (heq ▸ hc)

theorem wholeDigits_of_notMem (h : '.' ∉ cs) : wholeDigits cs = cs :=
  List.takeWhile_eq_self_iff.2 (ne_dot_of_notMem h)

theorem fractionDigits_of_notMem (h : '.' ∉ cs) : fractionDigits cs = [] := by
  rw [fractionDigits, List.dropWhile_eq_nil_iff.2 (ne_dot_of_notMem h), List.drop_nil]

theorem wholeDigits_append_dot (h : '.' ∉ whole) (fraction : List Char) :
    wholeDigits (whole ++ '.' :: fraction) = whole := by
  rw [wholeDigits, List.takeWhile_append_of_pos (ne_dot_of_notMem h)]
  simp

theorem fractionDigits_append_dot (h : '.' ∉ whole) (fraction : List Char) :
    fractionDigits (whole ++ '.' :: fraction) = fraction := by
  rw [fractionDigits, List.dropWhile_append_of_pos (ne_dot_of_notMem h)]
  simp

theorem numeralValue_of_notMem (h : '.' ∉ cs) : numeralValue cs = digitsValue cs := by
  simp [numeralValue, wholeDigits_of_notMem h, fractionDigits_of_notMem h, digitsValue]

/-- The value with the dot moved to the end, as reading does it: it reads all digits as one number
and scales by the places behind the dot. -/
theorem numeralValue_append_dot (h : '.' ∉ whole) (fraction : List Char) :
    numeralValue (whole ++ '.' :: fraction) =
      digitsValue (whole ++ fraction) / 10 ^ fraction.length := by
  rw [numeralValue, wholeDigits_append_dot h, fractionDigits_append_dot h, digitsValue_append]
  push_cast
  rw [add_div, mul_div_cancel_right₀ _ (by positivity)]

/-! ### Spellings -/

theorem numeralValue_zero_cons (cs : List Char) : numeralValue ('0' :: cs) = numeralValue cs := by
  have hwhole : wholeDigits ('0' :: cs) = '0' :: wholeDigits cs := rfl
  have hfraction : fractionDigits ('0' :: cs) = fractionDigits cs := rfl
  have hvalue : digitsValue ('0' :: wholeDigits cs) = digitsValue (wholeDigits cs) := rfl
  rw [numeralValue, hwhole, hfraction, hvalue]
  rfl

/-- Nor does a zero at the end of a fraction: the number and its scale are both ten times as
great. -/
theorem numeralValue_concat_zero (h : '.' ∈ cs) : numeralValue (cs ++ ['0']) = numeralValue cs := by
  obtain ⟨whole, fraction, rfl, hfirst⟩ := List.eq_append_cons_of_mem h
  have hzero : digitValue '0' = 0 := rfl
  rw [List.append_assoc, List.cons_append, numeralValue_append_dot hfirst,
    numeralValue_append_dot hfirst, ← List.append_assoc, digitsValue_append_singleton, hzero,
    List.length_append, List.length_singleton, pow_succ]
  push_cast
  rw [add_zero, mul_comm (10 : ℚ), mul_div_mul_right _ _ (by norm_num)]

theorem numeralValue_concat_dot (h : '.' ∉ cs) :
    numeralValue (cs ++ ['.']) = numeralValue cs := by
  rw [numeralValue_append_dot h, numeralValue_of_notMem h]
  simp

/-- Another spelling is a numeral of the same value. -/
theorem Respells.numeralValue_eq {ds : List Char} (h : Respells cs ds) :
    numeralValue ds = numeralValue cs := by
  cases h with
  | leadingZero => exact numeralValue_zero_cons cs
  | trailingZero hdot => exact numeralValue_concat_zero hdot
  | trailingDot hdot => exact numeralValue_concat_dot hdot

theorem Respells.isNumeral {ds : List Char} (h : Respells cs ds) (hnumeral : IsNumeral cs) :
    IsNumeral ds := by
  obtain ⟨hchars, hdots, d, hmem, hdigit⟩ := hnumeral
  have hzero : isDigit '0' = true := by decide
  cases h with
  | leadingZero =>
    refine ⟨List.forall_mem_cons.2 ⟨.inl hzero, hchars⟩, ?_, d, List.mem_cons_of_mem _ hmem, hdigit⟩
    rwa [List.count_cons_of_ne (by decide)]
  | trailingZero hdot =>
    refine ⟨List.forall_mem_append.2 ⟨hchars, by simp [hzero]⟩, ?_, d, by simp [hmem], hdigit⟩
    rw [List.count_append]
    simpa using hdots
  | trailingDot hdot =>
    refine ⟨List.forall_mem_append.2 ⟨hchars, by simp⟩, ?_, d, by simp [hmem], hdigit⟩
    rw [List.count_append, List.count_eq_zero.2 hdot]
    simp

/-! ### Reading -/

theorem ofLiteral?_of_areDigits (hsome : cs ≠ []) (h : AreDigits cs) :
    ofLiteral? cs = some (ofDecimal false ⟨digitsValue cs, 0⟩) := by
  have htake : cs.takeWhile isDigit = cs := List.takeWhile_eq_self_iff.2 h
  have hdrop : cs.dropWhile isDigit = [] := List.dropWhile_eq_nil_iff.2 h
  simp [ofLiteral?, htake, hdrop, hsome]

theorem ofLiteral?_append_dot (hsome : whole ++ fraction ≠ []) (h : AreDigits (whole ++ fraction)) :
    ofLiteral? (whole ++ '.' :: fraction) =
      some (ofDecimal false ⟨digitsValue (whole ++ fraction), -(fraction.length : ℤ)⟩) := by
  obtain ⟨hwhole, hfraction⟩ := List.forall_mem_append.1 h
  have hdot : isDigit '.' = false := by decide
  have htake : (whole ++ '.' :: fraction).takeWhile isDigit = whole := by
    rw [List.takeWhile_append_of_pos hwhole, List.takeWhile_cons, hdot]
    simp
  have hdrop : (whole ++ '.' :: fraction).dropWhile isDigit = '.' :: fraction := by
    rw [List.dropWhile_append_of_pos hwhole, List.dropWhile_cons, hdot]
    simp
  have hdigits : fraction.all isDigit = true := List.all_eq_true.2 hfraction
  have heither : whole ≠ [] ∨ fraction ≠ [] := by
    rw [Ne, List.append_eq_nil_iff] at hsome
    tauto
  rw [ofLiteral?, htake, hdrop]
  exact if_pos ⟨rfl, hdigits, heither⟩

/-- Only numerals are read: a second dot or no digit at all stops the reader. -/
theorem isNumeral_of_ofLiteral? {x : Binary64} (h : ofLiteral? cs = some x) : IsNumeral cs := by
  have hsplit := List.takeWhile_append_dropWhile (p := isDigit) (l := cs)
  have hwhole : AreDigits (cs.takeWhile isDigit) := fun c hc => List.mem_takeWhile_imp hc
  simp only [ofLiteral?] at h
  split at h
  · next hnone =>
    rw [hnone, List.append_nil] at hsplit
    rw [hsplit] at hwhole h
    split_ifs at h with hempty
    exact (isNumeral_iff_of_notMem hwhole.dot_notMem).2 ⟨hempty, hwhole⟩
  · next dot fraction hrest =>
    split_ifs at h with hform
    obtain ⟨rfl, hdigits, heither⟩ := hform
    rw [← hsplit, hrest, isNumeral_append_dot_iff, Ne, List.append_eq_nil_iff, not_and_or]
    exact ⟨heither, List.forall_mem_append.2 ⟨hwhole, List.all_eq_true.1 hdigits⟩⟩

/-- A numeral is read as the number that its value is rounded to, infinity included. That infinity
is refused is the work of `readOperand`. -/
theorem IsNumeral.exists_roundsTo (h : IsNumeral cs) :
    ∃ code, RoundsTo (numeralValue cs * unitsPerOne) code ∧
      ofLiteral? cs = some (ofCode false code) := by
  by_cases hdot : '.' ∈ cs
  · obtain ⟨whole, fraction, rfl, hfirst⟩ := List.eq_append_cons_of_mem hdot
    obtain ⟨hsome, hdigits⟩ := isNumeral_append_dot_iff.1 h
    obtain ⟨code, hrounds, hcode⟩ :=
      exists_roundsTo_ofDecimal (digitsValue (whole ++ fraction)) fraction.length
    refine ⟨code, ?_, ?_⟩
    · rwa [numeralValue_append_dot hfirst]
    · rw [ofLiteral?_append_dot hsome hdigits, hcode]
  · obtain ⟨hsome, hdigits⟩ := (isNumeral_iff_of_notMem hdot).1 h
    obtain ⟨code, hrounds, hcode⟩ := exists_roundsTo_ofDecimal (digitsValue cs) 0
    rw [pow_zero, div_one] at hrounds
    refine ⟨code, ?_, ?_⟩
    · rwa [numeralValue_of_notMem hdot]
    · rw [ofLiteral?_of_areDigits hsome hdigits, ← hcode]
      rfl

end Numerals

/-! ### Operands -/

section Operands

variable {text other : String} {x y : Binary64}

/-- **What an operand is read as**: the number that its value is rounded to, if it is finite. -/
theorem readOperand_eq_ok_iff : readOperand text = .ok x ↔ IsDecimal text ∧
    ∃ code < infinityCode, RoundsTo (decimalValue text * unitsPerOne) code ∧
      x = ofCode false code := by
  unfold readOperand
  constructor
  · intro h
    split at h
    · next value hvalue =>
      split_ifs at h with hfinite
      obtain rfl := Except.ok.inj h
      have hnumeral := isNumeral_of_ofLiteral? hvalue
      obtain ⟨code, hrounds, hcode⟩ := hnumeral.exists_roundsTo
      obtain rfl := Option.some.inj (hvalue.symm.trans hcode)
      exact ⟨hnumeral, code, isFinite_ofCode.1 hfinite, hrounds, rfl⟩
    · cases h
  · rintro ⟨hdecimal, code, hfinite, hrounds, rfl⟩
    obtain ⟨code', hrounds', hcode⟩ := hdecimal.exists_roundsTo
    obtain rfl : code' = code :=
      (hrounds'.mono hrounds le_rfl).antisymm (hrounds.mono hrounds' le_rfl)
    rw [hcode]
    exact if_pos (isFinite_ofCode.2 hfinite)

/-- An operand is accepted if it is a decimal below the point of overflow. The bound is exact:
rounding takes everything from there on to infinity. -/
theorem exists_readOperand_eq_ok_iff : (∃ x, readOperand text = .ok x) ↔
    IsDecimal text ∧ decimalValue text < 2 ^ 1024 - 2 ^ 970 := by
  simp only [readOperand_eq_ok_iff, exists_and_left]
  refine and_congr_right fun hdecimal => ?_
  obtain ⟨code, hrounds, -⟩ := hdecimal.exists_roundsTo
  rw [← mul_unitsPerOne_lt_overflowUnits_iff]
  constructor
  · rintro ⟨-, code', hfinite, hrounds', -⟩
    exact hrounds'.lt_infinityCode_iff.1 hfinite
  · intro hbound
    exact ⟨_, code, hrounds.lt_infinityCode_iff.2 hbound, hrounds, rfl⟩

/-- Decimals of one value are read as one number, however they are spelled. -/
theorem readOperand_congr (hx : readOperand text = .ok x) (hother : IsDecimal other)
    (h : decimalValue other = decimalValue text) : readOperand other = .ok x := by
  obtain ⟨-, code, hfinite, hrounds, rfl⟩ := readOperand_eq_ok_iff.1 hx
  exact readOperand_eq_ok_iff.2 ⟨hother, code, hfinite, h ▸ hrounds, rfl⟩

theorem toRat_le_of_readOperand (hx : readOperand text = .ok x) (hy : readOperand other = .ok y)
    (h : decimalValue text ≤ decimalValue other) : x.toRat ≤ y.toRat := by
  obtain ⟨-, code, hfinite, hrounds, rfl⟩ := readOperand_eq_ok_iff.1 hx
  obtain ⟨-, code', hfinite', hrounds', rfl⟩ := readOperand_eq_ok_iff.1 hy
  exact hrounds.toRat_le hrounds' hfinite hfinite' h

/-- **Operands are read by their values.** The texts that are accepted are the decimals below the
point of overflow, and any other text is named in the error as it was given. The number that is
read is finite, is not negative, and is the value of the decimal rounded correctly. It is the same
for every decimal of that value, also for one that is spelled with more zeros or another dot, and
a decimal of a larger value is not read as a smaller number. -/
theorem readOperand_exact (text : String) :
    ((∃ x, readOperand text = .ok x) ↔
      IsDecimal text ∧ decimalValue text < 2 ^ 1024 - 2 ^ 970) ∧
    (∀ e, readOperand text = .error e → e = .invalidNumber text) ∧
    ∀ x, readOperand text = .ok x →
      x.isFinite = true ∧ 0 ≤ x.toRat ∧ IsCorrectlyRounded (decimalValue text) x ∧
      (∀ other, IsDecimal other → decimalValue other = decimalValue text →
        readOperand other = .ok x) ∧
      (∀ other, Respells (trim text).toList (trim other).toList → readOperand other = .ok x) ∧
      (∀ other y, readOperand other = .ok y → decimalValue text ≤ decimalValue other →
        x.toRat ≤ y.toRat) := by
  refine ⟨exists_readOperand_eq_ok_iff, fun e => readOperand_eq_error, fun x hx => ?_⟩
  obtain ⟨hdecimal, code, hfinite, hrounds, hcode⟩ := readOperand_eq_ok_iff.1 hx
  refine ⟨readOperand_isFinite hx, ?_, hcode ▸ hrounds.isCorrectlyRounded hfinite,
    fun other => readOperand_congr hx, fun other hspelling => ?_,
    fun other y => toRat_le_of_readOperand hx⟩
  · rw [hcode, toRat_ofCode hfinite]
    exact div_nonneg (Nat.cast_nonneg _) unitsPerOne_pos.le
  · rw [trim, trim, String.toList_ofList, String.toList_ofList] at hspelling
    exact readOperand_congr hx (hspelling.isNumeral hdecimal) hspelling.numeralValue_eq

end Operands

end ArithService
