import Mathlib
import ArithService.Json.Reader
import ArithService.Json.Writer
import ArithService.Proofs.Text.Bytes
import ArithService.Proofs.Text.Integers

/-!
# JSON is read back

What is written as JSON is read as the document it was written for: every text as a string,
whatever its characters, every integer as a number, and members as an object.

## Main Definitions

* `EndsToken` — what may follow a value inside a document
* `ReadsAs` — bytes that are read as a value, wherever they stand

## Design Notes

A string is read one escape or one byte at a time, and every character is one escape or the bytes
that encode it, so the induction is on the text and not on what was written. Readers of values are
bounded by a count; `ReadsAs` asks for any count above the number of bytes, so that it can be used
for values inside values.
-/

namespace ArithService

/-! ### Strings -/

theorem hexValue?_hexDigit {d : Nat} (hd : d < 16) : hexValue? (hexDigit d) = some d := by
  interval_cases d <;> decide

/-- Four digits are read as one unit. Escapes are written for control characters only, so two of the
four are always zeros. -/
theorem readUnit_hexDigits {n : Nat} (hn : n < 256) (rest : List Char) :
    readUnit ('0' :: '0' :: hexDigit (n / 16) :: hexDigit (n % 16) :: rest) = some (n, rest) := by
  have hzero : hexValue? '0' = some 0 := by decide
  have hhigh : hexValue? (hexDigit (n / 16)) = some (n / 16) := hexValue?_hexDigit (by omega)
  have hlow : hexValue? (hexDigit (n % 16)) = some (n % 16) := hexValue?_hexDigit (by omega)
  have hunit : ((16 * 0 + 0) * 16 + n / 16) * 16 + n % 16 = n := by omega
  simp only [readUnit, List.take_succ_cons, List.take_zero, List.mapM_cons, List.mapM_nil, hzero,
    hhigh, hlow, Option.bind_eq_bind, Option.bind_some, Option.pure_def, hunit, List.drop_succ_cons,
    List.drop_zero]

/-- A control character is read from the number of its escape. Its number is no surrogate, so no
second unit is waited for. -/
theorem readEscape_control {c : Char} (hc : c.toNat < 32) (rest : List Char) :
    readEscape ('u' :: '0' :: '0' :: hexDigit (c.toNat / 16) :: hexDigit (c.toNat % 16) :: rest) =
      some (some c, rest) := by
  have hhigh : ¬ (0xd800 ≤ c.toNat ∧ c.toNat ≤ 0xdbff) := by omega
  have hlow : ¬ (0xdc00 ≤ c.toNat ∧ c.toNat ≤ 0xdfff) := by omega
  simp only [readEscape, readUnit_hexDigits (show c.toNat < 256 by omega), if_neg hhigh,
    if_neg hlow, Char.ofNat_toNat]

/-- Bytes that are neither a quote nor a backslash nor a control character are taken as they are,
one step for each. They need not belong to one character, as they are only put together at the
end. -/
theorem readStringOnto_bytes {bs : Bytes}
    (hplain : ∀ b ∈ bs, 32 ≤ b.toNat ∧ b.toNat ≠ 34 ∧ b.toNat ≠ 92) (fuel : Nat) (before : Bytes)
    (rest : List Char) :
    readStringOnto (fuel + bs.length) (some before) (byteChars bs ++ rest) =
      readStringOnto fuel (some (bs.reverse ++ before)) rest := by
  induction bs generalizing before with
  | nil => rfl
  | cons b bs ih =>
    obtain ⟨hcontrol, hquote, hbackslash⟩ := hplain b List.mem_cons_self
    have hchar : (Char.ofNat b.toNat).toNat = b.toNat :=
      (Char.toNat_ofNat _).trans (if_pos (.inl (Nat.lt_trans b.toNat_lt (by decide))))
    have hne : ∀ c : Char, b.toNat ≠ c.toNat → Char.ofNat b.toNat ≠ c := by
      rintro c hother rfl
      exact hother hchar.symm
    show readStringOnto (fuel + bs.length + 1) (some before)
      (Char.ofNat b.toNat :: (byteChars bs ++ rest)) = _
    rw [readStringOnto, if_neg (hne '"' hquote), if_neg (hne '\\' hbackslash), hchar,
      if_neg (Nat.not_lt.2 hcontrol), Option.map_some, UInt8.ofNat_toNat,
      ih (fun d hd => hplain d (List.mem_cons_of_mem b hd))]
    simp

theorem toNat_hexDigit_lt {d : Nat} (hd : d < 16) : (hexDigit d).toNat < 128 := by
  interval_cases d <;> decide

/-- **A character is written as it is, or as an escape** in ASCII that is read back. What is written
as it is can be taken neither for the end of the string nor for an escape. -/
theorem escapeChar_cases (c : Char) :
    (escapeChar c = [c] ∧ 32 ≤ c.toNat ∧ c.toNat ≠ 34 ∧ c.toNat ≠ 92) ∨
      ∃ tail, escapeChar c = '\\' :: tail ∧ (∀ d ∈ tail, d.toNat < 128) ∧
        ∀ rest, readEscape (tail ++ rest) = some (some c, rest) := by
  unfold escapeChar
  split_ifs with hquote hbackslash hnewline hreturn htab hbackspace hformFeed hcontrol
  · subst hquote
    exact .inr ⟨_, rfl, by simp, fun _ => rfl⟩
  · subst hbackslash
    exact .inr ⟨_, rfl, by simp, fun _ => rfl⟩
  · subst hnewline
    exact .inr ⟨_, rfl, by simp, fun _ => rfl⟩
  · subst hreturn
    exact .inr ⟨_, rfl, by simp, fun _ => rfl⟩
  · subst htab
    exact .inr ⟨_, rfl, by simp, fun _ => rfl⟩
  · obtain rfl : c = '\x08' := Char.toNat_inj.1 hbackspace
    exact .inr ⟨_, rfl, by simp, fun _ => rfl⟩
  · obtain rfl : c = '\x0c' := Char.toNat_inj.1 hformFeed
    exact .inr ⟨_, rfl, by simp, fun _ => rfl⟩
  · have hhigh : (hexDigit (c.toNat / 16)).toNat < 128 := toNat_hexDigit_lt (by omega)
    have hlow : (hexDigit (c.toNat % 16)).toNat < 128 := toNat_hexDigit_lt (by omega)
    refine .inr ⟨_, rfl, ?_, fun rest => readEscape_control hcontrol rest⟩
    simp [hhigh, hlow]
  · exact .inl ⟨rfl, Nat.not_lt.1 hcontrol, fun h => hquote (Char.toNat_inj.1 h),
      fun h => hbackslash (Char.toNat_inj.1 h)⟩

/-- Every character is read back from its escape, or from its bytes. Either takes no more steps than
there are bytes, which is what makes a count of bytes enough for the reader. -/
theorem exists_readStringOnto_escapeChar (c : Char) :
    ∃ steps ≤ (octets (escapeChar c)).length, ∀ fuel before rest,
      readStringOnto (fuel + steps) (some before) (octets (escapeChar c) ++ rest) =
        readStringOnto fuel (some ((String.utf8EncodeChar c).reverse ++ before)) rest := by
  rcases escapeChar_cases c with ⟨hwritten, hplain⟩ | ⟨tail, hwritten, hascii, hread⟩
  · have hbytes : octets (escapeChar c) = byteChars (String.utf8EncodeChar c) := by
      rw [hwritten, octets, List.flatMap_singleton]
    refine ⟨(String.utf8EncodeChar c).length, by rw [hbytes]; simp [byteChars],
      fun fuel before rest => ?_⟩
    rw [hbytes, readStringOnto_bytes fun b hb => ?_]
    by_cases hascii : c.toNat < 128
    · rw [utf8EncodeChar_of_ascii hascii, List.mem_singleton] at hb
      have hvalue : b.toNat = c.toNat := by
        rw [hb, UInt8.toNat_ofNat']
        omega
      rwa [hvalue]
    · have hhigh := le_toNat_of_mem_utf8EncodeChar (Nat.not_lt.1 hascii) hb
      omega
  · have hbytes : octets (escapeChar c) = '\\' :: tail := by
      rw [hwritten, octets_cons (by decide), octets_eq_self hascii]
    refine ⟨1, by rw [hbytes]; simp, fun fuel before rest => ?_⟩
    rw [hbytes, List.cons_append, readStringOnto, if_neg (by decide), if_pos rfl, hread]
    rfl

/-- The characters of a string are put together again from the bytes that are read for them. The
bytes collected so far are arbitrary: the induction is on the characters that are left. -/
theorem readStringOnto_flatMap {fuel : Nat} {cs : List Char}
    (hfuel : (octets (cs.flatMap escapeChar)).length < fuel) (before : Bytes) (rest : List Char) :
    readStringOnto fuel (some before) (octets (cs.flatMap escapeChar) ++ '"' :: rest) =
      some (textOfBytes? (before.reverse ++ cs.flatMap String.utf8EncodeChar), rest) := by
  induction cs generalizing fuel before with
  | nil =>
    obtain ⟨fuel, rfl⟩ := Nat.exists_eq_add_of_lt hfuel
    show readStringOnto (_ + 1) (some before) ('"' :: rest) = _
    rw [readStringOnto, if_pos rfl, List.flatMap_nil, List.append_nil]
    rfl
  | cons c cs ih =>
    obtain ⟨steps, hsteps, hread⟩ := exists_readStringOnto_escapeChar c
    rw [List.flatMap_cons, octets_append] at hfuel ⊢
    rw [List.length_append] at hfuel
    obtain ⟨left, rfl⟩ : ∃ left, fuel = left + steps := ⟨fuel - steps, by omega⟩
    rw [List.append_assoc, hread, ih (by omega), List.reverse_append, List.reverse_reverse,
      List.append_assoc, List.flatMap_cons]

/-- **Every text is read back** after the quote before it. -/
theorem readString_flatMap (text : String) (rest : List Char) :
    readString (octets (text.toList.flatMap escapeChar) ++ '"' :: rest) =
      some (some text, rest) := by
  have hfuel : (octets (text.toList.flatMap escapeChar)).length <
      (octets (text.toList.flatMap escapeChar) ++ '"' :: rest).length + 1 := by
    rw [List.length_append]
    omega
  rw [readString, readStringOnto_flatMap hfuel, List.reverse_nil, List.nil_append,
    ← textBytes_eq_flatMap, textOfBytes?_textBytes]

theorem octets_jsonString (text : String) :
    octets (jsonString text).toList = '"' :: (octets (text.toList.flatMap escapeChar) ++ ['"']) := by
  rw [jsonString, String.toList_ofList, octets_cons (by decide), octets_append,
    octets_cons (by decide)]
  rfl

/-! ### Values -/

/-- What may follow a value inside a document. -/
def EndsToken (rest : List Char) : Prop :=
  ∀ c ∈ rest.head?, c = ',' ∨ c = ']' ∨ c = '\x7d'

/-- Bytes, shown as characters, that are read as a value, wherever they stand. -/
def ReadsAs (cs : List Char) (v : JsonValue) : Prop :=
  ∀ fuel rest, cs.length < fuel → EndsToken rest → readValue fuel (cs ++ rest) = some (v, rest)

/-- A text that is read as a value is a document by itself: nothing may follow the value in one, and
nothing is an end of a value. -/
theorem ReadsAs.ofBytes? {text : String} {v : JsonValue} (h : ReadsAs (octets text.toList) v) :
    JsonValue.ofBytes? (textBytes text) = some v := by
  have hread : readValue (2 * (octets text.toList).length + 2) (octets text.toList) =
      some (v, []) := by
    have hwhole := h (2 * (octets text.toList).length + 2) [] (by omega) (by simp [EndsToken])
    rwa [List.append_nil] at hwhole
  simp only [JsonValue.ofBytes?, byteChars_textBytes, hread]
  rfl

/-- A text that is written as a string is read as that text, wherever the string stands. -/
theorem readsAs_jsonString (text : String) :
    ReadsAs (octets (jsonString text).toList) (.string (some text)) := by
  intro fuel rest hfuel _
  obtain ⟨fuel, rfl⟩ := Nat.exists_eq_add_of_lt hfuel
  rw [octets_jsonString, List.cons_append, List.append_assoc, List.singleton_append]
  show (readString _).map _ = _
  rw [readString_flatMap]
  rfl

/-- Space is skipped up to the first other character. Nothing that is written has any. -/
theorem skipSpace_cons {c : Char} (hc : isJsonSpace c = false) (cs : List Char) :
    skipSpace (c :: cs) = c :: cs := by
  rw [skipSpace, List.dropWhile_cons, hc]
  rfl

/-! ### Numbers -/

/-- A positive number does not begin with a zero, after which a reader would expect no more
digits. -/
theorem head?_toDigits_ne {n : Nat} (hn : 0 < n) : (Nat.toDigits 10 n).head? ≠ some '0' := by
  induction n using Nat.strong_induction_on with
  | _ n ih =>
    by_cases hsmall : n < 10
    · rw [Nat.toDigits_of_lt_base hsmall]
      interval_cases n <;> decide
    · rw [Nat.toDigits_of_base_le (by decide) (by omega),
        List.head?_append_of_ne_nil _ Nat.toDigits_ne_nil]
      exact ih (n / 10) (by omega) (by omega)

theorem EndsToken.not_isDigit {rest : List Char} (h : EndsToken rest) :
    ∀ c ∈ rest.head?, isDigit c = false := by
  intro c hc
  rcases h c hc with rfl | rfl | rfl <;> decide

/-- Digits are read up to the end of the value, neither fewer of them nor anything more. -/
theorem readDigitRun_append {ds rest : List Char} (hdigits : ∀ c ∈ ds, isDigit c = true)
    (hsome : ds ≠ []) (hrest : EndsToken rest) : readDigitRun (ds ++ rest) = some (ds, rest) := by
  have hrun : (ds ++ rest).takeWhile isDigit = ds := by
    rw [List.takeWhile_append_of_pos hdigits]
    cases rest with
    | nil => simp
    | cons c rest => simp [hrest.not_isDigit c rfl]
  simp only [readDigitRun, hrun, if_neg hsome, List.drop_left]

theorem readWhole_toDigits (n : Nat) {rest : List Char} (hrest : EndsToken rest) :
    readWhole (Nat.toDigits 10 n ++ rest) = some (Nat.toDigits 10 n, rest) := by
  have hrun := readDigitRun_append (fun c hc => isDigit_of_mem_toDigits hc)
    (Nat.toDigits_ne_nil (b := 10) (n := n)) hrest
  have hlead : ¬ ((Nat.toDigits 10 n).head? = some '0' ∧ (Nat.toDigits 10 n).length ≠ 1) := by
    rintro ⟨hzero, hlong⟩
    rcases Nat.eq_zero_or_pos n with rfl | hn
    · exact hlong rfl
    · exact head?_toDigits_ne hn hzero
  simp only [readWhole, hrun, if_neg hlead]

theorem readFractionPart_endsToken {rest : List Char} (hrest : EndsToken rest) :
    readFractionPart rest = some ([], rest) := by
  cases rest with
  | nil => rfl
  | cons c rest => rcases hrest c rfl with rfl | rfl | rfl <;> rfl

theorem readExponentPart_endsToken {rest : List Char} (hrest : EndsToken rest) :
    readExponentPart rest = some ([], rest) := by
  cases rest with
  | nil => rfl
  | cons c rest => rcases hrest c rfl with rfl | rfl | rfl <;> rfl

/-- A value that begins with a digit or a minus sign is a number. -/
theorem readValue_number {c : Char} (hc : isDigit c = true ∨ c = '-') (fuel : Nat)
    (cs : List Char) :
    readValue (fuel + 1) (c :: cs) =
      (readNumberLiteral (c :: cs)).map fun (literal, rest) => (.number literal, rest) := by
  have hother : ∀ d : Char, isDigit d = false → d ≠ '-' → c ≠ d := by
    rintro d hdigit hminus rfl
    simp [hdigit, hminus] at hc
  have hspace : isJsonSpace c = false := by
    simp [isJsonSpace, hother ' ' (by decide) (by decide), hother '\n' (by decide) (by decide),
      hother '\r' (by decide) (by decide), hother '\t' (by decide) (by decide)]
  rw [readValue, skipSpace_cons hspace]
  simp only [if_neg (hother '"' (by decide) (by decide)),
    if_neg (hother '[' (by decide) (by decide)), if_neg (hother '\x7b' (by decide) (by decide)),
    if_neg (hother 't' (by decide) (by decide)), if_neg (hother 'f' (by decide) (by decide)),
    if_neg (hother 'n' (by decide) (by decide))]

theorem readNumberLiteral_toDigits (n : Nat) {rest : List Char} (hrest : EndsToken rest) :
    readNumberLiteral (Nat.toDigits 10 n ++ rest) = some (Nat.toDigits 10 n, rest) := by
  have hwhole := readWhole_toDigits n hrest
  obtain ⟨d, ds, hcases, hdigit⟩ := exists_toDigits_eq_cons n
  have hminus : d ≠ '-' := ne_of_isDigit hdigit (by decide)
  rw [hcases, List.cons_append] at hwhole
  rw [hcases, List.cons_append]
  simp [readNumberLiteral, hwhole, hminus, readFractionPart_endsToken hrest,
    readExponentPart_endsToken hrest]

/-- The text of an integer is ASCII, so it is the same in characters as in bytes. -/
theorem octets_toString (n : Int) : octets (toString n).toList = (toString n).toList := by
  have hdigits : ∀ m, ∀ c ∈ Nat.toDigits 10 m, c.toNat < 128 := by
    intro m c hc
    have hdigit := isDigit_of_mem_toDigits hc
    simp only [isDigit, Bool.and_eq_true, decide_eq_true_eq] at hdigit
    exact Nat.lt_of_le_of_lt hdigit.2 (by decide)
  refine octets_eq_self fun c hc => ?_
  cases n with
  | ofNat m =>
    rw [show (toString (Int.ofNat m)).toList = _ from toList_toString_ofNat m] at hc
    exact hdigits m c hc
  | negSucc m =>
    rw [toList_toString_negSucc] at hc
    rcases List.mem_cons.1 hc with rfl | hc
    · decide
    · exact hdigits _ c hc

/-- **Every integer is read** as the number with its own text. -/
theorem readsAs_toString (n : Int) :
    ReadsAs (octets (toString n).toList) (.number (toString n).toList) := by
  intro fuel rest hfuel hrest
  rw [octets_toString]
  obtain ⟨fuel, rfl⟩ : ∃ more, fuel = more + 1 := ⟨fuel - 1, by omega⟩
  cases n with
  | ofNat m =>
    have htext : (toString (Int.ofNat m)).toList = Nat.toDigits 10 m := toList_toString_ofNat m
    have hliteral := readNumberLiteral_toDigits m hrest
    obtain ⟨d, ds, hcases, hdigit⟩ := exists_toDigits_eq_cons m
    rw [hcases, List.cons_append] at hliteral
    rw [htext, hcases, List.cons_append, readValue_number (.inl hdigit), hliteral]
    rfl
  | negSucc m =>
    have hwhole := readWhole_toDigits (m + 1) hrest
    rw [toList_toString_negSucc, List.cons_append, readValue_number (.inr rfl)]
    simp [readNumberLiteral, hwhole, readFractionPart_endsToken hrest,
      readExponentPart_endsToken hrest]

theorem digitsValue_toDigits (n : Nat) : digitsValue (Nat.toDigits 10 n) = n :=
  Nat.ofDigitChars_ten_toDigits

theorem all_isDigit_toDigits (n : Nat) : (Nat.toDigits 10 n).all isDigit = true :=
  List.all_eq_true.2 fun _ hc => isDigit_of_mem_toDigits hc

/-- The text of an integer of 64 bits has it for its value. Numbers are kept as texts when they are
read, so this is the only place where a bound comes in. -/
theorem int64?_toString {n : Int} (h : IsInt64 n) :
    (JsonValue.number (toString n).toList).int64? = some n := by
  obtain ⟨hlow, hhigh⟩ := h
  cases n with
  | ofNat m =>
    have htext : (toString (Int.ofNat m)).toList = Nat.toDigits 10 m := toList_toString_ofNat m
    have hsmall : m < 0x8000000000000000 := by
      have hm : (m : Int) < 2 ^ 63 := hhigh
      omega
    have hall := all_isDigit_toDigits m
    have hvalue := digitsValue_toDigits m
    obtain ⟨d, ds, hcases, hdigit⟩ := exists_toDigits_eq_cons m
    have hminus : d ≠ '-' := ne_of_isDigit hdigit (by decide)
    rw [hcases] at hall hvalue
    rw [htext, hcases]
    simp [JsonValue.int64?, hminus, hall, hvalue, hsmall]
  | negSucc m =>
    have hsmall : m + 1 ≤ 0x8000000000000000 := by
      rw [Int.negSucc_eq] at hlow
      omega
    have hzero : Nat.toDigits 10 (m + 1) ≠ ['0'] := by
      intro hdigits
      exact head?_toDigits_ne (Nat.succ_pos m) (by rw [hdigits]; rfl)
    rw [toList_toString_negSucc]
    simp [JsonValue.int64?, all_isDigit_toDigits, digitsValue_toDigits, hsmall, hzero,
      Int.negSucc_eq]

/-! ### Objects -/

/-- The bytes of a member. -/
def memberText (m : String × String) : List Char :=
  octets (jsonString m.1).toList ++ ':' :: octets m.2.toList

/-- The bytes of members, without the braces around them. -/
def membersText (members : List (String × String)) : List Char :=
  [','].intercalate (members.map memberText)

theorem membersText_singleton (m : String × String) : membersText [m] = memberText m := by
  simp [membersText, List.intercalate]

theorem membersText_cons_cons (m n : String × String) (members : List (String × String)) :
    membersText (m :: n :: members) = memberText m ++ ',' :: membersText (n :: members) := by
  simp [membersText, List.intercalate]

/-- Separating texts by commas separates their bytes by commas. -/
theorem octets_intercalate (parts : List (List Char)) :
    octets ([','].intercalate parts) = [','].intercalate (parts.map octets) := by
  have hcomma : octets [','] = [','] := octets_cons (by decide) []
  induction parts with
  | nil => rfl
  | cons first rest ih =>
    cases rest with
    | nil => simp [List.intercalate]
    | cons second rest =>
      simp only [List.intercalate, List.map_cons, List.intersperse_cons_cons, List.flatten_cons]
        at ih ⊢
      rw [octets_append, octets_append, ih, hcomma]

theorem octets_member (m : String × String) :
    octets (jsonString m.1 ++ ":" ++ m.2).toList = memberText m := by
  have hcolon : ":".toList = [':'] := rfl
  rw [String.toList_append, String.toList_append, List.append_assoc, octets_append, hcolon,
    List.singleton_append, octets_cons (by decide), memberText]

theorem octets_jsonObject (members : List (String × String)) :
    octets (jsonObject members).toList = '\x7b' :: (membersText members ++ ['\x7d']) := by
  have hopen : "\x7b".toList = ['\x7b'] := rfl
  have hclose : "\x7d".toList = ['\x7d'] := rfl
  have hcomma : ",".toList = [','] := rfl
  have hmembers : ∀ text : String × String → String,
      (∀ m, octets (text m).toList = memberText m) →
      ((members.map text).map String.toList).map octets = members.map memberText := by
    intro text htext
    rw [List.map_map, List.map_map]
    exact List.map_congr_left fun m _ => htext m
  rw [jsonObject, String.toList_append, String.toList_append, String.toList_intercalate, hopen,
    hclose, hcomma, List.singleton_append, List.cons_append, octets_cons (by decide),
    octets_append, octets_intercalate, hmembers, octets_cons (by decide)]
  · rfl
  · exact octets_member

/-- A member that is read as it was meant: its name and its value. -/
def MemberReadsAs (m : String × String) (f : Option String × JsonValue) : Prop :=
  f.1 = some m.1 ∧ ReadsAs (octets m.2.toList) f.2

section Members

variable {m : String × String} {f : Option String × JsonValue} {fuel : Nat}

/-- Where the quotes and the colon of a member stand, for the reader to meet them one by one. -/
theorem memberText_append (m : String × String) (rest : List Char) :
    memberText m ++ rest =
      '"' :: (octets (m.1.toList.flatMap escapeChar) ++
        '"' :: ':' :: (octets m.2.toList ++ rest)) := by
  simp [memberText, octets_jsonString]

/-- The last member of an object is read, and with it the object. -/
theorem readMembers_close (h : MemberReadsAs m f) (hfuel : (octets m.2.toList).length < fuel)
    (before : List (Option String × JsonValue)) (rest : List Char) :
    readMembers (fuel + 1) before (memberText m ++ '\x7d' :: rest) =
      some (.object (f :: before).reverse, rest) := by
  have hvalue := h.2 fuel ('\x7d' :: rest) hfuel (by simp [EndsToken])
  have hfield : (some m.1, f.2) = f := by rw [← h.1]
  rw [memberText_append, readMembers]
  simp (disch := decide) only [skipSpace_cons, readString_flatMap, hvalue, hfield]

/-- A member before others is read, and the others after it. -/
theorem readMembers_comma (h : MemberReadsAs m f) (hfuel : (octets m.2.toList).length < fuel)
    (before : List (Option String × JsonValue)) (rest : List Char) :
    readMembers (fuel + 1) before (memberText m ++ ',' :: rest) =
      readMembers fuel (f :: before) rest := by
  have hvalue := h.2 fuel (',' :: rest) hfuel (by simp [EndsToken])
  have hfield : (some m.1, f.2) = f := by rw [← h.1]
  rw [memberText_append, readMembers]
  simp (disch := decide) only [skipSpace_cons, readString_flatMap, hvalue, hfield]

/-- A member is longer than its value, so the count that is left suffices for the value. -/
theorem length_lt_memberText (m : String × String) :
    (octets m.2.toList).length < (memberText m).length := by
  simp only [memberText, List.length_append, List.length_cons]
  omega

/-- Members are read one by one, after those that were read before. The induction is on the members
that are left, the first one apart, as no object of members is empty. -/
theorem readMembers_membersText {members : List (String × String)}
    {fields : List (Option String × JsonValue)} (h : MemberReadsAs m f)
    (hothers : List.Forall₂ MemberReadsAs members fields)
    (hfuel : (membersText (m :: members)).length < fuel)
    (before : List (Option String × JsonValue)) (rest : List Char) :
    readMembers fuel before (membersText (m :: members) ++ '\x7d' :: rest) =
      some (.object (before.reverse ++ f :: fields), rest) := by
  induction hothers generalizing m f fuel before with
  | nil =>
    have hvalue := length_lt_memberText m
    rw [membersText_singleton] at hfuel ⊢
    obtain ⟨fuel, rfl⟩ : ∃ more, fuel = more + 1 := ⟨fuel - 1, by omega⟩
    rw [readMembers_close h (by omega)]
    simp
  | @cons n g members fields hnext _ ih =>
    have hvalue := length_lt_memberText m
    rw [membersText_cons_cons, List.length_append, List.length_cons] at hfuel
    obtain ⟨fuel, rfl⟩ : ∃ more, fuel = more + 1 := ⟨fuel - 1, by omega⟩
    rw [membersText_cons_cons, List.append_assoc, List.cons_append, readMembers_comma h (by omega),
      ih hnext (by omega)]
    simp

/-- Members begin with the quote before the first name. -/
theorem exists_membersText_eq_cons (m : String × String) (members : List (String × String)) :
    ∃ rest, membersText (m :: members) = '"' :: rest := by
  cases members with
  | nil =>
    rw [membersText_singleton, ← List.append_nil (memberText m), memberText_append]
    exact ⟨_, rfl⟩
  | cons n members =>
    rw [membersText_cons_cons, memberText_append]
    exact ⟨_, rfl⟩

end Members

/-- **An object is read as its members**, if each of them is read as it was meant. -/
theorem readsAs_jsonObject {members : List (String × String)}
    {fields : List (Option String × JsonValue)}
    (h : List.Forall₂ MemberReadsAs members fields) :
    ReadsAs (octets (jsonObject members).toList) (.object fields) := by
  intro fuel rest hfuel _
  obtain ⟨fuel, rfl⟩ : ∃ more, fuel = more + 1 := ⟨fuel - 1, by omega⟩
  rw [octets_jsonObject] at hfuel ⊢
  rw [List.length_cons, List.length_append, List.length_singleton] at hfuel
  cases h with
  | nil => rfl
  | @cons m f members fields hfirst hothers =>
    have hmembers : readMembers fuel [] (membersText (m :: members) ++ '\x7d' :: rest) =
        some (.object (f :: fields), rest) :=
      readMembers_membersText hfirst hothers (by omega) [] rest
    obtain ⟨first, hquote⟩ := exists_membersText_eq_cons m members
    rw [List.cons_append, List.append_assoc, List.singleton_append]
    rw [hquote, List.cons_append] at hmembers ⊢
    exact hmembers

end ArithService
