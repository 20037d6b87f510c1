import Mathlib
import ArithService.Text.Bytes

/-!
# The bytes of a text

A text is read back from its bytes, their count is the length of the text in UTF-8, and texts are
ordered as their bytes.

## Main Definitions

* `octets` — the bytes of characters, shown as characters
-/

namespace ArithService

@[simp] theorem textOfBytes?_textBytes (text : String) :
    textOfBytes? (textBytes text) = some text := by
  rw [textOfBytes?, String.fromUTF8?]
  exact dif_pos text.isValidUTF8

theorem textBytes_inj {s t : String} : textBytes s = textBytes t ↔ s = t := by
  refine ⟨fun h => ?_, congrArg textBytes⟩
  have hread := textOfBytes?_textBytes s
  rw [h, textOfBytes?_textBytes] at hread
  exact (Option.some.inj hread).symm

/-- A text has as many bytes as its size says, which is what limits on bodies are about. -/
theorem length_textBytes_eq_size (text : String) : (textBytes text).length = text.utf8ByteSize := by
  simp [textBytes, String.toUTF8]

theorem length_textBytes (text : String) :
    (textBytes text).length = String.utf8Len text.toList := by
  rw [length_textBytes_eq_size, ← String.utf8ByteSize_ofList, String.ofList_toList]

/-! ### Order -/

/-- A smaller character is encoded by smaller bytes, whatever follows. The four lengths of an
encoding begin with different bytes, so a shorter one is never a beginning of a longer one. -/
theorem utf8EncodeChar_append_lt {c d : Char} (h : c < d) (x y : Bytes) :
    String.utf8EncodeChar c ++ x < String.utf8EncodeChar d ++ y := by
  have hless : c.val.toNat < d.val.toNat := h
  have hrange : d.val.toNat < 0x110000 := by
    rcases d.valid with hlow | ⟨-, hhigh⟩
    · have : d.val.toNat < 0xd800 := hlow
      omega
    · exact hhigh
  simp only [String.utf8EncodeChar]
  generalize c.val.toNat = m at hless ⊢
  generalize d.val.toNat = n at hless hrange ⊢
  -- Bytes are compared as numbers. A longer encoding begins with a larger byte, and encodings of
  -- one length are the digits of the two characters in base 64.
  split_ifs
  all_goals
    simp (disch := omega) only [List.cons_append, List.nil_append, List.cons_lt_cons_iff,
      UInt8.lt_iff_toNat_lt, ← UInt8.toNat_inj, UInt8.toNat_ofNat', Nat.reducePow,
      Nat.mod_eq_of_lt]
    omega

/-- The bytes of a text are those of its characters. -/
theorem textBytes_eq_flatMap (text : String) :
    textBytes text = text.toList.flatMap String.utf8EncodeChar := by
  have h : text.toByteArray = text.toList.utf8Encode := by
    rw [← String.toByteArray_ofList, String.ofList_toList]
  rw [textBytes, String.toUTF8, h, List.utf8Encode, List.toList_data_toByteArray]

theorem textBytes_lt_of_lt {s t : String} (h : s < t) : textBytes s < textBytes t := by
  rw [String.lt_iff] at h
  rw [textBytes_eq_flatMap, textBytes_eq_flatMap]
  generalize s.toList = cs at h ⊢
  generalize t.toList = ds at h ⊢
  induction h with
  | @nil c cs =>
    obtain ⟨b, bs, hb⟩ := List.exists_cons_of_ne_nil (String.utf8EncodeChar_ne_nil (c := c))
    rw [List.flatMap_cons, hb]
    exact List.nil_lt_cons _ _
  | rel h => exact utf8EncodeChar_append_lt h _ _
  | cons _ ih => exact List.append_left_lt ih

/-- Texts are ordered as their bytes. So it does not matter which of the two a table compares. -/
theorem textBytes_lt_iff {s t : String} : textBytes s < textBytes t ↔ s < t := by
  refine ⟨fun h => ?_, textBytes_lt_of_lt⟩
  rcases lt_trichotomy s t with hlt | rfl | hgt
  · exact hlt
  · exact (List.lt_irrefl _ h).elim
  · exact (List.lt_asymm h (textBytes_lt_of_lt hgt)).elim

/-! ### Bytes as characters -/

/-- The bytes of characters, shown as characters. -/
def octets (cs : List Char) : List Char := byteChars (cs.flatMap String.utf8EncodeChar)

theorem byteChars_textBytes (text : String) : byteChars (textBytes text) = octets text.toList := by
  rw [textBytes_eq_flatMap, octets]

theorem octets_append (cs ds : List Char) : octets (cs ++ ds) = octets cs ++ octets ds := by
  simp [octets, byteChars]

theorem utf8EncodeChar_of_ascii {c : Char} (hc : c.toNat < 128) :
    String.utf8EncodeChar c = [UInt8.ofNat c.toNat] := by
  have hlow : c.val.toNat ≤ 0x7f := Nat.le_of_lt_succ hc
  simp only [String.utf8EncodeChar, if_pos hlow]
  rfl

/-- A character of ASCII is one byte, which is shown as this character. So the signs of a document
can be read from its bytes. -/
theorem octets_cons {c : Char} (hc : c.toNat < 128) (cs : List Char) :
    octets (c :: cs) = c :: octets cs := by
  have hbyte : (UInt8.ofNat c.toNat).toNat = c.toNat := by
    rw [UInt8.toNat_ofNat']
    omega
  rw [octets, List.flatMap_cons, utf8EncodeChar_of_ascii hc]
  simp [byteChars, octets, hbyte]

/-- Texts of ASCII are shown as they are. -/
theorem octets_eq_self {cs : List Char} (h : ∀ c ∈ cs, c.toNat < 128) : octets cs = cs := by
  induction cs with
  | nil => rfl
  | cons c cs ih =>
    rw [octets_cons (h c List.mem_cons_self), ih fun d hd => h d (List.mem_cons_of_mem c hd)]

/-- Bytes outside ASCII make up all other characters, so that no byte of them can be taken for a
token, a quote or a backslash. -/
theorem le_toNat_of_mem_utf8EncodeChar {c : Char} (hc : 128 ≤ c.toNat) {b : UInt8}
    (hb : b ∈ String.utf8EncodeChar c) : 128 ≤ b.toNat := by
  have hhigh : ¬ c.val.toNat ≤ 0x7f := Nat.not_le.2 hc
  simp only [String.utf8EncodeChar, if_neg hhigh] at hb
  split_ifs at hb
  all_goals
    simp only [List.mem_cons, List.not_mem_nil, or_false] at hb
    rcases hb with rfl | rfl | rfl | rfl
  all_goals
    rw [UInt8.toNat_ofNat']
    omega

end ArithService
