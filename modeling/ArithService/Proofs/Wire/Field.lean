import Mathlib
import ArithService.Wire.Field

/-!
# Fields arrive as they are sent

Reading the encoding of a sequence of fields gives the fields back.

## Main Definitions

* `Payload.Fits`, `Field.Fits` — lengths and field numbers that can be announced

## Design Notes

Every reader is shown to read one encoding and to leave whatever bytes follow it, so that the
lemmas compose: groups of bits to a number, a number to a payload, a payload to a field.
-/

namespace ArithService

/-! ### Numbers -/

/-- A number is read back from its groups of seven bits, as long as there are enough of them. The
count of groups is in both readers, so the induction is on it. -/
theorem readGroups_varintGroups {more n : Nat} (h : n < 2 * 128 ^ more) (rest : Bytes) :
    readGroups more (varintGroups more n ++ rest) = some (n, rest) := by
  induction more generalizing n with
  | zero =>
    have hlast : n < 2 := by simpa using h
    have hbyte : (UInt8.ofNat n).toNat = n :=
      UInt8.toNat_ofNat_of_lt' (hlast.trans (by decide))
    simp only [varintGroups, List.singleton_append, readGroups, hbyte, if_pos hlast]
  | succ more ih =>
    rw [varintGroups]
    split_ifs with hlast
    · have hbyte : (UInt8.ofNat n).toNat = n :=
        UInt8.toNat_ofNat_of_lt' (hlast.trans (by decide))
      simp only [List.singleton_append, readGroups, hbyte, if_pos hlast]
    · have hbyte : (UInt8.ofNat (128 + n % 128)).toNat = 128 + n % 128 :=
        UInt8.toNat_ofNat_of_lt' (show 128 + n % 128 < 256 by omega)
      have hhigh : n / 128 < 2 * 128 ^ more := by
        rw [pow_succ] at h
        omega
      simp only [List.cons_append, readGroups, hbyte, if_neg (show ¬ 128 + n % 128 < 128 by omega),
        ih hhigh]
      simp only [Option.some.injEq, Prod.mk.injEq, and_true]
      omega

/-- Numbers of 64 bits are read as they were written, since ten groups of seven bits are enough for
them. -/
theorem readVarint_encodeVarint {n : Nat} (h : n < 2 ^ 64) (rest : Bytes) :
    readVarint (encodeVarint n ++ rest) = some (n, rest) :=
  readGroups_varintGroups h rest

theorem varintGroups_ne_nil (more n : Nat) : varintGroups more n ≠ [] := by
  cases more with
  | zero => exact List.cons_ne_nil _ _
  | succ more =>
    rw [varintGroups]
    split_ifs <;> exact List.cons_ne_nil _ _

@[simp] theorem length_littleEndian (count n : Nat) : (littleEndian count n).length = count := by
  induction count generalizing n with
  | zero => rfl
  | succ count ih => simp [littleEndian, ih]

theorem ofLittleEndian_littleEndian {count n : Nat} (h : n < 256 ^ count) :
    ofLittleEndian (littleEndian count n) = n := by
  induction count generalizing n with
  | zero =>
    obtain rfl : n = 0 := by simpa using h
    rfl
  | succ count ih =>
    have hbyte : (UInt8.ofNat (n % 256)).toNat = n % 256 :=
      UInt8.toNat_ofNat_of_lt' (Nat.mod_lt _ (by decide))
    have hhigh : n / 256 < 256 ^ count := by
      rw [pow_succ] at h
      omega
    have hrest := ih hhigh
    simp only [ofLittleEndian] at hrest
    simp only [littleEndian, ofLittleEndian, List.foldr_cons, hbyte, hrest]
    omega

/-! ### Payloads and fields -/

theorem readBytes_append (content rest : Bytes) :
    readBytes content.length (content ++ rest) = some (content, rest) := by
  simp [readBytes]

/-- Content of a length that can be announced. -/
def Payload.Fits : Payload → Prop
  | .bytes content => content.length < 2 ^ 64
  | _ => True

/-- A field that can be announced: a key of 32 bits with a number that is not zero. -/
structure Field.Fits (f : Field) : Prop where
  number_pos : 0 < f.number
  number_lt : f.number < 2 ^ 29
  payload : f.payload.Fits

/-- A payload is read as it was written, whatever follows. Texts have to be of a length that can be
announced, and all else fits by its type. -/
theorem readPayload_encode {p : Payload} (h : p.Fits) (rest : Bytes) :
    readPayload p.wireType (p.encode ++ rest) = some (p, rest) := by
  cases p with
  | varint value =>
    simp only [Payload.wireType, Payload.encode, readPayload,
      readVarint_encodeVarint value.toNat_lt, Option.map_some, UInt64.ofNat_toNat]
  | fixed64 value =>
    have hread := readBytes_append (littleEndian 8 value.toNat) rest
    rw [length_littleEndian] at hread
    simp only [Payload.wireType, Payload.encode, readPayload, hread, Option.map_some,
      ofLittleEndian_littleEndian (show value.toNat < 256 ^ 8 from value.toNat_lt),
      UInt64.ofNat_toNat]
  | bytes content =>
    have hlength : content.length < 2 ^ 64 := h
    simp only [Payload.wireType, Payload.encode, readPayload, List.append_assoc,
      readVarint_encodeVarint hlength, readBytes_append, Option.map_some]
  | groupStart => rfl
  | groupEnd => rfl
  | fixed32 value =>
    have hread := readBytes_append (littleEndian 4 value.toNat) rest
    rw [length_littleEndian] at hread
    simp only [Payload.wireType, Payload.encode, readPayload, hread, Option.map_some,
      ofLittleEndian_littleEndian (show value.toNat < 256 ^ 4 from value.toNat_lt),
      UInt32.ofNat_toNat]

theorem Payload.wireType_lt (p : Payload) : p.wireType < 8 := by
  cases p <;> simp [wireType]

/-- **A field is read as it was written.** -/
theorem readField_encode {f : Field} (h : f.Fits) (rest : Bytes) :
    readField (f.encode ++ rest) = some (f, rest) := by
  have hpositive := h.number_pos
  have hsmall := h.number_lt
  have htype := f.payload.wireType_lt
  have hkey : 8 * f.number + f.payload.wireType < 2 ^ 64 := by omega
  have hnumber : (8 * f.number + f.payload.wireType) / 8 = f.number := by omega
  have hwire : (8 * f.number + f.payload.wireType) % 8 = f.payload.wireType := by omega
  simp only [readField, Field.encode, List.append_assoc, readVarint_encodeVarint hkey, hnumber,
    hwire, readPayload_encode h.payload, Option.map_some]
  rw [if_pos ⟨by omega, by omega⟩]

/-! ### Sequences of fields -/

theorem Field.encode_ne_nil (f : Field) : f.encode ≠ [] :=
  List.append_ne_nil_of_left_ne_nil (varintGroups_ne_nil 9 _) _

/-- Fields are read one after the other. No field is empty, so a count of bytes lasts for all of
them. -/
theorem readFieldsOnto_encode {fields : List Field} (h : ∀ f ∈ fields, f.Fits) {fuel : Nat}
    (hfuel : (fields.flatMap Field.encode).length ≤ fuel) (before : List Field) :
    readFieldsOnto fuel (fields.flatMap Field.encode) before =
      some (before.reverse ++ fields) := by
  induction fields generalizing fuel before with
  | nil => cases fuel <;> simp [readFieldsOnto]
  | cons f fields ih =>
    rw [List.forall_mem_cons] at h
    have hread := readField_encode h.1 (fields.flatMap Field.encode)
    obtain ⟨b, bs, hbytes⟩ := List.exists_cons_of_ne_nil f.encode_ne_nil
    rw [List.flatMap_cons] at hfuel ⊢
    rw [hbytes, List.cons_append] at hread hfuel ⊢
    cases fuel with
    | zero => simp at hfuel
    | succ fuel =>
      have hleft : (fields.flatMap Field.encode).length ≤ fuel := by
        simp only [List.length_cons, List.length_append] at hfuel
        omega
      simp only [readFieldsOnto, hread, ih h.2 hleft, List.reverse_cons, List.append_assoc,
        List.singleton_append]

/-- **A sequence of fields is read as it was written.** -/
theorem readFields_encode {fields : List Field} (h : ∀ f ∈ fields, f.Fits) :
    readFields (fields.flatMap Field.encode) = some fields :=
  readFieldsOnto_encode h le_rfl []

end ArithService
