import Mathlib
import ArithService.Crypto.Base64
import ArithService.Proofs.Text.Bytes

/-!
# Base 64 is read back

## Main Definitions

* `Alphabet.IsComplete` — every value below 64 has a symbol of its own

## Design Notes

The proofs follow the groups of three bytes and four symbols. That the parts of a byte make up
the byte again is arithmetic; that a symbol gives its value back is looked up once for each
alphabet.
-/

namespace ArithService

namespace Alphabet

/-- Every value below 64 has a symbol of its own. -/
def IsComplete (a : Alphabet) : Prop := ∀ v < 64, a.value? (a.symbol v) = some v

instance (a : Alphabet) : Decidable a.IsComplete := inferInstanceAs (Decidable (∀ v < 64, _))

theorem mem_symbols_of_value? {a : Alphabet} {c : Char} {v : Nat} (h : a.value? c = some v) :
    c ∈ a.symbols := by
  by_contra hforeign
  rw [value?, List.idxOf?_eq_none_iff.2 hforeign] at h
  simp at h

variable {a : Alphabet}

theorem ofNat_eq_of_toNat {n : Nat} {x : UInt8} (h : n = x.toNat) : UInt8.ofNat n = x := by
  rw [h, UInt8.ofNat_toNat]

/-- **Bytes are read back from their text.** The induction follows the groups of three bytes; what
is left at the end, one byte or two, gives a shorter group, and each has its own arithmetic. -/
theorem IsComplete.decode_encode (h : a.IsComplete) (bs : Bytes) :
    a.decode (a.encode bs) = some bs := by
  induction bs using encode.induct with
  | case1 => rfl
  | case2 x =>
    have hx := x.toNat_lt
    have hbyte : UInt8.ofNat (x.toNat / 4 * 4 + x.toNat % 4 * 16 / 16) = x :=
      ofNat_eq_of_toNat (by omega)
    simp only [encode, decode, h (x.toNat / 4) (by omega), h (x.toNat % 4 * 16) (by omega),
      hbyte, Nat.mul_mod_left, if_true]
  | case3 x y =>
    have hx := x.toNat_lt
    have hy := y.toNat_lt
    have hfirst : UInt8.ofNat (x.toNat / 4 * 4 + (x.toNat % 4 * 16 + y.toNat / 16) / 16) = x :=
      ofNat_eq_of_toNat (by omega)
    have hsecond : UInt8.ofNat ((x.toNat % 4 * 16 + y.toNat / 16) % 16 * 16 +
        y.toNat % 16 * 4 / 4) = y :=
      ofNat_eq_of_toNat (by omega)
    simp only [encode, decode, h (x.toNat / 4) (by omega),
      h (x.toNat % 4 * 16 + y.toNat / 16) (by omega), h (y.toNat % 16 * 4) (by omega),
      hfirst, hsecond, Nat.mul_mod_left, if_true]
  | case4 x y z rest ih =>
    have hx := x.toNat_lt
    have hy := y.toNat_lt
    have hz := z.toNat_lt
    have hfirst : UInt8.ofNat (x.toNat / 4 * 4 + (x.toNat % 4 * 16 + y.toNat / 16) / 16) = x :=
      ofNat_eq_of_toNat (by omega)
    have hsecond : UInt8.ofNat ((x.toNat % 4 * 16 + y.toNat / 16) % 16 * 16 +
        (y.toNat % 16 * 4 + z.toNat / 64) / 4) = y :=
      ofNat_eq_of_toNat (by omega)
    have hthird : UInt8.ofNat ((y.toNat % 16 * 4 + z.toNat / 64) % 4 * 64 + z.toNat % 64) = z :=
      ofNat_eq_of_toNat (by omega)
    simp only [encode, decode, h (x.toNat / 4) (by omega),
      h (x.toNat % 4 * 16 + y.toNat / 16) (by omega),
      h (y.toNat % 16 * 4 + z.toNat / 64) (by omega), h (z.toNat % 64) (by omega), ih,
      hfirst, hsecond, hthird]

/-- A text that can be read consists of symbols. In particular it has no dot, so that the parts of a
token can be told apart. -/
theorem mem_symbols_of_decode {cs : List Char} {bs : Bytes} (h : a.decode cs = some bs) :
    ∀ c ∈ cs, c ∈ a.symbols := by
  -- All groups but the complete ones and the two short ones at the end are refused.
  fun_induction decode a cs generalizing bs with
  | case1 => simp
  | case3 d e p q he hd =>
    simp [mem_symbols_of_value? hd, mem_symbols_of_value? he]
  | case6 d e f p q r hf he hd =>
    simp [mem_symbols_of_value? hd, mem_symbols_of_value? he, mem_symbols_of_value? hf]
  | case9 d e f g rest p q r v bytes hrest hg hf he hd ih =>
    simp only [List.forall_mem_cons]
    exact ⟨mem_symbols_of_value? hd, mem_symbols_of_value? he, mem_symbols_of_value? hf,
      mem_symbols_of_value? hg, ih hrest⟩
  | _ => simp at h

theorem IsComplete.mem_symbols_of_mem_encode (h : a.IsComplete) {bs : Bytes} {c : Char}
    (hc : c ∈ a.encode bs) : c ∈ a.symbols :=
  mem_symbols_of_decode (h.decode_encode bs) c hc

end Alphabet

/-- The alphabet of tokens is complete. There are 64 values, which are looked up one by one. -/
theorem isComplete_urlSafe : urlSafe.IsComplete := by decide

end ArithService
