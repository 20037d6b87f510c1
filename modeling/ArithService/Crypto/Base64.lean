import ArithService.Text.Bytes

/-!
# Base 64

Bytes as text over an alphabet of 64 symbols, without padding.

## Main Definitions

* `Alphabet` — the symbols, in the order of their values
* `Alphabet.encode`, `Alphabet.decode` — between bytes and symbols
* `urlSafe`, `dotSlash` — the alphabets of tokens and of password hashes

## Design Notes

Three bytes are four symbols. One or two bytes at the end are two or three symbols, whose
unused bits have to be zero, so every sequence of bytes has exactly one text.
-/

namespace ArithService

/-- An alphabet: the symbol with value `n` comes at position `n`. -/
structure Alphabet where
  symbols : List Char

namespace Alphabet

/-- The symbol with a value. -/
def symbol (a : Alphabet) (value : Nat) : Char := a.symbols.getD value ' '

/-- The value of a symbol. -/
def value? (a : Alphabet) (c : Char) : Option Nat := a.symbols.idxOf? c

/-- The text of a sequence of bytes. -/
def encode (a : Alphabet) : Bytes → List Char
  | [] => []
  | [x] => [a.symbol (x.toNat / 4), a.symbol (x.toNat % 4 * 16)]
  | [x, y] =>
    [a.symbol (x.toNat / 4), a.symbol (x.toNat % 4 * 16 + y.toNat / 16),
      a.symbol (y.toNat % 16 * 4)]
  | x :: y :: z :: rest =>
    a.symbol (x.toNat / 4) :: a.symbol (x.toNat % 4 * 16 + y.toNat / 16) ::
      a.symbol (y.toNat % 16 * 4 + z.toNat / 64) :: a.symbol (z.toNat % 64) ::
      a.encode rest

/-- The bytes of a text; nothing for foreign symbols, a single last symbol or unused bits that
are not zero. -/
def decode (a : Alphabet) : List Char → Option Bytes
  | [] => some []
  | [_] => none
  | [c, d] =>
    match a.value? c, a.value? d with
    | some p, some q => if q % 16 = 0 then some [UInt8.ofNat (p * 4 + q / 16)] else none
    | _, _ => none
  | [c, d, e] =>
    match a.value? c, a.value? d, a.value? e with
    | some p, some q, some r =>
      if r % 4 = 0 then
        some [UInt8.ofNat (p * 4 + q / 16), UInt8.ofNat (q % 16 * 16 + r / 4)]
      else none
    | _, _, _ => none
  | c :: d :: e :: f :: rest =>
    match a.value? c, a.value? d, a.value? e, a.value? f, a.decode rest with
    | some p, some q, some r, some s, some bytes =>
      some (UInt8.ofNat (p * 4 + q / 16) :: UInt8.ofNat (q % 16 * 16 + r / 4) ::
        UInt8.ofNat (r % 4 * 64 + s) :: bytes)
    | _, _, _, _, _ => none

end Alphabet

/-- The alphabet that is safe in addresses. -/
def urlSafe : Alphabet :=
  ⟨"ABCDEFGHIJKLMNOPQRSTUVWXYZabcdefghijklmnopqrstuvwxyz0123456789-_".toList⟩

/-- The alphabet of password hashes. -/
def dotSlash : Alphabet :=
  ⟨"./ABCDEFGHIJKLMNOPQRSTUVWXYZabcdefghijklmnopqrstuvwxyz0123456789".toList⟩

end ArithService
