/-!
# Bytes

Texts and numbers as sequences of bytes.

## Main Definitions

* `Bytes` — a sequence of bytes
* `textBytes`, `textOfBytes?` — a text as UTF-8, and the text of well-formed UTF-8
* `byteChars` — bytes shown as characters
* `littleEndian`, `bigEndian` — a number in a given count of bytes, and back
-/

namespace ArithService

/-- A sequence of bytes. -/
abbrev Bytes := List UInt8

/-- The bytes of a text. -/
def textBytes (text : String) : Bytes := text.toUTF8.data.toList

/-- The text with the given bytes, if they are well-formed UTF-8. -/
def textOfBytes? (bs : Bytes) : Option String := String.fromUTF8? ⟨⟨bs⟩⟩

/-- Bytes shown as characters: each is the character with its number, which for bytes of ASCII is
the character that they encode. -/
def byteChars (bs : Bytes) : List Char := bs.map fun b => Char.ofNat b.toNat

/-- The lowest `count` bytes of a number, lowest first. -/
def littleEndian : Nat → Nat → Bytes
  | 0, _ => []
  | count + 1, n => UInt8.ofNat (n % 256) :: littleEndian count (n / 256)

/-- The number with the given bytes, lowest first. -/
def ofLittleEndian (bs : Bytes) : Nat := bs.foldr (fun b n => b.toNat + 256 * n) 0

/-- The bytes of a number, most significant first. -/
def bigEndian (count n : Nat) : Bytes := (littleEndian count n).reverse

/-- The number with the given bytes, most significant first. -/
def ofBigEndian (bs : Bytes) : Nat := bs.foldl (fun n b => 256 * n + b.toNat) 0

end ArithService
