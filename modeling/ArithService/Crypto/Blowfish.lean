import ArithService.Crypto.Digest

/-!
# The expensive block cipher

A block cipher of sixteen rounds with key-dependent tables, and the key schedule that makes
deriving its tables as expensive as wanted.

## Main Definitions

* `piFraction` — the fraction of the circle constant in binary
* `Cipher`, `Cipher.encrypt` — the tables, and the encryption of a block of two words
* `Cipher.expand` — working a key and a salt into the tables
* `Cipher.expensive` — the tables for a key, a salt and a cost

## Design Notes

The tables of the unkeyed cipher are the first 1042 words of the fraction of the circle
constant. They are computed from Machin's formula with 64 spare bits.
-/

namespace ArithService

/-! ### The circle constant -/

/-- Add to `total` the terms from number `k` on of the series for the arc tangent of a
reciprocal, as long as `power` is not zero; `square` is the square of the denominator. -/
def addArctan (square : Nat) : Nat → Nat → Nat → Int → Int
  | 0, _, _, total => total
  | fuel + 1, k, power, total =>
    if power = 0 then total
    else
      let term : Int := (power / (2 * k + 1) : Nat)
      addArctan square fuel (k + 1) (power / square)
        (if k % 2 = 0 then total + term else total - term)

/-- The arc tangent of `1 / x`, in units of `1 / scale`. -/
def arctanReciprocal (scale x : Nat) : Int :=
  addArctan (x * x) (scale.log2 + 1) 0 (scale / x) 0

/-- The circle constant without its whole part, to a number of bits. -/
def piFraction (bits : Nat) : Nat :=
  let scale := Nat.pow 2 (bits + 64)
  let quarter := 4 * arctanReciprocal scale 5 - arctanReciprocal scale 239
  ((4 * quarter).toNat / Nat.pow 2 64) % Nat.pow 2 bits

/-! ### The cipher -/

/-- The tables of a cipher: eighteen round keys and four boxes of 256 words. -/
structure Cipher where
  keys : Array UInt32
  boxes : Array UInt32

namespace Cipher

/-- The number of words in all tables. -/
def wordCount : Nat := 18 + 4 * 256

/-- The tables before any key. -/
def unkeyed : Cipher :=
  let words := (bytesToWords (bigEndian (4 * wordCount) (piFraction (32 * wordCount)))).toArray
  ⟨words.extract 0 18, words.extract 18 wordCount⟩

/-- The word of a box for the lowest byte of `x`. -/
def look (c : Cipher) (box : Nat) (x : UInt32) : UInt32 :=
  c.boxes.getD (256 * box + (x &&& 0xff).toNat) 0

/-- The round function. -/
def scramble (c : Cipher) (x : UInt32) : UInt32 :=
  ((c.look 0 (x >>> 24) + c.look 1 (x >>> 16)) ^^^ c.look 2 (x >>> 8)) + c.look 3 x

/-- A number of rounds, beginning with a given round key. -/
def rounds (c : Cipher) : Nat → Nat → UInt32 → UInt32 → UInt32 × UInt32
  | 0, _, left, right => (left, right)
  | count + 1, i, left, right =>
    let left := left ^^^ c.keys.getD i 0
    rounds c count (i + 1) (right ^^^ c.scramble left) left

/-- Encrypt a block of two words. -/
def encrypt (c : Cipher) (left right : UInt32) : UInt32 × UInt32 :=
  let (right, left) := c.rounds 16 0 left right
  (left ^^^ c.keys.getD 17 0, right ^^^ c.keys.getD 16 0)

/-! ### The key schedule -/

/-- The first `count` words of a sequence of bytes that is repeated without end. -/
def cyclicWords (bs : Bytes) (count : Nat) : List UInt32 :=
  let copies := 4 * count / bs.length + 1
  bytesToWords (((List.replicate copies bs).flatten).take (4 * count))

/-- Combine every round key with a word of the key. -/
def xorKeys (c : Cipher) (key : List UInt32) : Cipher :=
  { c with keys := ((c.keys.toList.zip key).map fun (a, b) => a ^^^ b).toArray }

/-- The next pair of salt words: the first two, or the last two, in turn. -/
def saltPair (salt : Array UInt32) (i : Nat) : UInt32 × UInt32 :=
  (salt.getD (i % 4) 0, salt.getD (i % 4 + 1) 0)

/-- Replace `count` pairs of round keys from position `i` on by encrypting a running block. -/
def refillKeys (salt : Array UInt32) :
    Nat → Nat → Cipher → UInt32 → UInt32 → Cipher × UInt32 × UInt32
  | 0, _, c, left, right => (c, left, right)
  | count + 1, i, c, left, right =>
    let (saltLeft, saltRight) := saltPair salt i
    let (left, right) := c.encrypt (left ^^^ saltLeft) (right ^^^ saltRight)
    let ⟨keys, boxes⟩ := c
    refillKeys salt count (i + 2) ⟨(keys.setIfInBounds i left).setIfInBounds (i + 1) right, boxes⟩
      left right

/-- Replace `count` pairs of box words from position `i` on by encrypting a running block. -/
def refillBoxes (salt : Array UInt32) :
    Nat → Nat → Cipher → UInt32 → UInt32 → Cipher
  | 0, _, c, _, _ => c
  | count + 1, i, c, left, right =>
    let (saltLeft, saltRight) := saltPair salt (i + 2)
    let (left, right) := c.encrypt (left ^^^ saltLeft) (right ^^^ saltRight)
    let ⟨keys, boxes⟩ := c
    refillBoxes salt count (i + 2) ⟨keys, (boxes.setIfInBounds i left).setIfInBounds (i + 1) right⟩
      left right

/-- Work key words and a salt of four words into the tables. -/
def expand (c : Cipher) (salt : Array UInt32) (key : List UInt32) : Cipher :=
  let (c, left, right) := refillKeys salt 9 0 (c.xorKeys key) 0 0
  refillBoxes salt 512 0 c left right

/-- Work two keys into the tables in turn, a number of times. -/
def expandAlternately (first second : List UInt32) : Nat → Cipher → Cipher
  | 0, c => c
  | count + 1, c =>
    let none_ : Array UInt32 := #[0, 0, 0, 0]
    expandAlternately first second count ((c.expand none_ first).expand none_ second)

/-- The tables for a key and a salt of sixteen bytes, after `2 ^ cost` alternations. -/
def expensive (cost : Nat) (salt key : Bytes) : Cipher :=
  let keyWords := cyclicWords key 18
  let saltWords := cyclicWords salt 18
  expandAlternately keyWords saltWords (Nat.pow 2 cost)
    (unkeyed.expand (bytesToWords salt).toArray keyWords)

/-- Encrypt a block a number of times. -/
def encryptRepeatedly (c : Cipher) : Nat → UInt32 × UInt32 → UInt32 × UInt32
  | 0, block => block
  | count + 1, (left, right) => encryptRepeatedly c count (c.encrypt left right)

end Cipher

end ArithService
