import ArithService.Text.Bytes

/-!
# Message digests

The secure hash of 256 bits, and message authentication with a key built on it.

## Main Definitions

* `sha256` — the digest of a sequence of bytes
* `hmac` — the authentication code of a message under a key

## Design Notes

A message is padded to whole blocks of sixteen words, and the digest is a fold of `compress`
over the blocks. One compression is a fold of `mixRound` over the extended block.
-/

namespace ArithService

/-- The eight words that are carried from block to block. -/
structure DigestState where
  a : UInt32
  b : UInt32
  c : UInt32
  d : UInt32
  e : UInt32
  f : UInt32
  g : UInt32
  h : UInt32
deriving DecidableEq, Repr

/-- The state before the first block: fractions of the square roots of the first primes. -/
def startState : DigestState :=
  ⟨0x6a09e667, 0xbb67ae85, 0x3c6ef372, 0xa54ff53a, 0x510e527f, 0x9b05688c, 0x1f83d9ab,
    0x5be0cd19⟩

/-- The constants of the rounds: fractions of the cube roots of the first primes. -/
def roundConstants : List UInt32 :=
  [0x428a2f98, 0x71374491, 0xb5c0fbcf, 0xe9b5dba5, 0x3956c25b, 0x59f111f1, 0x923f82a4,
    0xab1c5ed5, 0xd807aa98, 0x12835b01, 0x243185be, 0x550c7dc3, 0x72be5d74, 0x80deb1fe,
    0x9bdc06a7, 0xc19bf174, 0xe49b69c1, 0xefbe4786, 0x0fc19dc6, 0x240ca1cc, 0x2de92c6f,
    0x4a7484aa, 0x5cb0a9dc, 0x76f988da, 0x983e5152, 0xa831c66d, 0xb00327c8, 0xbf597fc7,
    0xc6e00bf3, 0xd5a79147, 0x06ca6351, 0x14292967, 0x27b70a85, 0x2e1b2138, 0x4d2c6dfc,
    0x53380d13, 0x650a7354, 0x766a0abb, 0x81c2c92e, 0x92722c85, 0xa2bfe8a1, 0xa81a664b,
    0xc24b8b70, 0xc76c51a3, 0xd192e819, 0xd6990624, 0xf40e3585, 0x106aa070, 0x19a4c116,
    0x1e376c08, 0x2748774c, 0x34b0bcb5, 0x391c0cb3, 0x4ed8aa4a, 0x5b9cca4f, 0x682e6ff3,
    0x748f82ee, 0x78a5636f, 0x84c87814, 0x8cc70208, 0x90befffa, 0xa4506ceb, 0xbef9a3f7,
    0xc67178f2]

/-- A word turned right by a number of bits between 1 and 31. -/
def rotateRight (x : UInt32) (n : UInt32) : UInt32 := (x >>> n) ||| (x <<< (32 - n))

/-- Add the next word to a block that is being extended; latest word first. -/
def extendOnce (words : List UInt32) : List UInt32 :=
  let x := words.getD 14 0
  let y := words.getD 1 0
  let low := rotateRight x 7 ^^^ rotateRight x 18 ^^^ (x >>> 3)
  let high := rotateRight y 17 ^^^ rotateRight y 19 ^^^ (y >>> 10)
  (words.getD 15 0 + low + words.getD 6 0 + high) :: words

/-- A block of sixteen words extended to sixty-four. -/
def extendBlock (block : List UInt32) : List UInt32 :=
  (Nat.repeat extendOnce 48 block.reverse).reverse

/-- One round, with its constant and its word of the extended block. -/
def mixRound (s : DigestState) (input : UInt32 × UInt32) : DigestState :=
  let sumE := rotateRight s.e 6 ^^^ rotateRight s.e 11 ^^^ rotateRight s.e 25
  let choice := (s.e &&& s.f) ^^^ ((~~~s.e) &&& s.g)
  let first := s.h + sumE + choice + input.1 + input.2
  let sumA := rotateRight s.a 2 ^^^ rotateRight s.a 13 ^^^ rotateRight s.a 22
  let majority := (s.a &&& s.b) ^^^ (s.a &&& s.c) ^^^ (s.b &&& s.c)
  ⟨first + sumA + majority, s.a, s.b, s.c, s.d + first, s.e, s.f, s.g⟩

/-- Take one block into the state. -/
def compress (s : DigestState) (block : List UInt32) : DigestState :=
  let t := (roundConstants.zip (extendBlock block)).foldl mixRound s
  ⟨s.a + t.a, s.b + t.b, s.c + t.c, s.d + t.d, s.e + t.e, s.f + t.f, s.g + t.g, s.h + t.h⟩

/-- The words of a sequence of bytes, from the front. -/
def bytesToWords (bs : Bytes) : List UInt32 :=
  (List.range (bs.length / 4)).map fun i => UInt32.ofNat (ofBigEndian ((bs.drop (4 * i)).take 4))

/-- A message with its padding: a one bit, zeros up to a whole block, and its length. -/
def padMessage (message : Bytes) : Bytes :=
  let zeros := (119 - message.length % 64) % 64
  message ++ 0x80 :: List.replicate zeros 0 ++ bigEndian 8 (8 * message.length)

/-- Take a number of blocks of 64 bytes into the state. -/
def compressAll : Nat → DigestState → Bytes → DigestState
  | 0, s, _ => s
  | count + 1, s, bs => compressAll count (compress s (bytesToWords (bs.take 64))) (bs.drop 64)

/-- The 32 bytes of a state. -/
def DigestState.bytes (s : DigestState) : Bytes :=
  [s.a, s.b, s.c, s.d, s.e, s.f, s.g, s.h].flatMap fun w => bigEndian 4 w.toNat

/-- The digest of a message. -/
def sha256 (message : Bytes) : Bytes :=
  let padded := padMessage message
  (compressAll (padded.length / 64) startState padded).bytes

/-- A key as one block of 64 bytes; a longer key is replaced by its digest. -/
def keyBlock (key : Bytes) : Bytes :=
  let short := if 64 < key.length then sha256 key else key
  short ++ List.replicate (64 - short.length) 0

/-- The authentication code of a message under a key. -/
def hmac (key message : Bytes) : Bytes :=
  let block := keyBlock key
  sha256 (block.map (· ^^^ 0x5c) ++ sha256 (block.map (· ^^^ 0x36) ++ message))

end ArithService
