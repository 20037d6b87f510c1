import ArithService.Text.Bytes

/-!
# Fields of binary messages

Messages are sequences of numbered fields, each with one of a few encodings.

## Main Definitions

* `Payload`, `Field` — the content of a field, and its number
* `encodeVarint`, `readVarint` — numbers in groups of seven bits
* `Field.encode`, `readField`, `readFields` — fields and sequences of fields

## Design Notes

Every reader returns what it found together with the bytes after it. A sequence of fields is
read in one pass before any meaning is given to it, so what a message declares has no
influence on where its fields begin and end.
-/

namespace ArithService

/-- The content of a field. Groups are bracketed by two fields without content. -/
inductive Payload where
  | varint (value : UInt64)
  | fixed64 (value : UInt64)
  | bytes (content : Bytes)
  | groupStart
  | groupEnd
  | fixed32 (value : UInt32)
deriving DecidableEq, Repr

/-- A numbered field. -/
structure Field where
  number : Nat
  payload : Payload
deriving DecidableEq, Repr

/-! ### Variable-length numbers -/

/-- The seven-bit groups of a number, lowest first; all but the last have the top bit set. -/
def varintGroups : Nat → Nat → Bytes
  | 0, n => [UInt8.ofNat n]
  | more + 1, n =>
    if n < 128 then [UInt8.ofNat n]
    else UInt8.ofNat (128 + n % 128) :: varintGroups more (n / 128)

/-- The encoding of a number below `2 ^ 64`, in at most ten bytes. -/
def encodeVarint (n : Nat) : Bytes := varintGroups 9 n

/-- Read at most `more + 1` seven-bit groups. A tenth byte may only add the top bit. -/
def readGroups : Nat → Bytes → Option (Nat × Bytes)
  | _, [] => none
  | 0, b :: rest => if b.toNat < 2 then some (b.toNat, rest) else none
  | more + 1, b :: rest =>
    if b.toNat < 128 then some (b.toNat, rest)
    else
      match readGroups more rest with
      | some (high, rest) => some (b.toNat - 128 + 128 * high, rest)
      | none => none

/-- Read a number of up to 64 bits. -/
def readVarint (bs : Bytes) : Option (Nat × Bytes) := readGroups 9 bs

/-! ### Fixed-length content -/

/-- Read a given number of bytes. -/
def readBytes (count : Nat) (bs : Bytes) : Option (Bytes × Bytes) :=
  let content := bs.take count
  if content.length = count then some (content, bs.drop count) else none

/-! ### Fields -/

/-- The encoding of a payload is announced by three bits of the field's key. -/
def Payload.wireType : Payload → Nat
  | .varint _ => 0
  | .fixed64 _ => 1
  | .bytes _ => 2
  | .groupStart => 3
  | .groupEnd => 4
  | .fixed32 _ => 5

/-- The bytes of a payload. -/
def Payload.encode : Payload → Bytes
  | .varint value => encodeVarint value.toNat
  | .fixed64 value => littleEndian 8 value.toNat
  | .bytes content => encodeVarint content.length ++ content
  | .groupStart => []
  | .groupEnd => []
  | .fixed32 value => littleEndian 4 value.toNat

/-- The bytes of a field: its key, then its payload. -/
def Field.encode (f : Field) : Bytes :=
  encodeVarint (8 * f.number + f.payload.wireType) ++ f.payload.encode

/-- Read the payload that a wire type announces. -/
def readPayload (wireType : Nat) (bs : Bytes) : Option (Payload × Bytes) :=
  match wireType with
  | 0 => (readVarint bs).map fun (n, rest) => (.varint (UInt64.ofNat n), rest)
  | 1 => (readBytes 8 bs).map fun (b, rest) => (.fixed64 (UInt64.ofNat (ofLittleEndian b)), rest)
  | 2 =>
    match readVarint bs with
    | some (count, rest) => (readBytes count rest).map fun (b, rest) => (.bytes b, rest)
    | none => none
  | 3 => some (.groupStart, bs)
  | 4 => some (.groupEnd, bs)
  | 5 => (readBytes 4 bs).map fun (b, rest) => (.fixed32 (UInt32.ofNat (ofLittleEndian b)), rest)
  | _ => none

/-- Read one field. Keys have 32 bits and field numbers start at one. -/
def readField (bs : Bytes) : Option (Field × Bytes) :=
  match readVarint bs with
  | none => none
  | some (key, rest) =>
    if key < 0x100000000 ∧ key / 8 ≠ 0 then
      (readPayload (key % 8) rest).map fun (payload, rest) => (⟨key / 8, payload⟩, rest)
    else none

/-- Read at most `fuel` fields up to the end of the bytes, onto those already read, latest
first. -/
def readFieldsOnto : Nat → Bytes → List Field → Option (List Field)
  | _, [], fields => some fields.reverse
  | 0, _ :: _, _ => none
  | fuel + 1, bs, fields =>
    match readField bs with
    | some (f, rest) => readFieldsOnto fuel rest (f :: fields)
    | none => none

/-- The fields of a message. Every field takes at least one byte, so the length is enough. -/
def readFields (bs : Bytes) : Option (List Field) := readFieldsOnto bs.length bs []

end ArithService
