import ArithService.Auth.Error
import ArithService.Crypto.Base64
import ArithService.Crypto.Blowfish
import ArithService.Text.Digits

/-!
# Passwords

Salted, deliberately slow hashes of passwords.

## Main Definitions

* `passwordKey` — the bytes of a password that count
* `passwordDigest` — the digest of a password under a salt
* `hashPassword` — the text that is stored for a password
* `isPasswordOf` — whether a password belongs to a stored text

## Design Notes

A stored text names a version, a cost, a salt of sixteen bytes and a digest of twenty-three.
A text that is not of this form belongs to no password.
-/

namespace ArithService

/-- The bytes of a password that count: the text ended by a zero byte, cut to 72 bytes. -/
def passwordKey (password : String) : Bytes := (textBytes password ++ [0]).take 72

/-- The text that is encrypted under the tables of a password. -/
def passwordBanner : Bytes := textBytes "OrpheanBeholderScryDoubt"

/-- Encrypt pairs of words one by one, as bytes. -/
def encryptPairs (c : Cipher) : List UInt32 → Bytes
  | left :: right :: rest =>
    let (left, right) := c.encryptRepeatedly 64 (left, right)
    bigEndian 4 left.toNat ++ bigEndian 4 right.toNat ++ encryptPairs c rest
  | _ => []

/-- The digest of a password: 23 bytes of the encrypted banner. -/
def passwordDigest (cost : Nat) (salt : Bytes) (password : String) : Bytes :=
  (encryptPairs (Cipher.expensive cost salt (passwordKey password))
    (bytesToWords passwordBanner)).take 23

/-- Whether hashing is possible with a cost. -/
def isHashCost (cost : Nat) : Bool := 4 ≤ cost && cost ≤ 31

/-- The text that is stored for a password. -/
def hashPassword (cost : Nat) (salt : Bytes) (password : String) : Except AccessError String :=
  if isHashCost cost then
    .ok ("$2b$" ++ padded 2 cost ++ "$" ++ String.ofList (dotSlash.encode salt) ++
      String.ofList (dotSlash.encode (passwordDigest cost salt password)))
  else
    .error (.hashing ("Cost needs to be between 4 and 31, got " ++ decimal cost))

/-- A stored text in parts. -/
structure PasswordHash where
  cost : Nat
  salt : Bytes
  digest : Bytes
deriving DecidableEq, Repr

/-- The versions of the hash that are accepted. -/
def hashVersions : List String := ["2a", "2b", "2x", "2y"]

/-- Read a stored text. Empty parts between dollar signs do not count. -/
def PasswordHash.ofText? (text : String) : Option PasswordHash :=
  match (text.toList.splitOn '$').filter (· ≠ []) with
  | [version, cost, rest] =>
    if hashVersions.contains (String.ofList version) then
      match readUnsigned 32 (String.ofList cost) with
      | .error _ => none
      | .ok cost =>
        match dotSlash.decode (rest.take 22), dotSlash.decode (rest.drop 22) with
        | some salt, some digest =>
          if salt.length = 16 ∧ digest.length = 23 ∧ isHashCost cost.toNat then
            some ⟨cost.toNat, salt, digest⟩
          else none
        | _, _ => none
    else none
  | _ => none

/-- Whether a password belongs to a stored text. -/
def isPasswordOf (password stored : String) : Bool :=
  match PasswordHash.ofText? stored with
  | some h => passwordDigest h.cost h.salt password = h.digest
  | none => false

end ArithService
