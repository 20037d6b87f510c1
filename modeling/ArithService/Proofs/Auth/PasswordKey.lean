import Mathlib
import ArithService.Proofs.Auth.Password
import ArithService.Proofs.Text.Bytes

/-!
# What a hash sees of a password

The cipher takes a password as a key of 72 bytes: the password, ended by a zero byte and repeated
without end. Passwords with the same key have the same hashes. Without zero characters, these are
the passwords with the same first 72 bytes.

## Main Definitions

* `derivedKey` — the 72 bytes that are made of a password
* `IsCollision` — passwords with different keys that have the same digest

## Design Notes

The first zero byte of a key is the end of the password, so that the password is read off its key
(`takeWhile_derivedKey`), as far as the key goes. A zero character in a password looks like its end;
a password that repeats another one behind a zero character has the same key.
-/

namespace ArithService

/-! ### Keys -/

/-- The 72 bytes that are made of a password: its key, repeated without end. -/
def derivedKey (password : String) : Bytes :=
  ((List.replicate (72 / (passwordKey password).length + 1) (passwordKey password)).flatten).take 72

/-- Passwords are told apart by nothing else than their keys. -/
theorem passwordDigest_congr {p q : String} (h : derivedKey p = derivedKey q) (cost : Nat)
    (salt : Bytes) : passwordDigest cost salt p = passwordDigest cost salt q := by
  have hwords : Cipher.cyclicWords (passwordKey p) 18 = Cipher.cyclicWords (passwordKey q) 18 :=
    congrArg bytesToWords h
  simp only [passwordDigest, Cipher.expensive, hwords]

/-- Two passwords with different keys and the same digest. -/
structure IsCollision (cost : Nat) (salt : Bytes) (p q : String) : Prop where
  keys : derivedKey p ≠ derivedKey q
  digests : passwordDigest cost salt p = passwordDigest cost salt q

/-- **A password belongs to the hash of another one exactly if both have the same key**, or if they
are a collision of the cipher. -/
theorem isPasswordOf_hashPassword_iff {cost : Nat} {salt : Bytes} (hsalt : salt.length = 16)
    {p q stored : String} (hstored : hashPassword cost salt p = .ok stored) :
    isPasswordOf q stored = true ↔ derivedKey p = derivedKey q ∨ IsCollision cost salt p q := by
  rw [isPasswordOf, ofText?_of_hashPassword hsalt hstored]
  simp only [decide_eq_true_eq]
  constructor
  · intro hdigests
    by_cases hkeys : derivedKey p = derivedKey q
    · exact .inl hkeys
    · exact .inr ⟨hkeys, hdigests.symm⟩
  · rintro (hkeys | hcollision)
    · exact (passwordDigest_congr hkeys cost salt).symm
    · exact hcollision.digests.symm

/-! ### Keys of passwords without zero characters -/

/-- A key is cut where the password is. -/
theorem passwordKey_congr {p q : String} (h : (textBytes p).take 72 = (textBytes q).take 72) :
    passwordKey p = passwordKey q := by
  have hcut : ∀ text, passwordKey text = ((textBytes text).take 72 ++ [0]).take 72 := by
    intro text
    rw [passwordKey, List.take_append, List.take_append, List.take_take, min_self,
      List.length_take]
    congr 2
    omega
  rw [hcut p, hcut q, h]

theorem derivedKey_congr {p q : String} (h : (textBytes p).take 72 = (textBytes q).take 72) :
    derivedKey p = derivedKey q := by
  rw [derivedKey, derivedKey, passwordKey_congr h]

/-- A derived key begins with the key. -/
theorem exists_derivedKey_eq (password : String) :
    ∃ rest, derivedKey password = passwordKey password ++ rest := by
  have hlength : (passwordKey password).length ≤ 72 := by
    rw [passwordKey, List.length_take]
    exact min_le_left _ _
  rw [derivedKey, List.replicate_succ, List.flatten_cons, List.take_append,
    List.take_of_length_le hlength]
  exact ⟨_, rfl⟩

theorem length_derivedKey_le (password : String) : (derivedKey password).length ≤ 72 := by
  rw [derivedKey, List.length_take]
  exact min_le_left _ _

/-- Bytes of characters other than zero are other than zero. -/
theorem ne_zero_of_mem_textBytes {text : String} (h : IsZeroFree text) {b : UInt8}
    (hb : b ∈ textBytes text) : b ≠ 0 := by
  rw [textBytes_eq_flatMap, List.mem_flatMap] at hb
  obtain ⟨c, hc, hb⟩ := hb
  have hsome : c.val.toNat ≠ 0 := h c hc
  rw [String.utf8EncodeChar] at hb
  intro hzero
  subst hzero
  generalize c.val.toNat = n at hb hsome
  split_ifs at hb
  all_goals
    simp only [List.mem_cons, List.not_mem_nil, or_false, ← UInt8.toNat_inj, UInt8.toNat_ofNat',
      UInt8.toNat_zero, Nat.reducePow] at hb
    omega

/-- A password without zero characters is read off its key, as far as the key goes: the zero byte
that ends the password is the first one in the key. -/
theorem takeWhile_derivedKey {password : String} (h : IsZeroFree password) :
    (derivedKey password).takeWhile (· ≠ 0) = (textBytes password).take 72 := by
  obtain ⟨rest, hrest⟩ := exists_derivedKey_eq password
  have hall : ∀ b ∈ (textBytes password).take 72, decide (b ≠ 0) = true := fun b hb =>
    decide_eq_true (ne_zero_of_mem_textBytes h (List.mem_of_mem_take hb))
  have hlength := length_derivedKey_le password
  by_cases hshort : (textBytes password).length < 72
  · -- The end of the password is in the key.
    have hkey : passwordKey password = (textBytes password).take 72 ++ [0] := by
      rw [passwordKey, List.take_of_length_le (by simp; omega), List.take_of_length_le hshort.le]
    rw [hrest, hkey, List.append_assoc, List.takeWhile_append_of_pos hall]
    simp
  · -- The key is full of the password.
    have hkey : passwordKey password = (textBytes password).take 72 :=
      List.take_append_of_le_length (by omega)
    rw [hkey] at hrest
    obtain rfl : rest = [] := by
      rw [hrest, List.length_append, List.length_take] at hlength
      exact List.length_eq_zero_iff.1 (by omega)
    rw [hrest, List.append_nil, List.takeWhile_eq_self_iff.2 hall]

/-- **Without zero characters, the key is the first 72 bytes of the password.** -/
theorem derivedKey_eq_iff {p q : String} (hp : IsZeroFree p) (hq : IsZeroFree q) :
    derivedKey p = derivedKey q ↔ (textBytes p).take 72 = (textBytes q).take 72 := by
  refine ⟨fun h => ?_, derivedKey_congr⟩
  rw [← takeWhile_derivedKey hp, ← takeWhile_derivedKey hq, h]

/-- Different passwords of at most 72 bytes have different keys. A password of exactly 72 bytes
fills the key and loses the zero byte at its end, but nothing of itself. -/
theorem derivedKey_ne {p q : String} (hp : IsZeroFree p) (hq : IsZeroFree q)
    (hpLength : (textBytes p).length ≤ 72) (hqLength : (textBytes q).length ≤ 72) (h : p ≠ q) :
    derivedKey p ≠ derivedKey q := by
  rw [ne_eq, derivedKey_eq_iff hp hq, List.take_of_length_le hpLength,
    List.take_of_length_le hqLength, textBytes_inj]
  exact h

end ArithService
