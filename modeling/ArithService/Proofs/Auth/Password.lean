import Mathlib
import ArithService.Auth.Password
import ArithService.Proofs.Crypto.Base64
import ArithService.Proofs.Text.ZeroFree

/-!
# A password belongs to its hash

The text that is stored for a password is read back as its parts, and the password belongs to it.

## Design Notes

Nothing is asked of the cipher but that it encrypts blocks as blocks: whatever digest it comes to
when a password is hashed, it comes to again when the password is checked.
-/

namespace ArithService

/-! ### Symbols -/

/-- Three bytes are four symbols, and what is left over is rounded up. So the parts of a stored text
are told apart by their lengths. -/
theorem Alphabet.length_encode (a : Alphabet) (bs : Bytes) :
    (a.encode bs).length = (4 * bs.length + 2) / 3 := by
  induction bs using Alphabet.encode.induct with
  | case1 => rfl
  | case2 x => simp [encode]
  | case3 x y => simp [encode]
  | case4 x y z rest ih =>
    simp only [encode, List.length_cons, ih]
    omega

theorem isComplete_dotSlash : dotSlash.IsComplete := by decide

/-- All symbols come behind the dollar sign. -/
theorem le_toNat_of_mem_dotSlash {c : Char} (hc : c ∈ dotSlash.symbols) : 46 ≤ c.toNat := by
  have hall : dotSlash.symbols.all (46 ≤ ·.toNat) = true := by decide
  simpa using List.all_eq_true.1 hall c hc

theorem le_toNat_of_mem_encode {bs : Bytes} {c : Char} (hc : c ∈ dotSlash.encode bs) :
    46 ≤ c.toNat :=
  le_toNat_of_mem_dotSlash (isComplete_dotSlash.mem_symbols_of_mem_encode hc)

theorem isZeroFree_encode (bs : Bytes) : IsZeroFree (String.ofList (dotSlash.encode bs)) := by
  intro c hc
  rw [String.toList_ofList] at hc
  have := le_toNat_of_mem_encode hc
  omega

/-! ### Digests -/

theorem length_bigEndian (count n : Nat) : (bigEndian count n).length = count := by
  rw [bigEndian, List.length_reverse]
  induction count generalizing n with
  | zero => rfl
  | succ count ih => rw [littleEndian, List.length_cons, ih]

/-- Every pair of words is encrypted to eight bytes, whatever the cipher is. -/
theorem length_encryptPairs (c : Cipher) (ws : List UInt32) :
    (encryptPairs c ws).length = 8 * (ws.length / 2) := by
  fun_induction encryptPairs c ws with
  | case1 left right rest left' right' hblock ih =>
    simp only [List.length_append, length_bigEndian, ih, List.length_cons]
    omega
  | case2 ws hshort =>
    have hlength : ws.length < 2 := by
      match ws, hshort with
      | [], _ => simp
      | [_], _ => simp
      | left :: right :: rest, hshort => exact (hshort left right rest rfl).elim
    simp only [List.length_nil]
    omega

/-- A digest has twenty-three bytes: the last one of three blocks is dropped. -/
theorem length_passwordDigest (cost : Nat) (salt : Bytes) (password : String) :
    (passwordDigest cost salt password).length = 23 := by
  have hbanner : (bytesToWords passwordBanner).length = 6 := by decide +kernel
  rw [passwordDigest, List.length_take, length_encryptPairs, hbanner]
  rfl

/-! ### Stored texts -/

/-- A cost is read back from its two digits. There are few of them, so all are computed. -/
theorem readUnsigned_padded {cost : Nat} (hcost : isHashCost cost = true) :
    readUnsigned 32 (padded 2 cost) = .ok (cost : Int) := by
  have hall : ∀ n < 32, readUnsigned 32 (padded 2 n) = .ok (n : Int) := by decide +kernel
  simp only [isHashCost, Bool.and_eq_true, decide_eq_true_eq] at hcost
  exact hall cost (by omega)

/-- Hashing a password with a possible cost gives a text without zero characters. So a table gives
it back whole, and it can be checked after a restart. -/
theorem hashPassword_eq {cost : Nat} (hcost : isHashCost cost = true) (salt : Bytes)
    (password : String) :
    ∃ stored, hashPassword cost salt password = .ok stored ∧ IsZeroFree stored ∧
      stored.toList = '$' :: '2' :: 'b' :: '$' :: ((padded 2 cost).toList ++
        '$' :: (dotSlash.encode salt ++ dotSlash.encode (passwordDigest cost salt password))) := by
  refine ⟨_, if_pos hcost, ?_, ?_⟩
  · have hversion : IsZeroFree "$2b$" := by simp [IsZeroFree]
    have hdollar : IsZeroFree "$" := by simp [IsZeroFree]
    exact (((hversion.append (isZeroFree_padded 2 cost)).append hdollar).append
      (isZeroFree_encode salt)).append (isZeroFree_encode _)
  · simp

/-- Passwords are only hashed with a possible cost. -/
theorem isHashCost_of_hashPassword {cost : Nat} {salt : Bytes} {password stored : String}
    (hstored : hashPassword cost salt password = .ok stored) : isHashCost cost = true := by
  unfold hashPassword at hstored
  split_ifs at hstored with hcost
  exact hcost

theorem isZeroFree_of_hashPassword {cost : Nat} {salt : Bytes} {password stored : String}
    (hstored : hashPassword cost salt password = .ok stored) : IsZeroFree stored := by
  obtain ⟨text, htext, hzeroFree, -⟩ :=
    hashPassword_eq (isHashCost_of_hashPassword hstored) salt password
  obtain rfl : text = stored := Except.ok.inj (htext.symm.trans hstored)
  exact hzeroFree

/-- The text that is stored for a password is read back as its parts: the cost and the salt that it
has to be hashed with again, and the digest to compare with. -/
theorem ofText?_of_hashPassword {cost : Nat} {salt : Bytes} (hsalt : salt.length = 16)
    {password stored : String} (hstored : hashPassword cost salt password = .ok stored) :
    PasswordHash.ofText? stored = some ⟨cost, salt, passwordDigest cost salt password⟩ := by
  have hcost := isHashCost_of_hashPassword hstored
  obtain ⟨text, htext, -, hchars⟩ := hashPassword_eq hcost salt password
  obtain rfl : text = stored := Except.ok.inj (htext.symm.trans hstored)
  have hdigest := length_passwordDigest cost salt password
  have hsaltText : (dotSlash.encode salt).length = 22 := by rw [Alphabet.length_encode, hsalt]
  have hnoDollar : '$' ∉ dotSlash.encode salt ++
      dotSlash.encode (passwordDigest cost salt password) := by
    intro hmem
    rcases List.mem_append.1 hmem with hfirst | hsecond
    · exact absurd (le_toNat_of_mem_encode hfirst) (by decide)
    · exact absurd (le_toNat_of_mem_encode hsecond) (by decide)
  have hcostText : '$' ∉ (padded 2 cost).toList := by
    intro hmem
    exact absurd (isDigit_of_mem_padded hmem) (by decide)
  have hcostSome : (padded 2 cost).toList ≠ [] := by
    simp [padded, decimal, Nat.toString_eq_repr, Nat.toDigits_ne_nil]
  have hrestSome : dotSlash.encode salt ++
      dotSlash.encode (passwordDigest cost salt password) ≠ [] := by
    intro hnone
    simp [(List.append_eq_nil_iff.1 hnone).1] at hsaltText
  have hparts : (text.toList.splitOn '$').filter (· ≠ []) =
      [['2', 'b'], (padded 2 cost).toList, dotSlash.encode salt ++
        dotSlash.encode (passwordDigest cost salt password)] := by
    -- The parts are taken off the front one after another; the first one is empty.
    have hstart : text.toList = [] ++ '$' :: (['2', 'b'] ++ '$' :: ((padded 2 cost).toList ++
        '$' :: (dotSlash.encode salt ++
          dotSlash.encode (passwordDigest cost salt password)))) := hchars
    rw [hstart, List.splitOn_append_cons_self_of_not_mem (by simp),
      List.splitOn_append_cons_self_of_not_mem (by decide),
      List.splitOn_append_cons_self_of_not_mem hcostText, List.splitOn_eq_singleton hnoDollar]
    simp [hcostSome, hrestSome]
  have hversions : hashVersions.contains (String.ofList ['2', 'b']) = true := by decide
  rw [PasswordHash.ofText?, hparts]
  simp only [hversions, if_true, String.ofList_toList, readUnsigned_padded hcost]
  rw [← hsaltText, List.take_left, List.drop_left, isComplete_dotSlash.decode_encode,
    isComplete_dotSlash.decode_encode]
  simp only [hsalt, hdigest, Int.toNat_natCast, hcost, and_self, if_true]

/-- **A password belongs to the text that is stored for it**, whatever its characters are and
however long it is. -/
theorem isPasswordOf_hashPassword {cost : Nat} {salt : Bytes} (hsalt : salt.length = 16)
    {password stored : String} (hstored : hashPassword cost salt password = .ok stored) :
    isPasswordOf password stored = true := by
  rw [isPasswordOf, ofText?_of_hashPassword hsalt hstored]
  simp

end ArithService
