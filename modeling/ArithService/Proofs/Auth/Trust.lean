import Mathlib
import ArithService.Proofs.Auth.Token

/-!
# What a caller has shown

Nobody is taken for a caller without a token that the service has signed for this caller and that
ended no more than a minute ago.

## Main Definitions

* `NamesAlgorithm` — a header that names the one algorithm
* `StatesClaims` — members of an object that state claims
* `TokenService.VouchesFor` — a token that speaks for a caller

## Design Notes

Records are read leniently: unknown members are skipped and a header may be an array. What is
said here about documents is therefore said about the members that matter, each of which is
there exactly once.
-/

namespace ArithService

open JsonValue

/-! ### Records -/

/-- A field that was found in an object is there exactly once, so there is no other value that
somebody else could read for it. -/
theorem membersNamed_eq_singleton {name : String} {members : List (Option String × JsonValue)}
    {v : JsonValue} (honce : (membersNamed name members).length ≤ 1)
    (hhead : (membersNamed name members).head? = some v) : membersNamed name members = [v] := by
  cases hmembers : membersNamed name members with
  | nil => simp [hmembers] at hhead
  | cons w rest =>
    rw [hmembers] at hhead honce
    obtain rfl := Option.some.inj hhead
    have hnone : rest = [] := List.length_eq_zero_iff.1 (by simpa using honce)
    rw [hnone]

/-- A claim that counts as absent is not there, or is `null`, which is as good. -/
theorem eq_null_of_isNoClaim {name : String} {members : List (Option String × JsonValue)}
    (honce : (membersNamed name members).length ≤ 1)
    (habsent : isNoClaim (membersNamed name members).head? = true) :
    ∀ v ∈ membersNamed name members, v = .null := by
  cases hmembers : membersNamed name members with
  | nil => simp
  | cons first rest =>
    rw [hmembers] at honce habsent
    have hnone : rest = [] := List.length_eq_zero_iff.1 (by simpa using honce)
    have hfirst : first = .null := by
      cases first with
      | null => rfl
      | _ => simp [isNoClaim] at habsent
    simp [hnone, hfirst]

/-- The fields that are found in an object are there at most once. An object with one of them twice
is refused as a whole. -/
theorem fields?_object {names : List String} {members : List (Option String × JsonValue)}
    {fields : List (Option JsonValue)} (h : (object members).fields? names = some fields) :
    (∀ name ∈ names, (membersNamed name members).length ≤ 1) ∧
      fields = names.map fun name => (membersNamed name members).head? := by
  simp only [fields?, Bool.and_eq_true, List.all_eq_true, decide_eq_true_eq] at h
  split_ifs at h with honce
  exact ⟨honce.2, (Option.some.inj h).symm⟩

theorem text?_eq_some_iff {v : JsonValue} {text : String} :
    v.text? = some text ↔ v = .string (some text) := by
  cases v <;> simp [text?]

theorem exists_literal_of_int64? {v : JsonValue} {n : Int} (h : v.int64? = some n) :
    ∃ literal, v = .number literal := by
  cases v with
  | number literal => exact ⟨literal, rfl⟩
  | _ => simp [int64?] at h

/-! ### Header -/

/-- A header that names the one algorithm: as a member of an object, or at the place of the
algorithm in an array. -/
def NamesAlgorithm : JsonValue → Prop
  | .object members => membersNamed "alg" members = [.string (some "HS256")]
  | .array elements => elements[1]? = some (.string (some "HS256"))
  | _ => False

/-- A header that is trusted names the algorithm, so a token signed in another way is not even
looked at. -/
theorem namesAlgorithm_of_isTrustedHeader {v : JsonValue} (h : isTrustedHeader v = true) :
    NamesAlgorithm v := by
  unfold isTrustedHeader at h
  simp only at h
  split at h
  · next typ alg cty jku jwk kid x5u x5c x5t x5tS256 hfields =>
    simp only [Bool.and_eq_true, decide_eq_true_eq] at h
    have halg : alg = some (.string (some "HS256")) := by
      obtain ⟨w, hw, htext⟩ := Option.bind_eq_some_iff.1 h.1.1.1.2
      rw [hw, text?_eq_some_iff.1 htext]
    cases v with
    | object members =>
      obtain ⟨honce, hfound⟩ := fields?_object hfields
      simp only [List.map_cons, List.cons.injEq] at hfound
      exact membersNamed_eq_singleton (honce "alg" (by simp)) (hfound.2.1.symm.trans halg)
    | array elements =>
      have hlength : elements.length = 10 := by simpa using h.1.1.1.1
      have hsecond : (elements.map some)[1]? = some alg := by
        simp only [fields?, hlength, List.length_cons, List.length_nil] at hfields
        rw [if_pos (by decide), Option.some.injEq] at hfields
        simp only [Nat.sub_self, List.replicate_zero, List.append_nil] at hfields
        rw [hfields]
        rfl
      rw [List.getElem?_map, halg, Option.map_eq_some_iff] at hsecond
      obtain ⟨w, hw, hvalue⟩ := hsecond
      rw [Option.some.injEq] at hvalue
      rw [NamesAlgorithm, hw, hvalue]
    | _ => simp [fields?] at hfields
  · simp at h

/-! ### Claims -/

/-- The members of an object state claims: all four with their exact types, each of them once, and
no audience. -/
structure StatesClaims (members : List (Option String × JsonValue)) (c : Claims) : Prop where
  subject : membersNamed "sub" members = [.string (some c.subject)]
  login : membersNamed "login" members = [.string (some c.login)]
  issuedAt : ∃ literal, membersNamed "iat" members = [.number literal] ∧
    (number literal).int64? = some c.issuedAt
  expiresAt : ∃ literal, membersNamed "exp" members = [.number literal] ∧
    (number literal).int64? = some c.expiresAt
  audience : ∀ v ∈ membersNamed "aud" members, v = .null

/-- Claims that are read were stated. What else is in the object does not count. -/
theorem statesClaims_of_ofJson? {v : JsonValue} {c : Claims} (h : Claims.ofJson? v = some c) :
    ∃ members, v = .object members ∧ StatesClaims members c := by
  unfold Claims.ofJson? at h
  split at h
  · next members =>
    refine ⟨members, rfl, ?_⟩
    split at h
    · next sub login iat exp nbf iss aud hfields =>
      obtain ⟨honce, hfound⟩ := fields?_object hfields
      simp only [List.map_cons, List.cons.injEq, List.map_nil, and_true] at hfound
      obtain ⟨hsub, hlogin, hiat, hexp, -, -, haud⟩ := hfound
      split_ifs at h with hrest
      split at h
      · next subject name issuedAt expiresAt hsubject hname hissued hexpires =>
        obtain rfl := Option.some.inj h
        rw [text?_eq_some_iff] at hsubject hname
        obtain ⟨issuedText, hissuedText⟩ := exists_literal_of_int64? hissued
        obtain ⟨expiresText, hexpiresText⟩ := exists_literal_of_int64? hexpires
        refine ⟨?_, ?_, ⟨issuedText, ?_, hissuedText ▸ hissued⟩,
          ⟨expiresText, ?_, hexpiresText ▸ hexpires⟩, fun w hw => ?_⟩
        · exact membersNamed_eq_singleton (honce "sub" (by simp)) (hsubject ▸ hsub.symm)
        · exact membersNamed_eq_singleton (honce "login" (by simp)) (hname ▸ hlogin.symm)
        · exact membersNamed_eq_singleton (honce "iat" (by simp)) (hissuedText ▸ hiat.symm)
        · exact membersNamed_eq_singleton (honce "exp" (by simp)) (hexpiresText ▸ hexp.symm)
        · have hnone : isNoClaim aud = true := (Bool.and_eq_true _ _ ▸ hrest).2
          exact eq_null_of_isNoClaim (honce "aud" (by simp)) (haud ▸ hnone) w hw
      · simp at h
    · simp at h
  · simp at h

/-! ### Callers -/

namespace TokenService

/-- A token that speaks for a caller at a time: three parts in base 64, of which the first names
the algorithm, the second states the claims of the caller, with an end at most a minute ago, and
the third is the authentication code of the other two under the secret. -/
structure VouchesFor (s : TokenService) (now : Instant) (header claims signature : List Char)
    (caller : Caller) : Prop where
  symbols : ∀ c ∈ header ++ claims ++ signature, c ∈ urlSafe.symbols
  algorithm : ∃ v, (urlSafe.decode header).bind ofBytes? = some v ∧ NamesAlgorithm v
  signed : urlSafe.decode signature =
    some (hmac (textBytes s.secret) (textBytes (String.ofList (header ++ '.' :: claims))))
  states : ∃ members c, (urlSafe.decode claims).bind ofBytes? = some (.object members) ∧
    StatesClaims members c ∧ 0 ≤ c.expiresAt ∧ now.seconds - 60 ≤ c.expiresAt ∧
    readInt64 c.subject = .ok caller.userId ∧ c.login = caller.login

/-- A trusted token speaks for the caller that its claims name. -/
theorem Trusts.vouchesFor {s : TokenService} {now : Instant} {header claims signature : List Char}
    {c : Claims} (h : s.Trusts now header claims signature c) {caller : Caller}
    (hcaller : c.caller = .ok caller) : s.VouchesFor now header claims signature caller := by
  obtain ⟨v, hheader, htrusted⟩ := h.readable
  obtain ⟨w, hclaims, hjson⟩ := Option.bind_eq_some_iff.1 h.speaks
  obtain ⟨members, rfl, hstates⟩ := statesClaims_of_ofJson? hjson
  obtain ⟨headerBytes, hheaderBytes, -⟩ := Option.bind_eq_some_iff.1 hheader
  obtain ⟨claimsBytes, hclaimsBytes, -⟩ := Option.bind_eq_some_iff.1 hclaims
  refine ⟨fun d hd => ?_, ⟨v, hheader, namesAlgorithm_of_isTrustedHeader htrusted⟩, ?_,
    members, c, hclaims, hstates, h.nonneg, h.valid, ?_⟩
  · simp only [List.mem_append] at hd
    rcases hd with (hd | hd) | hd
    · exact Alphabet.mem_symbols_of_decode hheaderBytes d hd
    · exact Alphabet.mem_symbols_of_decode hclaimsBytes d hd
    · rw [h.signed] at hd
      exact isComplete_urlSafe.mem_symbols_of_mem_encode hd
  · rw [h.signed]
    exact isComplete_urlSafe.decode_encode _
  · unfold Claims.caller at hcaller
    cases hread : readInt64 c.subject with
    | error e => simp [hread] at hcaller
    | ok userId =>
      rw [hread] at hcaller
      obtain rfl := Except.ok.inj hcaller
      exact ⟨rfl, rfl⟩

/-- **Nobody is taken for a caller without a token that speaks for the caller.** The signature is
decoded from the token that was shown, so it is there in the very form that was signed. -/
theorem vouchesFor_of_authenticate {s : TokenService} {now : Instant} {value? : Option String}
    {caller : Caller} (h : s.authenticate now value? = .ok caller) :
    ∃ value token, value? = some value ∧ HeaderCarries value token ∧
      ∃ header claims signature, token.toList = header ++ '.' :: (claims ++ '.' :: signature) ∧
        s.VouchesFor now header claims signature caller := by
  unfold authenticate at h
  cases htoken : value?.bind headerToken with
  | none => simp [htoken] at h
  | some token =>
    obtain ⟨value, rfl, hvalue⟩ := Option.bind_eq_some_iff.1 htoken
    rw [htoken] at h
    cases htrusted : s.trusted now token with
    | error e => simp [htrusted] at h
    | ok c =>
      simp only [htrusted] at h
      obtain ⟨header, claims, signature, hparts, htrusts⟩ := trusted_eq_ok_iff.1 htrusted
      exact ⟨value, token, rfl, headerCarries_of_headerToken hvalue, header, claims, signature,
        (parts?_eq_some_iff.1 hparts).1, htrusts.vouchesFor h⟩

theorem trusted_eq_error {s : TokenService} {now : Instant} {token : String} {e : AccessError}
    (h : s.trusted now token = .error e) : e = .invalidToken := by
  unfold trusted at h
  split at h
  · exact (Except.error.inj h).symm
  · simp only at h
    split_ifs at h
    · split at h
      · split_ifs at h
        exact (Except.error.inj h).symm
      · exact (Except.error.inj h).symm
    · exact (Except.error.inj h).symm

/-- Without a caller, the token is missing or invalid. No other error is ever the reason. -/
theorem authenticate_eq_error {s : TokenService} {now : Instant} {value? : Option String}
    {e : AccessError} (h : s.authenticate now value? = .error e) :
    e = .missingToken ∨ e = .invalidToken := by
  unfold authenticate at h
  split at h
  · exact .inl (Except.error.inj h).symm
  · next token _ =>
    cases htrusted : s.trusted now token with
    | error f =>
      simp only [htrusted] at h
      exact .inr ((Except.error.inj h).symm.trans (trusted_eq_error htrusted))
    | ok c =>
      simp only [htrusted, Claims.caller] at h
      split at h
      · simp at h
      · exact .inr (Except.error.inj h).symm

end TokenService

end ArithService
