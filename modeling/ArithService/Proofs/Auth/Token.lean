import Mathlib
import ArithService.Auth.Token
import ArithService.Proofs.Auth.Header
import ArithService.Proofs.Crypto.Base64
import ArithService.Proofs.Json.RoundTrip
import ArithService.Proofs.Time.Clock

/-!
# Tokens are accepted as they were issued

A token that was issued to a user is accepted, in every form of header, as this very user, until
a minute after its end.

## Main Definitions

* `TokenService.Trusts` — the parts of a token that can be trusted
* `IsIssueTime` — when tokens of a lifetime can be issued

## Design Notes

`TokenService.trusted` is turned into a predicate on the parts of a token once
(`trusted_eq_ok_iff`). What is issued has the parts that the predicate asks for, and whoever is
let in has shown such parts.
-/

namespace ArithService

/-! ### Texts in base 64 -/

/-- The bytes of a text are decoded from it in base 64. Whether bytes are a text is asked later, by
the reader of the JSON in them. -/
theorem decode_encodeText64 (text : String) :
    urlSafe.decode (encodeText64 text) = some (textBytes text) :=
  isComplete_urlSafe.decode_encode _

theorem dot_notMem_urlSafe : '.' ∉ urlSafe.symbols := by decide

/-- Nothing that is encoded has a dot, so the dots of a token are where its parts end. -/
theorem dot_notMem_encode (bs : Bytes) : '.' ∉ urlSafe.encode bs := fun h =>
  dot_notMem_urlSafe (isComplete_urlSafe.mem_symbols_of_mem_encode h)

theorem toNat_of_mem_urlSafe {c : Char} (hc : c ∈ urlSafe.symbols) :
    45 ≤ c.toNat ∧ c.toNat ≤ 122 := by
  have hall : urlSafe.symbols.all (fun c => 45 ≤ c.toNat && c.toNat ≤ 122) = true := by decide
  simpa using List.all_eq_true.1 hall c hc

theorem isWhiteSpace_of_mem_urlSafe {c : Char} (hc : c ∈ urlSafe.symbols) :
    isWhiteSpace c = false := by
  have hrange := toNat_of_mem_urlSafe hc
  simp only [isWhiteSpace, Bool.or_eq_false_iff, Bool.and_eq_false_iff, decide_eq_false_iff_not]
  omega

namespace TokenService

/-! ### The parts of a token -/

/-- A dot ends the characters before it. -/
theorem takeWhile_append_dot {before : List Char} (h : '.' ∉ before) (rest : List Char) :
    (before ++ '.' :: rest).takeWhile (· ≠ '.') = before := by
  rw [List.takeWhile_append_of_pos fun c hc => by
    have hnot : c ≠ '.' := fun heq => h (heq ▸ hc)
    simpa using hnot]
  simp

/-- Where not all characters are taken, the next one is a dot. -/
theorem eq_append_dot {cs : List Char} (h : (cs.takeWhile (· ≠ '.')).length ≠ cs.length) :
    cs = cs.takeWhile (· ≠ '.') ++ '.' :: cs.drop ((cs.takeWhile (· ≠ '.')).length + 1) := by
  induction cs with
  | nil => exact absurd rfl h
  | cons c cs ih =>
    by_cases hc : c = '.'
    · simp [hc]
    · have htake : (c :: cs).takeWhile (· ≠ '.') = c :: cs.takeWhile (· ≠ '.') := by simp [hc]
      rw [htake, List.length_cons] at h ⊢
      rw [List.length_cons] at h
      rw [List.drop_succ_cons, List.cons_append, ← ih (by omega)]

/-- A token has three parts, of which the last two have no dots. The first one may have some, and is
then no base 64. -/
theorem parts?_eq_some_iff {token header claims signature : List Char} :
    parts? token = some (header, claims, signature) ↔
      token = header ++ '.' :: (claims ++ '.' :: signature) ∧ '.' ∉ claims ∧ '.' ∉ signature := by
  constructor
  · intro h
    simp only [parts?] at h
    split_ifs at h with hshort
    obtain ⟨hend, hmiddle⟩ := not_or.1 hshort
    have hreverse : (token.reverse.takeWhile (· ≠ '.')).length ≠ token.reverse.length := by
      rwa [List.length_reverse]
    have htoken := eq_append_dot hreverse
    have hmessage := eq_append_dot hmiddle
    rw [hmessage] at htoken
    have hnot : ∀ cs : List Char, '.' ∉ (cs.takeWhile (· ≠ '.')).reverse := by
      intro cs hdot
      have := List.mem_takeWhile_imp (List.mem_reverse.1 hdot)
      simp at this
    simp only [Option.some.injEq, Prod.mk.injEq] at h
    obtain ⟨rfl, rfl, rfl⟩ := h
    refine ⟨?_, hnot _, hnot _⟩
    conv_lhs => rw [← token.reverse_reverse, htoken]
    simp
  · rintro ⟨rfl, hclaims, hsignature⟩
    have hreverse : (header ++ '.' :: (claims ++ '.' :: signature)).reverse =
        signature.reverse ++ '.' :: (claims.reverse ++ '.' :: header.reverse) := by simp
    have hdrop : ∀ before rest : List Char,
        (before ++ '.' :: rest).drop (before.length + 1) = rest := by simp
    simp only [parts?, hreverse, takeWhile_append_dot (List.mem_reverse.not.2 hsignature),
      hdrop, takeWhile_append_dot (List.mem_reverse.not.2 hclaims)]
    rw [if_neg (by simp only [List.length_reverse, List.length_append, List.length_cons]; omega)]
    simp

/-! ### Trust -/

/-- The parts of a token that can be trusted at a time: a header that names the algorithm, claims
that have not ended, and the signature of both. -/
structure Trusts (s : TokenService) (now : Instant) (header claims signature : List Char)
    (c : Claims) : Prop where
  readable : ∃ v, (urlSafe.decode header).bind JsonValue.ofBytes? = some v ∧ isTrustedHeader v = true
  speaks : ((urlSafe.decode claims).bind JsonValue.ofBytes?).bind Claims.ofJson? = some c
  signed : signature = s.signature (header ++ '.' :: claims)
  nonneg : 0 ≤ c.expiresAt
  valid : now.seconds - leeway ≤ c.expiresAt

/-- **A token is trusted for its parts.** Nothing else is known of the program that reads tokens
from here on, neither by those who issue them nor by those who forge them. -/
theorem trusted_eq_ok_iff {s : TokenService} {now : Instant} {token : String} {c : Claims} :
    s.trusted now token = .ok c ↔
      ∃ header claims signature, parts? token.toList = some (header, claims, signature) ∧
        s.Trusts now header claims signature c := by
  unfold trusted
  cases hparts : parts? token.toList with
  | none => simp
  | some parts =>
    obtain ⟨header, claims, signature⟩ := parts
    constructor
    · intro h
      refine ⟨header, claims, signature, rfl, ?_⟩
      cases hheader : (urlSafe.decode header).bind JsonValue.ofBytes? with
      | none => simp [hheader] at h
      | some v =>
        simp only [hheader, Bool.and_eq_true, decide_eq_true_eq] at h
        split_ifs at h with htrusted
        cases hclaims : ((urlSafe.decode claims).bind JsonValue.ofBytes?).bind Claims.ofJson? with
        | none => simp [hclaims] at h
        | some d =>
          simp only [hclaims] at h
          split_ifs at h with htimes
          obtain rfl := Except.ok.inj h
          exact ⟨⟨v, hheader, htrusted.1⟩, hclaims, htrusted.2.symm, htimes.1, htimes.2⟩
    · rintro ⟨header', claims', signature', hsame, htrusts⟩
      simp only [Option.some.injEq, Prod.mk.injEq] at hsame
      obtain ⟨rfl, rfl, rfl⟩ := hsame
      obtain ⟨v, hheader, htrusted⟩ := htrusts.readable
      simp [hheader, htrusted, htrusts.speaks, htrusts.signed.symm, htrusts.nonneg,
        htrusts.valid]

end TokenService

/-! ### Header and claims -/

/-- The header of issued tokens can be trusted: it names the one algorithm that is accepted. -/
theorem tokenHeader_isTrusted :
    ∃ v, JsonValue.ofBytes? (textBytes tokenHeader) = some v ∧ isTrustedHeader v = true := by
  refine ⟨.object [(some "typ", .string (some "JWT")), (some "alg", .string (some "HS256"))],
    (readsAs_jsonObject ?_).ofBytes?, by decide⟩
  exact .cons ⟨rfl, readsAs_jsonString _⟩ (.cons ⟨rfl, readsAs_jsonString _⟩ .nil)

/-- **Claims are read back**, whatever the texts in them are. Quotes, control characters and
characters of many bytes are all in the logins that somebody may choose. -/
theorem Claims.ofJson?_json {c : Claims} (hissued : IsInt64 c.issuedAt)
    (hexpires : IsInt64 c.expiresAt) :
    (JsonValue.ofBytes? (textBytes c.json)).bind Claims.ofJson? = some c := by
  have htext : JsonValue.ofBytes? (textBytes c.json) = some (.object
      [(some "sub", .string (some c.subject)), (some "login", .string (some c.login)),
        (some "iat", .number (toString c.issuedAt).toList),
        (some "exp", .number (toString c.expiresAt).toList)]) := by
    refine (readsAs_jsonObject ?_).ofBytes?
    exact .cons ⟨rfl, readsAs_jsonString _⟩ (.cons ⟨rfl, readsAs_jsonString _⟩
      (.cons ⟨rfl, readsAs_toString _⟩ (.cons ⟨rfl, readsAs_toString _⟩ .nil)))
  have hissuedAt := int64?_toString hissued
  have hexpiresAt := int64?_toString hexpires
  rw [htext, Option.bind_some]
  generalize (toString c.issuedAt).toList = issuedAt at hissuedAt ⊢
  generalize (toString c.expiresAt).toList = expiresAt at hexpiresAt ⊢
  simp [Claims.ofJson?, JsonValue.fields?, JsonValue.membersNamed, JsonValue.text?, isNoClaim,
    hissuedAt, hexpiresAt]

namespace TokenService

variable {s : TokenService} {now later : Instant} {c : Claims}

/-! ### Issued tokens -/

theorem toList_sign (s : TokenService) (c : Claims) :
    (s.sign c).toList = encodeText64 tokenHeader ++ '.' :: (encodeText64 c.json ++ '.' ::
      s.signature (encodeText64 tokenHeader ++ '.' :: encodeText64 c.json)) := by
  rw [sign, String.toList_ofList, List.append_assoc, List.cons_append]

/-- A signed token is trusted until a minute after its end. -/
theorem trusted_sign (s : TokenService) (hissued : IsInt64 c.issuedAt)
    (hexpires : IsInt64 c.expiresAt) (hnonneg : 0 ≤ c.expiresAt)
    (hvalid : later.seconds - leeway ≤ c.expiresAt) : s.trusted later (s.sign c) = .ok c := by
  refine trusted_eq_ok_iff.2 ⟨encodeText64 tokenHeader, encodeText64 c.json,
    s.signature (encodeText64 tokenHeader ++ '.' :: encodeText64 c.json), ?_, ?_⟩
  · exact parts?_eq_some_iff.2 ⟨s.toList_sign c, dot_notMem_encode _, dot_notMem_encode _⟩
  · obtain ⟨v, htext, htrusted⟩ := tokenHeader_isTrusted
    refine ⟨⟨v, ?_, htrusted⟩, ?_, rfl, hnonneg, hvalid⟩
    · rw [decode_encodeText64, Option.bind_some, htext]
    · rw [decode_encodeText64, Option.bind_some, Claims.ofJson?_json hissued hexpires]

/-- A signed token consists of symbols and dots, so it has no white space that a header would be cut
at. -/
theorem mem_of_mem_sign {d : Char} (hd : d ∈ (s.sign c).toList) :
    d ∈ urlSafe.symbols ∨ d = '.' := by
  have hsymbol : ∀ {bs : Bytes}, d ∈ urlSafe.encode bs → d ∈ urlSafe.symbols := fun h =>
    isComplete_urlSafe.mem_symbols_of_mem_encode h
  rw [toList_sign] at hd
  simp only [List.mem_append, List.mem_cons] at hd
  rcases hd with hd | rfl | hd | rfl | hd
  · exact .inl (hsymbol hd)
  · exact .inr rfl
  · exact .inl (hsymbol hd)
  · exact .inr rfl
  · exact .inl (hsymbol hd)

/-- A signed token is found in every header that carries it, however much white space is around
it. -/
theorem headerToken_sign {header : String} (h : HeaderCarries header (s.sign c)) :
    headerToken header = some (s.sign c) := by
  refine headerToken_of_headerCarries h (fun d hd => ?_) ?_
  · rcases mem_of_mem_sign hd with hsymbol | rfl
    · exact isWhiteSpace_of_mem_urlSafe hsymbol
    · decide
  · rw [toList_sign]
    simp

/-! ### Times -/

/-- Moving by whole seconds moves the seconds, in leap seconds as well: the fraction stays what it
was. -/
theorem seconds_move_ofSeconds {k : Int} (hproper : now.IsProper) (hk : 0 ≤ k) :
    (now.move (.ofSeconds k)).seconds = now.seconds + k := by
  have hseconds : (Span.ofSeconds k).seconds = k := by
    simp only [Span.seconds, Span.ofSeconds]
    exact Int.mul_tdiv_cancel k (by decide)
  have hnanos : (Span.ofSeconds k).nanos = 0 := by
    simp only [Span.nanos, Span.ofSeconds]
    exact Int.mul_tmod_left k _
  have htotal : (Span.ofSeconds k).nanoseconds = k * 1000000000 := rfl
  unfold Instant.IsProper at hproper
  unfold Instant.move
  split_ifs with hleap hforwards hbackwards
  · simp only [Instant.isLeap, decide_eq_true_eq] at hleap
    simp only [Instant.ofNanoseconds, Instant.leaveLeap, Instant.nanoseconds, htotal, if_true]
    omega
  · rw [hseconds] at hbackwards
    omega
  · -- A leap second is only left for another second.
    rw [hseconds, hnanos] at hforwards
    show now.seconds = now.seconds + k
    omega
  · simp only [Instant.isLeap, decide_eq_true_eq] at hleap
    simp only [Instant.ofNanoseconds, Instant.nanoseconds, htotal]
    omega

/-- When tokens for a number of seconds, at most a year, can be issued: their end has a date, and
is not before 1970. -/
structure IsIssueTime (now : Instant) (k : Int) : Prop where
  proper : now.IsProper
  nonneg : 0 ≤ k
  bound : k ≤ 8760 * 3600
  inRange : (now.add? (.ofSeconds k)).isSome
  notBefore : 0 ≤ now.seconds + k

/-- Both times of a token have 64 bits, so they are read back from its JSON. -/
theorem IsIssueTime.isInt64 {k : Int} (h : IsIssueTime now k) :
    IsInt64 now.seconds ∧ IsInt64 (now.seconds + k) := by
  have hrange := h.inRange
  have hnonneg := h.nonneg
  have hbound := h.bound
  have hstart := h.notBefore
  have hlatest : Instant.latest.seconds ≤ 2 ^ 62 := by decide
  have hend : now.seconds + k ≤ Instant.latest.seconds := by
    simp only [Instant.add?] at hrange
    split_ifs at hrange with hmoved
    · simp only [Instant.inRange, Bool.and_eq_true, decide_eq_true_eq,
        seconds_move_ofSeconds h.proper hnonneg] at hmoved
      exact hmoved.2
    · simp at hrange
  unfold IsInt64
  omega

/-- **An issued token is trusted** until a minute after its end, and speaks of the user it was
issued to. -/
theorem trusted_issue {k : Int} (hlifetime : s.lifetime = .ofSeconds k)
    (hissue : IsIssueTime now k) (hlater : later.seconds ≤ now.seconds + k + leeway)
    (userId : Int) (login : String) :
    s.trusted later (s.issue now userId login) =
      .ok ⟨toString userId, login, now.seconds, now.seconds + k⟩ := by
  have hclaims : s.claimsAt now userId login =
      ⟨toString userId, login, now.seconds, now.seconds + k⟩ := by
    rw [claimsAt, hlifetime, seconds_move_ofSeconds hissue.proper hissue.nonneg]
  obtain ⟨hissued, hexpires⟩ := hissue.isInt64
  rw [issue, hclaims]
  exact s.trusted_sign hissued hexpires hissue.notBefore (by simp only; omega)

/-- An issued token is accepted as the user it was issued to, as the number of the user is read back
from a text of its own. -/
theorem authenticate_issue {k : Int} (hlifetime : s.lifetime = .ofSeconds k)
    (hissue : IsIssueTime now k) (hlater : later.seconds ≤ now.seconds + k + leeway)
    {userId : Int} (huser : IsInt64 userId) {login header : String}
    (hheader : HeaderCarries header (s.issue now userId login)) :
    s.authenticate later (some header) = .ok ⟨userId, login⟩ := by
  have htoken : headerToken header = some (s.issue now userId login) := headerToken_sign hheader
  simp only [authenticate, Option.bind_some, htoken, trusted_issue hlifetime hissue hlater,
    Claims.caller, readInt64_toString huser]

end TokenService

/-- **Issued tokens are accepted.** Whatever the secret, the user and the login are, a token with
a lifetime of at most a year of 8760 hours, in whole seconds, is accepted from every header that
carries it until 60 seconds after its end: as the user it was issued to, and with claims that span
the lifetime. -/
theorem issued_tokens_are_accepted {s : TokenService} {k : Int}
    (hlifetime : s.lifetime = .ofSeconds k) {now later : Instant}
    (hissue : TokenService.IsIssueTime now k) (hlater : later.seconds ≤ now.seconds + k + 60)
    {userId : Int} (huser : IsInt64 userId) {login header : String}
    (hheader : HeaderCarries header (s.issue now userId login)) :
    s.authenticate later (some header) = .ok ⟨userId, login⟩ ∧
      ∃ c, s.trusted later (s.issue now userId login) = .ok c ∧ c.expiresAt - c.issuedAt = k := by
  refine ⟨TokenService.authenticate_issue hlifetime hissue hlater huser hheader, _,
    TokenService.trusted_issue hlifetime hissue hlater userId login, ?_⟩
  show now.seconds + k - now.seconds = k
  omega

/-- A service with tokens for an hour. -/
def hourlyTokens : TokenService := ⟨"secret", .ofSeconds 3600⟩

theorem isIssueTime_hour : TokenService.IsIssueTime ⟨1700000000, 0⟩ 3600 where
  proper := .inl (by decide)
  nonneg := by decide
  bound := by decide
  inRange := by decide
  notBefore := by decide

theorem headerCarries_bearer (token : String) :
    HeaderCarries (" Bearer\t " ++ token ++ " ") token := by
  refine @HeaderCarries.bearer _ _ [' '] ['\t', ' '] [' '] ?_ ?_ (by simp) ?_ ?_
  · simp [IsWhite, isWhiteSpace]
  · simp [IsWhite, isWhiteSpace]
  · simp [IsWhite, isWhiteSpace]
  · simp [bearerScheme]

/-- A negative number and a login with characters to be escaped, in a header with white space all
over, at the last moment. -/
theorem issued_tokens_are_accepted_late :
    hourlyTokens.lifetime = .ofSeconds 3600 ∧ TokenService.IsIssueTime ⟨1700000000, 0⟩ 3600 ∧
      IsInt64 (-7) ∧
      HeaderCarries (" Bearer\t " ++ hourlyTokens.issue ⟨1700000000, 0⟩ (-7) "\"логин\\\n" ++ " ")
        (hourlyTokens.issue ⟨1700000000, 0⟩ (-7) "\"логин\\\n") ∧
      hourlyTokens.authenticate ⟨1700003660, 999999999⟩
          (some (" Bearer\t " ++ hourlyTokens.issue ⟨1700000000, 0⟩ (-7) "\"логин\\\n" ++ " ")) =
        .ok ⟨-7, "\"логин\\\n"⟩ := by
  have haccepted := (issued_tokens_are_accepted (s := hourlyTokens) rfl isIssueTime_hour
    (show (⟨1700003660, 999999999⟩ : Instant).seconds ≤ 1700000000 + 3600 + 60 by decide)
    (show IsInt64 (-7) by decide)
    (headerCarries_bearer (hourlyTokens.issue ⟨1700000000, 0⟩ (-7) "\"логин\\\n"))).1
  exact ⟨rfl, isIssueTime_hour, by decide, headerCarries_bearer _, haccepted⟩

end ArithService
