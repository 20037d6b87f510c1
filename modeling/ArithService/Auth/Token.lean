import ArithService.Auth.Error
import ArithService.Auth.Header
import ArithService.Crypto.Base64
import ArithService.Crypto.Digest
import ArithService.Text.Bytes
import ArithService.Json.Reader
import ArithService.Json.Writer
import ArithService.Time.Instant

/-!
# Access tokens

Signed tokens that say who a caller is.

## Main Definitions

* `Claims` — what a token says
* `TokenService` — signing key and lifetime
* `TokenService.issue` — a token for a user
* `TokenService.trusted` — the claims of a token that can be trusted
* `TokenService.authenticate` — the caller behind a header value

## Design Notes

A token is header, claims and signature, each in base 64 and separated by dots. The signature
is the authentication code of the text before it. Header and claims are JSON records; fields
that are not known are ignored, known fields may not be repeated.
-/

namespace ArithService

/-- What a token says. Times are in seconds since 1 January 1970. -/
structure Claims where
  /-- The number of the user. -/
  subject : String
  login : String
  issuedAt : Int
  expiresAt : Int
deriving DecidableEq, Repr

/-- The caller a request was authenticated as. -/
structure Caller where
  userId : Int
  login : String
deriving DecidableEq, Repr

/-- The base 64 text of a text. -/
def encodeText64 (text : String) : List Char := urlSafe.encode (textBytes text)

/-! ### Claims -/

/-- The claims as a JSON object. -/
def Claims.json (c : Claims) : String :=
  jsonObject [("sub", jsonString c.subject), ("login", jsonString c.login),
    ("iat", toString c.issuedAt), ("exp", toString c.expiresAt)]

mutual

/-- Whether all strings in a value have a text. -/
def JsonValue.hasWholeStrings : JsonValue → Bool
  | .null => true
  | .bool _ => true
  | .number _ => true
  | .string text => text.isSome
  | .array elements => haveWholeStrings elements
  | .object members => membersHaveWholeStrings members

/-- Whether all strings in the elements of an array have a text. -/
def haveWholeStrings : List JsonValue → Bool
  | [] => true
  | v :: rest => v.hasWholeStrings && haveWholeStrings rest

/-- Whether all strings in the members of an object, and their names, have a text. -/
def membersHaveWholeStrings : List (Option String × JsonValue) → Bool
  | [] => true
  | (name, v) :: rest => name.isSome && v.hasWholeStrings && membersHaveWholeStrings rest

end

/-- Whether a value may stand for a time that is not looked at: anything but a composite value
with content. -/
def isIgnorableTime : JsonValue → Bool
  | .array elements => elements.isEmpty
  | .object members => members.isEmpty
  | v => v.hasWholeStrings

/-- Whether a claim is absent or `null`. -/
def isNoClaim : Option JsonValue → Bool
  | none => true
  | some .null => true
  | some _ => false

/-- The claims in a document. All four have to be there with their exact types; an audience is
refused, since no service is one. -/
def Claims.ofJson? (v : JsonValue) : Option Claims :=
  match v with
  | .object _ =>
    match v.fields? ["sub", "login", "iat", "exp", "nbf", "iss", "aud"] with
    | some [some sub, some login, some iat, some exp, nbf, iss, aud] =>
      if (nbf.map isIgnorableTime).getD true && (iss.map JsonValue.hasWholeStrings).getD true &&
          isNoClaim aud then
        match sub.text?, login.text?, iat.int64?, exp.int64? with
        | some subject, some login, some issuedAt, some expiresAt =>
          some { subject, login, issuedAt, expiresAt }
        | _, _, _, _ => none
      else none
    | _ => none
  | _ => none

/-- The caller that claims speak of. -/
def Claims.caller (c : Claims) : Except AccessError Caller :=
  match readInt64 c.subject with
  | .ok userId => .ok ⟨userId, c.login⟩
  | .error _ => .error .invalidToken

/-! ### Header -/

/-- The header of every token that is issued. -/
def tokenHeader : String := jsonObject [("typ", jsonString "JWT"), ("alg", jsonString "HS256")]

/-- Whether a value is absent, `null` or a string. -/
def isOptionalText (v : Option JsonValue) : Bool :=
  match v with
  | none => true
  | some v => v.optionalText?.isSome

/-- Whether a value is absent, `null` or an array of strings. -/
def isOptionalTextList (v : Option JsonValue) : Bool :=
  match v with
  | none => true
  | some .null => true
  | some (.array elements) => elements.all fun e => e.text?.isSome
  | some _ => false

/-- Whether a header is well-formed and names the one algorithm that is accepted. Embedded keys
are not accepted. -/
def isTrustedHeader (v : JsonValue) : Bool :=
  let names := ["typ", "alg", "cty", "jku", "jwk", "kid", "x5u", "x5c", "x5t", "x5t#S256"]
  let complete :=
    match v with
    | .array elements => elements.length = names.length
    | _ => true
  match v.fields? names with
  | some [typ, alg, cty, jku, jwk, kid, x5u, x5c, x5t, x5tS256] =>
    complete && alg.bind JsonValue.text? = some "HS256" &&
      [typ, cty, jku, kid, x5u, x5t, x5tS256].all isOptionalText &&
      isNoClaim jwk && isOptionalTextList x5c
  | _ => false

/-! ### Tokens -/

/-- What is needed to issue and to check tokens. -/
structure TokenService where
  secret : String
  lifetime : Span
deriving DecidableEq, Repr

namespace TokenService

/-- The signature of a text. -/
def signature (s : TokenService) (text : List Char) : List Char :=
  urlSafe.encode (hmac (textBytes s.secret) (textBytes (String.ofList text)))

/-- The token with given claims. -/
def sign (s : TokenService) (c : Claims) : String :=
  let message := encodeText64 tokenHeader ++ '.' :: encodeText64 c.json
  String.ofList (message ++ '.' :: s.signature message)

/-- The claims of a token issued now. -/
def claimsAt (s : TokenService) (now : Instant) (userId : Int) (login : String) : Claims where
  subject := toString userId
  login
  issuedAt := now.seconds
  expiresAt := (now.move s.lifetime).seconds

/-- A token for a user, issued now. -/
def issue (s : TokenService) (now : Instant) (userId : Int) (login : String) : String :=
  s.sign (s.claimsAt now userId login)

/-- The three parts of a token: the text before its second last dot, the text between its last
two dots, and the text after them. -/
def parts? (token : List Char) : Option (List Char × List Char × List Char) :=
  let fromEnd := token.reverse
  let signature := fromEnd.takeWhile (· ≠ '.')
  let message := fromEnd.drop (signature.length + 1)
  let claims := message.takeWhile (· ≠ '.')
  let header := message.drop (claims.length + 1)
  if signature.length = token.length ∨ claims.length = message.length then none
  else some (header.reverse, claims.reverse, signature.reverse)

/-- How many seconds after its end a token is still accepted. -/
def leeway : Int := 60

/-- The claims of a token, if it can be trusted: header, signature and claims are right, and
it has not ended before now. -/
def trusted (s : TokenService) (now : Instant) (token : String) : Except AccessError Claims :=
  match parts? token.toList with
  | none => .error .invalidToken
  | some (header, claims, signature) =>
    let isTrusted :=
      match (urlSafe.decode header).bind JsonValue.ofBytes? with
      | some v => isTrustedHeader v && s.signature (header ++ '.' :: claims) = signature
      | none => false
    if isTrusted then
      match ((urlSafe.decode claims).bind JsonValue.ofBytes?).bind Claims.ofJson? with
      | some c =>
        if 0 ≤ c.expiresAt ∧ now.seconds - leeway ≤ c.expiresAt then .ok c
        else .error .invalidToken
      | none => .error .invalidToken
    else .error .invalidToken

/-- The caller behind an optional header value. -/
def authenticate (s : TokenService) (now : Instant) (header : Option String) :
    Except AccessError Caller :=
  match header.bind headerToken with
  | none => .error .missingToken
  | some token =>
    match s.trusted now token with
    | .ok claims => claims.caller
    | .error e => .error e

end TokenService

end ArithService
