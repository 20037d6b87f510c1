import ArithService.Http.MediaType
import ArithService.Json.Reader

/-!
# Requests

What is read from a request.

## Main Definitions

* `Request` — a request
* `Request.header?` — the text of a header
* `Request.document?` — the JSON document in the body
* `Request.expression?`, `Request.credentials?` — the records that callers send

## Design Notes

The first header of a name counts. A header with characters outside visible ASCII has no text.
A body is any bytes. It is read only where its media type announces JSON and its size is within the
limit.
-/

namespace ArithService

/-- A request. -/
structure Request where
  method : String
  /-- The path, without query. -/
  path : String
  /-- Names and values in the order in which they were sent. -/
  headers : List (String × String)
  body : Bytes
deriving DecidableEq, Repr

/-- A login with a password. -/
structure Credentials where
  login : String
  password : String
deriving DecidableEq, Repr

/-- The largest body, in bytes. -/
def largestBody : Nat := 2097152

/-- Whether a character may occur in a header that is read as text. -/
def isVisibleAscii (c : Char) : Bool := c = '\t' || (32 ≤ c.toNat && c.toNat < 127)

namespace Request

/-- The text of the first header with a name, given in lower case. -/
def header? (r : Request) (name : String) : Option String :=
  match r.headers.find? fun h => h.1.toList.map Char.toLower = name.toList with
  | some (_, value) => if value.toList.all isVisibleAscii then some value else none
  | none => none

/-- Whether the body is announced as JSON. -/
def announcesJson (r : Request) : Bool :=
  match (r.header? "content-type").bind MediaType.ofText? with
  | some m => m.isJson
  | none => false

/-- The JSON document in the body. -/
def document? (r : Request) : Option JsonValue :=
  if r.announcesJson && r.body.length ≤ largestBody then JsonValue.ofBytes? r.body else none

/-- The expression that the body asks for. -/
def expression? (r : Request) : Option String :=
  match r.document?.bind (·.fields? ["expression"]) with
  | some [some expression] => expression.text?
  | _ => none

/-- The credentials in the body. What is absent is taken to be empty. -/
def credentials? (r : Request) : Option Credentials :=
  match r.document?.bind (·.fields? ["login", "password"]) with
  | some [login, password] =>
    match login.elim (some "") JsonValue.text?, password.elim (some "") JsonValue.text? with
    | some login, some password => some ⟨login, password⟩
    | _, _ => none
  | _ => none

end Request

end ArithService
