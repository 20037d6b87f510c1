import ArithService.Auth.Error
import ArithService.Expression.Error
import ArithService.Json.Writer
import ArithService.Store.Error

/-!
# Responses and errors

## Main Definitions

* `Response` — what is sent back for a request
* `Response.missing` — nothing, where a request was broken off
* `RequestError` — failures that are reported to a caller, by kind
* `RequestError.response` — the response for a failure

## Design Notes

Every failure is sent as an object with the single member `error`. Internal failures keep
their text to themselves. A request that is broken off has no response, and its connection is
closed; this is written as a response of status zero, which is the status of no response.
-/

namespace ArithService

/-- A response. -/
structure Response where
  status : Nat
  contentType : Option String
  /-- The methods that the route allows, where the request used another one. -/
  allow : Option String
  body : String
deriving DecidableEq, Repr

namespace Response

/-- A response without a body. -/
def empty (status : Nat) : Response := ⟨status, none, none, ""⟩

/-- A response with a JSON document. -/
def json (status : Nat) (document : String) : Response :=
  ⟨status, some "application/json", none, document⟩

/-- A response with a line of text. -/
def plain (status : Nat) (text : String) : Response :=
  ⟨status, some "text/plain; charset=utf-8", none, text⟩

/-- No response at all. -/
def missing : Response := empty 0

end Response

/-- A failure that is reported to the caller, or that leaves the caller without an answer. -/
inductive RequestError where
  | badRequest (text : String)
  | unauthorized (text : String)
  | notFound (text : String)
  | conflict (text : String)
  | unprocessable (text : String)
  | internal (text : String)
  /-- The request was broken off. -/
  | brokenOff
deriving DecidableEq, Repr

namespace RequestError

/-- The status code of a failure. -/
def status : RequestError → Nat
  | .badRequest _ => 400
  | .unauthorized _ => 401
  | .notFound _ => 404
  | .conflict _ => 409
  | .unprocessable _ => 422
  | .internal _ => 500
  | .brokenOff => Response.missing.status

/-- The text of a failure. -/
def message : RequestError → String
  | .badRequest text => text
  | .unauthorized text => text
  | .notFound text => text
  | .conflict text => text
  | .unprocessable text => text
  | .internal text => text
  | .brokenOff => Response.missing.body

/-- What the caller is told. -/
def publicMessage : RequestError → String
  | .internal _ => "Internal server error"
  | e => e.message

/-- The response for a failure. -/
def response : RequestError → Response
  | .brokenOff => .missing
  | e => .json e.status (jsonObject [("error", jsonString e.publicMessage)])

/-- How a storage error is reported. -/
def ofStore : StoreError → RequestError
  | .notFound entity _ => .notFound (entity ++ " not found")
  | .conflict detail => .conflict detail
  | .brokenOff => .brokenOff
  | e => .internal e.message

/-- How an authentication error is reported. -/
def ofAuth : AccessError → RequestError
  | .missingToken => .unauthorized "Missing token"
  | .invalidToken => .unauthorized "Invalid token"
  | .invalidCredentials => .unauthorized "Invalid credentials"
  | e => .internal e.message

/-- How an evaluation error is reported. -/
def ofEval (e : ExpressionError) : RequestError := .unprocessable e.message

end RequestError

end ArithService
