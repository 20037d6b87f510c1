import ArithService.Auth.Password
import ArithService.Auth.Token
import ArithService.Http.Request
import ArithService.Http.Response
import ArithService.Http.Route
import ArithService.Store.Store

/-!
# The programming interface

What every request is answered with.

## Main Definitions

* `Api` — tokens and the cost of password hashes
* `Moment` — what a request takes from its surroundings
* `register`, `login`, `answerExpression`, `submitTask`, `showTasks`, `showTask` — the routes
* `Api.respond` — the response to a request

## Design Notes

A protected route asks for the caller before it looks at the method. `HEAD` is answered like
`GET`, without the body. Another user's task is answered like a task that does not exist.
-/

namespace ArithService

/-- The settings of the interface. -/
structure Api where
  tokens : TokenService
  hashCost : Nat
deriving DecidableEq, Repr

/-- What a request takes from its surroundings: the time, and bytes for a salt. -/
structure Moment where
  now : Instant
  salt : Bytes
deriving DecidableEq, Repr

/-- What a route comes to. -/
abbrev Outcome := Except RequestError Response

/-- The response for what a route came to. -/
def Outcome.response : Outcome → Response
  | .ok r => r
  | .error e => e.response

/-- The complaint about a body that cannot be read. -/
def unreadableBody : String := "Invalid request format"

section Routes

variable {σ : Type} [Store σ]

/-! ### Users -/

/-- Register a user. -/
def register (cost : Nat) (m : Moment) (r : Request) (s : σ) : Outcome × σ :=
  match r.credentials? with
  | none => (.error (.badRequest unreadableBody), s)
  | some c =>
    let name := trim c.login
    if name = "" ∨ c.password = "" then
      (.error (.badRequest "login and password are required"), s)
    else
      match hashPassword cost m.salt c.password with
      | .error e => (.error (.ofAuth e), s)
      | .ok hash =>
        match Store.createUser name hash s with
        | (.ok _, s) => (.ok (.empty 200), s)
        | (.error e, s) => (.error (.ofStore e), s)

/-- Hand out a token for a login and its password. -/
def login (tokens : TokenService) (m : Moment) (r : Request) (s : σ) : Outcome :=
  match r.credentials? with
  | none => .error (.badRequest unreadableBody)
  | some c =>
    match Store.findUser (trim c.login) s with
    | .error e => .error (.ofStore e)
    | .ok none => .error (.ofAuth .invalidCredentials)
    | .ok (some u) =>
      if isPasswordOf c.password u.passwordHash then
        .ok (.json 200 (jsonObject [("token", jsonString (tokens.issue m.now u.id u.login))]))
      else .error (.ofAuth .invalidCredentials)

/-! ### Expressions and tasks -/

/-- Evaluate the expression in the body. -/
def answerExpression (r : Request) : Outcome :=
  match r.expression? with
  | none => .error (.unprocessable unreadableBody)
  | some expression =>
    match evaluateChecked expression with
    | .ok result => .ok (.json 200 (jsonObject [("result", result.jsonText)]))
    | .error e => .error (.ofEval e)

/-- Record the expression in the body as a task of the caller. -/
def submitTask (caller : Caller) (m : Moment) (r : Request) (s : σ) : Outcome × σ :=
  match r.expression? with
  | none => (.error (.unprocessable unreadableBody), s)
  | some expression =>
    match Work.ofText expression with
    | .error e => (.error (.ofEval e), s)
    | .ok work =>
      match Store.enqueue m.now caller.userId expression work s with
      | (.ok id, s) => (.ok (.json 201 (jsonObject [("id", jsonString id)])), s)
      | (.error e, s) => (.error (.ofStore e), s)

/-- The tasks of the caller. -/
def showTasks (caller : Caller) (s : σ) : Outcome :=
  match Store.list caller.userId s with
  | .ok ts => .ok (.json 200 (jsonObject [("tasks", jsonArray (ts.map Task.json))]))
  | .error e => .error (.ofStore e)

/-- A task of the caller, named by a part of a path. -/
def showTask (caller : Caller) (part : List Char) (s : σ) : Outcome :=
  match percentDecoded? part with
  | none => .ok (.plain 400 "Invalid URL: Invalid UTF-8 in \x60id\x60")
  | some id =>
    match Store.get id s with
    | .error e => .error (.ofStore e)
    | .ok t =>
      if t.owner = caller.userId then .ok (.json 200 t.json)
      else .error (.notFound "task not found")

/-! ### Requests -/

namespace Api

/-- The response of a route that is open to everybody, to a method that it serves. -/
def respondOpen (api : Api) (m : Moment) (route : Route) (r : Request) (s : σ) : Outcome × σ :=
  match route with
  | .register => register api.hashCost m r s
  | .login => (login api.tokens m r s, s)
  | _ => (.ok (.json 200 (jsonObject [("status", jsonString "ok")])), s)

/-- The response of a protected route to a caller, to a method that it serves. -/
def respondTo (caller : Caller) (m : Moment) (route : Route) (r : Request) (s : σ) :
    Outcome × σ :=
  match route with
  | .tasks => if r.method = "POST" then submitTask caller m r s else (showTasks caller s, s)
  | .task part => (showTask caller part s, s)
  | _ => (answerExpression r, s)

/-- The response of a route. -/
def respondOn (api : Api) (m : Moment) (route : Route) (r : Request) (s : σ) : Outcome × σ :=
  let isServed := r.method ∈ route.methods
  if route.isProtected then
    match api.tokens.authenticate m.now (r.header? "authorization") with
    | .error e => (.error (.ofAuth e), s)
    | .ok caller =>
      if isServed then respondTo caller m route r s else (.ok (.empty 405), s)
  else if isServed then api.respondOpen m route r s
  else (.ok (.empty 405), s)

/-- The methods to be named in the response of a route to a method that it does not serve. -/
def allowed (route : Route) (method : String) : Option String :=
  if method ∈ route.methods then none else some (",".intercalate route.methods)

/-- The response to a request, and the store after it. -/
def respond (api : Api) (m : Moment) (r : Request) (s : σ) : Response × σ :=
  let (response, s) :=
    match Route.ofPath? r.path with
    | none => ((RequestError.notFound "Not found").response, s)
    | some route =>
      let (outcome, s) := api.respondOn m route r s
      ({ outcome.response with allow := allowed route r.method }, s)
  (if r.method = "HEAD" then { response with body := "" } else response, s)

end Api

end Routes

end ArithService
