import Mathlib
import ArithService.Http.Api
import ArithService.Proofs.Auth.Trust
import ArithService.Store.Memory

/-!
# The gate in front of protected routes

Every request to a protected path is refused and leaves the store as it is, or has shown a token
and is answered as a request of the caller the token speaks for.

## Main Definitions

* `IsProtectedPath` — a path behind the gate
* `Request.IsRefused` — what is answered to a request that is not let in
* `Request.IsAdmitted` — what a request has shown that is let in
* `Api.answerTo` — how a request of a known caller is answered

## Design Notes

The gate stands before the choice of the method, so a known caller may still use a method that
the route does not serve. That is part of `Api.answerTo`, which knows the caller but no tokens.
-/

namespace ArithService

/-! ### Paths -/

/-- The path of the tasks, or a path below it with one more part. -/
def IsTaskPath (path : String) : Prop :=
  path = "/api/v1/tasks" ∨
    ∃ part : List Char, part ≠ [] ∧ '/' ∉ part ∧ path = "/api/v1/tasks/" ++ String.ofList part

/-- A path behind the gate. -/
def IsProtectedPath (path : String) : Prop := path = "/api/v1/calculate" ∨ IsTaskPath path

/-- A path below the tasks leads to the task that its last part names. -/
theorem Route.ofPath?_task {part : List Char} (hsome : part ≠ []) (hpart : '/' ∉ part) :
    ofPath? ("/api/v1/tasks/" ++ String.ofList part) = some (.task part) := by
  have htext : ("/api/v1/tasks/" ++ String.ofList part).toList =
      tasksPath.toList ++ ['/'] ++ part := by
    rw [String.toList_append, @String.toList_ofList part]
    rfl
  have hnot : ∀ path : String, (path.toList.take 14 ≠ tasksPath.toList ++ ['/']) →
      "/api/v1/tasks/" ++ String.ofList part ≠ path := by
    rintro path hpath rfl
    rw [htext] at hpath
    exact hpath (List.take_left' rfl)
  unfold ofPath?
  rw [if_neg (hnot _ (by decide)), if_neg (hnot _ (by decide)), if_neg (hnot _ (by decide)),
    if_neg (hnot _ (by decide)), if_neg (hnot _ (by decide))]
  simp only [taskPart?, htext, List.take_left, List.drop_left]
  rw [if_pos ⟨trivial, hsome, hpart⟩]
  rfl

theorem IsProtectedPath.exists_route {path : String} (h : IsProtectedPath path) :
    ∃ route, Route.ofPath? path = some route ∧ route.isProtected = true := by
  rcases h with rfl | rfl | ⟨part, hsome, hpart, rfl⟩
  · exact ⟨.calculate, by decide, rfl⟩
  · exact ⟨.tasks, by decide, rfl⟩
  · exact ⟨.task part, Route.ofPath?_task hsome hpart, rfl⟩

section Gate

variable {σ : Type} [Store σ]

/-! ### Answers -/

/-- A request is refused: unauthorized, for a missing or an invalid token, and the store is as it
was. The response to `HEAD` has no body. -/
structure Request.IsRefused (r : Request) (s : σ) (answer : Response × σ) : Prop where
  status : answer.1.status = 401
  body : answer.1.body =
      (if r.method = "HEAD" then "" else "\x7b\"error\":\"Missing token\"\x7d") ∨
    answer.1.body = (if r.method = "HEAD" then "" else "\x7b\"error\":\"Invalid token\"\x7d")
  store : answer.2 = s

/-- A request shows, in its first authorization header, a token that speaks for a caller. -/
def Request.IsAdmitted (tokens : TokenService) (now : Instant) (r : Request) (caller : Caller) :
    Prop :=
  ∃ name value token, r.headers.find? (fun h => h.1.toList.map Char.toLower =
      "authorization".toList) = some (name, value) ∧
    HeaderCarries value token ∧
    ∃ header claims signature, token.toList = header ++ '.' :: (claims ++ '.' :: signature) ∧
      tokens.VouchesFor now header claims signature caller

/-- How a request of a known caller is answered. -/
def Api.answerTo (caller : Caller) (m : Moment) (route : Route) (r : Request) (s : σ) :
    Response × σ :=
  let (outcome, s) :=
    if r.method ∈ route.methods then Api.respondTo caller m route r s
    else (.ok (.empty 405), s)
  let response := { outcome.response with allow := Api.allowed route r.method }
  (if r.method = "HEAD" then { response with body := "" } else response, s)

variable {api : Api} {m : Moment} {r : Request} {s : σ} {route : Route}

/-- A caller who is known is answered as this caller. -/
theorem respond_eq_answerTo (hroute : Route.ofPath? r.path = some route)
    (hprotected : route.isProtected = true) {caller : Caller}
    (hcaller : api.tokens.authenticate m.now (r.header? "authorization") = .ok caller) :
    api.respond m r s = Api.answerTo caller m route r s := by
  simp only [Api.respond, hroute, Api.respondOn, if_pos hprotected, hcaller, Api.answerTo]

/-- A caller who is not known is refused. -/
theorem isRefused_of_authenticate (hroute : Route.ofPath? r.path = some route)
    (hprotected : route.isProtected = true) {e : AccessError}
    (hcaller : api.tokens.authenticate m.now (r.header? "authorization") = .error e) :
    r.IsRefused s (api.respond m r s) := by
  have hanswer : api.respond m r s =
      (if r.method = "HEAD" then
          { (RequestError.ofAuth e).response with
            allow := Api.allowed route r.method, body := "" }
        else { (RequestError.ofAuth e).response with allow := Api.allowed route r.method }, s) := by
    simp only [Api.respond, hroute, Api.respondOn, if_pos hprotected, hcaller, Outcome.response]
  rw [hanswer]
  rcases TokenService.authenticate_eq_error hcaller with rfl | rfl
  · refine ⟨?_, .inl ?_, rfl⟩
    · split_ifs <;> rfl
    · split_ifs <;> rfl
  · refine ⟨?_, .inr ?_, rfl⟩
    · split_ifs <;> rfl
    · split_ifs <;> rfl

/-- **Nobody passes the gate without a token.** Every request to a protected path, with any
method, headers and body and in any state of any store, is refused, or has shown a token of the
service and is answered as a request of the caller that the token speaks for. -/
theorem nobody_passes_without_a_token (api : Api) (m : Moment) {r : Request}
    (hpath : IsProtectedPath r.path) (s : σ) :
    r.IsRefused s (api.respond m r s) ∨
      ∃ caller route, r.IsAdmitted api.tokens m.now caller ∧ Route.ofPath? r.path = some route ∧
        api.respond m r s = Api.answerTo caller m route r s := by
  obtain ⟨route, hroute, hprotected⟩ := hpath.exists_route
  cases hcaller : api.tokens.authenticate m.now (r.header? "authorization") with
  | error e => exact .inl (isRefused_of_authenticate hroute hprotected hcaller)
  | ok caller =>
    refine .inr ⟨caller, route, ?_, hroute, respond_eq_answerTo hroute hprotected hcaller⟩
    obtain ⟨value, token, hheader, hcarries, htoken⟩ :=
      TokenService.vouchesFor_of_authenticate hcaller
    unfold Request.header? at hheader
    split at hheader
    · next name found hfind =>
      split_ifs at hheader
      obtain rfl := Option.some.inj hheader
      exact ⟨name, found, token, hfind, hcarries, htoken⟩
    · simp at hheader

end Gate

/-- A service with tokens for an hour and the cheapest password hashes. -/
def hourlyApi : Api := ⟨hourlyTokens, 4⟩

/-- A request to the tasks without any header. -/
def anonymousRequest (method : String) : Request := ⟨method, "/api/v1/tasks", [], []⟩

/-- An anonymous request for the tasks is refused. -/
theorem nobody_passes_without_a_token_anonymous :
    IsProtectedPath (anonymousRequest "GET").path ∧
      (anonymousRequest "GET").IsRefused MemoryStore.empty
        (hourlyApi.respond ⟨⟨1700000000, 0⟩, []⟩ (anonymousRequest "GET") MemoryStore.empty) := by
  have hpath : IsProtectedPath (anonymousRequest "GET").path := .inr (.inl rfl)
  refine ⟨hpath, ?_⟩
  rcases nobody_passes_without_a_token hourlyApi ⟨⟨1700000000, 0⟩, []⟩ hpath MemoryStore.empty with
    hrefused | ⟨caller, route, ⟨name, value, token, hfind, -⟩, -⟩
  · exact hrefused
  · rw [anonymousRequest, List.find?_nil] at hfind
    cases hfind

/-- The refusal of a `HEAD` request does not carry the text that other refusals carry. -/
theorem refused_head_has_no_body :
    ¬ (((hourlyApi.respond ⟨⟨1700000000, 0⟩, []⟩ (anonymousRequest "HEAD")
            MemoryStore.empty).1.status = 401 ∧
          ((hourlyApi.respond ⟨⟨1700000000, 0⟩, []⟩ (anonymousRequest "HEAD")
              MemoryStore.empty).1.body = "\x7b\"error\":\"Missing token\"\x7d" ∨
            (hourlyApi.respond ⟨⟨1700000000, 0⟩, []⟩ (anonymousRequest "HEAD")
              MemoryStore.empty).1.body = "\x7b\"error\":\"Invalid token\"\x7d")) ∨
        ∃ caller, (anonymousRequest "HEAD").IsAdmitted hourlyTokens ⟨1700000000, 0⟩ caller) := by
  have hbody : (hourlyApi.respond ⟨⟨1700000000, 0⟩, []⟩ (anonymousRequest "HEAD")
      MemoryStore.empty).1.body = "" := by rfl
  rintro (⟨-, htext | htext⟩ | ⟨caller, name, value, token, hfind, -⟩)
  · simp [hbody] at htext
  · simp [hbody] at htext
  · rw [anonymousRequest, List.find?_nil] at hfind
    cases hfind

end ArithService
