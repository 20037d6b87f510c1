import Mathlib
import ArithService.Http.Api
import ArithService.Proofs.Store.Calls

/-!
# What a request does to a store

## Main Definitions

* `Request.IsSubmission` — whether a request may record a task
* `Request.Makes` — the calls of the store that a request may make
* `Request.Effect` — what a request may do to a store

## Design Notes

A request makes at most one call that can change a store, and all other routes only read. That
is all a run needs to know about requests: how a call is answered and in which form are left to
the routes.
-/

namespace ArithService

/-- Whether a request may record a task. -/
def Request.IsSubmission (r : Request) : Prop := r.method = "POST" ∧ r.path = Route.tasksPath

instance (r : Request) : Decidable r.IsSubmission := inferInstanceAs (Decidable (_ ∧ _))

/-- A failure is reported under its own status code. -/
@[simp]
theorem RequestError.status_response (e : RequestError) : e.response.status = e.status := by
  cases e <;> rfl

/-- Only the path of the tasks leads to the tasks. -/
theorem Route.eq_tasksPath {path : String} (h : ofPath? path = some tasks) : path = tasksPath := by
  by_contra hother
  unfold ofPath? at h
  rw [if_neg hother] at h
  split_ifs at h <;> simp at h

section Effects

variable {σ : Type} [Store σ]

/-- What a request may do to a store: nothing, or register a user, or record an expression that
has a value. -/
inductive Request.Effect (now : Instant) (r : Request) (before after : σ) : Prop where
  | unchanged (hstore : after = before)
  | registered (login passwordHash : String)
      (hstore : after = (Call.run ⟨now, .createUser login passwordHash⟩ before).2)
  | recorded (owner : Int) (expression : String) (work : Work) (hrequest : r.IsSubmission)
      (hwork : Work.ofText expression = .ok work)
      (hstore : after = (Call.run ⟨now, .enqueue owner expression work⟩ before).2)

/-- The calls of the store that a request may make. -/
inductive Request.Makes (api : Api) (m : Moment) (r : Request) : StoreCommand → Prop where
  /-- What changes nothing is as good as looking for a task. -/
  | look (id : String) : Makes api m r (.get id)
  /-- Credentials that are well-formed are registered, under the login without the white space at
  its ends. -/
  | register {c : Credentials} {passwordHash : String}
      (hroute : Route.ofPath? r.path = some .register) (hmethod : r.method = "POST")
      (hcredentials : r.credentials? = some c) (hname : trim c.login ≠ "")
      (hpassword : c.password ≠ "")
      (hhash : hashPassword api.hashCost m.salt c.password = .ok passwordHash) :
      Makes api m r (.createUser (trim c.login) passwordHash)
  /-- An expression with a value is recorded for the caller. -/
  | record {caller : Caller} {expression : String} {work : Work} (hrequest : r.IsSubmission)
      (hcaller : api.tokens.authenticate m.now (r.header? "authorization") = .ok caller)
      (hexpression : r.expression? = some expression) (hwork : Work.ofText expression = .ok work) :
      Makes api m r (.enqueue caller.userId expression work)

/-- A request makes a call of a store, and leaves the store as the call does. -/
def Request.Leaves (api : Api) (m : Moment) (r : Request) (before after : σ) : Prop :=
  ∃ command, r.Makes api m command ∧ after = (Call.run ⟨m.now, command⟩ before).2

variable (api : Api) (m : Moment) (r : Request) (s : σ)

/-- What only reads leaves the store as it was. -/
theorem leaves_unchanged : r.Leaves api m s s := ⟨.get "", .look "", rfl⟩

/-- Registering makes its call where the credentials are good, and none elsewhere. -/
theorem leaves_register (hroute : Route.ofPath? r.path = some .register)
    (hmethod : r.method = "POST") : r.Leaves api m s (register api.hashCost m r s).2 := by
  unfold register
  split
  · exact leaves_unchanged api m r s
  · next c hcredentials =>
    simp only
    split_ifs with hempty
    · exact leaves_unchanged api m r s
    · rw [not_or] at hempty
      split
      · exact leaves_unchanged api m r s
      · next hash hhash =>
        refine ⟨_, .register hroute hmethod hcredentials hempty.1 hempty.2 hhash, ?_⟩
        show _ = (Store.createUser (trim c.login) hash s).2
        split <;> next hcreated => rw [hcreated]

/-- A submission makes its call where the expression has a value, and none elsewhere. -/
theorem leaves_submitTask {caller : Caller} (hrequest : r.IsSubmission)
    (hcaller : api.tokens.authenticate m.now (r.header? "authorization") = .ok caller) :
    r.Leaves api m s (submitTask caller m r s).2 := by
  unfold submitTask
  split
  · exact leaves_unchanged api m r s
  · next expression hexpression =>
    split
    · exact leaves_unchanged api m r s
    · next work hwork =>
      refine ⟨_, .record hrequest hcaller hexpression hwork, ?_⟩
      show _ = (Store.enqueue m.now caller.userId expression work s).2
      split <;> next hrecorded => rw [hrecorded]

theorem leaves_respondTo {caller : Caller} {route : Route}
    (hroute : Route.ofPath? r.path = some route)
    (hcaller : api.tokens.authenticate m.now (r.header? "authorization") = .ok caller) :
    r.Leaves api m s (Api.respondTo caller m route r s).2 := by
  unfold Api.respondTo
  split
  · split_ifs with hpost
    · exact leaves_submitTask api m r s ⟨hpost, Route.eq_tasksPath hroute⟩ hcaller
    · exact leaves_unchanged api m r s
  · exact leaves_unchanged api m r s
  · exact leaves_unchanged api m r s

theorem leaves_respondOn {route : Route} (hroute : Route.ofPath? r.path = some route) :
    r.Leaves api m s (api.respondOn m route r s).2 := by
  unfold Api.respondOn
  -- Only two ways lead to a call: past the token to a submission, or openly to a registration.
  by_cases hprotected : route.isProtected = true
  · simp only [if_pos hprotected]
    split
    · exact leaves_unchanged api m r s
    · next caller hcaller =>
      by_cases hserved : r.method ∈ route.methods
      · simpa only [if_pos hserved] using leaves_respondTo api m r s hroute hcaller
      · simpa only [if_neg hserved] using leaves_unchanged api m r s
  · simp only [if_neg hprotected]
    by_cases hserved : r.method ∈ route.methods
    · rw [if_pos hserved]
      unfold Api.respondOpen
      split
      · exact leaves_register api m r s hroute (by simpa [Route.methods] using hserved)
      · exact leaves_unchanged api m r s
      · exact leaves_unchanged api m r s
    · rw [if_neg hserved]
      exact leaves_unchanged api m r s

/-- **A request makes at most one call that can change a store**, and no other call than it may
make. So whatever every call keeps, every request keeps. -/
theorem leaves_respond : r.Leaves api m s (api.respond m r s).2 := by
  unfold Api.respond
  cases hroute : Route.ofPath? r.path with
  | none => exact leaves_unchanged api m r s
  | some route => exact leaves_respondOn api m r s hroute

/-- **A request only does to a store what requests may do.** It is the same with less said about how
the request was made. -/
theorem effect_respond : r.Effect m.now s (api.respond m r s).2 := by
  obtain ⟨command, hmakes, hafter⟩ := leaves_respond api m r s
  cases hmakes with
  | look id => exact .unchanged hafter
  | register => exact .registered _ _ hafter
  | record hrequest _ _ hwork => exact .recorded _ _ _ hrequest hwork hafter

end Effects

end ArithService
