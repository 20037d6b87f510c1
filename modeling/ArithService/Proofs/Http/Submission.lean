import Mathlib
import ArithService.Proofs.Database.Reading
import ArithService.Proofs.Database.Recording
import ArithService.Proofs.Expression.Acceptance
import ArithService.Proofs.Http.Gate
import ArithService.Proofs.Http.Request

/-!
# Expressions are recorded as they are answered

An expression can be sent to be answered at once, or to be recorded as a task. Both ways accept
the same expressions, and refuse the others with the same words.

## Main Definitions

* `Request.Submits` — a request with an expression, by a caller who has shown a token
* `expressionResponse` — what an expression is answered with at once
* `SubmitsAlike` — what holds of the two ways in a store
* `AcceptsAlike` — a store in which both ways accept the same expressions

## Design Notes

What is answered at once does not depend on the store (`Submits.respond_calculate`), and what is
refused as a task is refused before the store is asked. So only recording needs to know the store.

**Numbers.** An expression with a value is recorded exactly if the number of the next task is unused
(`SubmitsAlike.accepts`), which is no condition on a request but a property of the store. It is proved
of every store in memory whose counter is not at its end, and of every database within the bounds of
the clock. It fails on a database where identifiers have different lengths: the counter goes on from
the greatest text, and the number behind it may be taken (`submissions_differ_after_restart`).
-/

namespace ArithService

/-- A request with an expression, by a caller who has shown a token. -/
structure Request.Submits (r : Request) (api : Api) (m : Moment) (path : String) (caller : Caller)
    (expression : String) : Prop where
  method : r.method = "POST"
  path : r.path = path
  caller : api.tokens.authenticate m.now (r.header? "authorization") = .ok caller
  expression : r.expression? = some expression

/-- What an expression is answered with at once. -/
def expressionResponse (expression : String) : Response :=
  match evaluateChecked expression with
  | .ok x => .json 200 (jsonObject [("result", x.jsonText)])
  | .error e => (RequestError.ofEval e).response

section Submissions

variable {σ : Type} [Store σ] {api : Api} {m n : Moment} {r q : Request} {caller : Caller}
  {expression : String}

/-- A request of a caller is answered by the route. -/
theorem Request.Submits.respond_eq {path : String} (h : r.Submits api m path caller expression)
    {route : Route} (hroute : Route.ofPath? path = some route)
    (hprotected : route.isProtected = true) (hserved : "POST" ∈ route.methods) (s : σ) :
    api.respond m r s =
      ({ (Api.respondTo caller m route r s).1.response with allow := none },
        (Api.respondTo caller m route r s).2) := by
  have hpost : ¬ "POST" = "HEAD" := by decide
  rw [respond_eq_answerTo (h.path ▸ hroute) hprotected h.caller]
  simp only [Api.answerTo, h.method, if_pos hserved, Api.allowed, if_neg hpost]

/-- An expression is answered with its value, or with the reason why it has none. -/
theorem Request.Submits.respond_calculate
    (h : r.Submits api m "/api/v1/calculate" caller expression) (s : σ) :
    api.respond m r s = (expressionResponse expression, s) := by
  have hroute : Route.ofPath? "/api/v1/calculate" = some .calculate := by decide
  rw [h.respond_eq hroute rfl (by decide)]
  simp only [Api.respondTo, answerExpression, h.expression, expressionResponse]
  cases evaluateChecked expression <;> rfl

/-- An expression without a value is refused for the same reason, before the store is asked. -/
theorem Request.Submits.respond_refused (h : r.Submits api m "/api/v1/tasks" caller expression)
    {e : ExpressionError} (hrefused : evaluateChecked expression = .error e) (s : σ) :
    api.respond m r s = (expressionResponse expression, s) := by
  have hroute : Route.ofPath? "/api/v1/tasks" = some .tasks := by decide
  rw [h.respond_eq hroute rfl (by decide)]
  simp only [Api.respondTo, if_pos h.method, submitTask, h.expression,
    Work.ofText_eq_error_iff.2 hrefused, expressionResponse, hrefused]
  rfl

/-- An expression with a value is answered by what the store answers. -/
theorem Request.Submits.respond_recorded (h : r.Submits api m "/api/v1/tasks" caller expression)
    {work : Work} (hwork : Work.ofText expression = .ok work) {s : σ} {id : String}
    (hrecorded : (Store.enqueue m.now caller.userId expression work s).1 = .ok id) :
    api.respond m r s = (.json 201 (jsonObject [("id", jsonString id)]),
      (Store.enqueue m.now caller.userId expression work s).2) := by
  have hroute : Route.ofPath? "/api/v1/tasks" = some .tasks := by decide
  rw [h.respond_eq hroute rfl (by decide)]
  cases hanswer : Store.enqueue m.now caller.userId expression work s with
  | mk result after =>
    rw [hanswer] at hrecorded
    obtain rfl : result = .ok id := hrecorded
    simp only [Api.respondTo, if_pos h.method, submitTask, h.expression, hwork, hanswer]
    rfl

/-- Where the store fails, so does the request. -/
theorem Request.Submits.respond_failed (h : r.Submits api m "/api/v1/tasks" caller expression)
    {work : Work} (hwork : Work.ofText expression = .ok work) {s : σ} {e : StoreError}
    (hfailed : (Store.enqueue m.now caller.userId expression work s).1 = .error e) :
    api.respond m r s = ({ (RequestError.ofStore e).response with allow := none },
      (Store.enqueue m.now caller.userId expression work s).2) := by
  have hroute : Route.ofPath? "/api/v1/tasks" = some .tasks := by decide
  rw [h.respond_eq hroute rfl (by decide)]
  cases hanswer : Store.enqueue m.now caller.userId expression work s with
  | mk result after =>
    rw [hanswer] at hfailed
    obtain rfl : result = .error e := hfailed
    simp only [Api.respondTo, if_pos h.method, submitTask, h.expression, hwork, hanswer]
    rfl

/-- An expression is answered with a value, or cannot be processed. -/
theorem status_expressionResponse (expression : String) :
    (∃ work, Work.ofText expression = .ok work ∧ (expressionResponse expression).status = 200) ∨
      ∃ e, evaluateChecked expression = .error e ∧
        (expressionResponse expression).status = 422 := by
  cases hwork : Work.ofText expression with
  | ok work =>
    obtain ⟨x, hvalue, -⟩ := Work.yields_of_ofText hwork
    refine .inl ⟨work, rfl, ?_⟩
    rw [expressionResponse, hvalue]
    rfl
  | error e =>
    have hrefused := Work.ofText_eq_error_iff.1 hwork
    refine .inr ⟨e, hrefused, ?_⟩
    rw [expressionResponse, hrefused]
    rfl

/-! ### The two ways -/

/-- What holds in a store of an expression that a caller sends to be answered, in a request `r`,
and to be recorded, in a request `q`. -/
structure SubmitsAlike (last : σ → Int) (users : σ → List User) (tasks : σ → List Task) (s : σ) :
    Prop where
  /-- A user's expression is recorded exactly where it is answered with a value and the next number
  is unused. -/
  accepts : ∀ {api : Api} {m n : Moment} {r q : Request} {caller : Caller} {expression : String},
    r.Submits api m "/api/v1/calculate" caller expression →
    q.Submits api n "/api/v1/tasks" caller expression → (∃ u ∈ users s, u.id = caller.userId) →
    ((api.respond n q s).1.status = 201 ↔
      (api.respond m r s).1.status = 200 ∧ IsUnused (last s) n.now (tasks s))
  /-- All other expressions get the same response on both ways, and are not recorded. -/
  refuses : ∀ {api : Api} {m n : Moment} {r q : Request} {caller : Caller} {expression : String},
    r.Submits api m "/api/v1/calculate" caller expression →
    q.Submits api n "/api/v1/tasks" caller expression → (api.respond m r s).1.status ≠ 200 →
    (api.respond m r s).1.status = 422 ∧ api.respond n q s = ((api.respond m r s).1, s)
  /-- What is recorded is recorded as the next task, with the work that is made of the expression
  and under an identifier that no other task has, and nothing else changes. -/
  records : ∀ {api : Api} {n : Moment} {q : Request} {caller : Caller} {expression : String},
    q.Submits api n "/api/v1/tasks" caller expression → (∃ u ∈ users s, u.id = caller.userId) →
    (api.respond n q s).1.status = 201 →
    ∃ work, Work.ofText expression = .ok work ∧
      (∀ t ∈ tasks s, t.id ≠ (nextTask (last s) n.now caller.userId expression work).id) ∧
      (api.respond n q s).1 = .json 201 (jsonObject
        [("id", jsonString (nextTask (last s) n.now caller.userId expression work).id)]) ∧
      Records users tasks (nextTask (last s) n.now caller.userId expression work) s
        (api.respond n q s).2
  /-- Where the next number is taken, an expression with a value is refused by the store; where
  there is no number left, there is no response. Nothing is recorded then. -/
  fails : ∀ {api : Api} {m n : Moment} {r q : Request} {caller : Caller} {expression : String},
    r.Submits api m "/api/v1/calculate" caller expression →
    q.Submits api n "/api/v1/tasks" caller expression → (∃ u ∈ users s, u.id = caller.userId) →
    (api.respond m r s).1.status = 200 → ¬ IsUnused (last s) n.now (tasks s) →
    ((api.respond n q s).1.status = 500 ∨
      nextNumber (last s) n.now = none ∧ (api.respond n q s).1 = .missing) ∧
      tasks (api.respond n q s).2 = tasks s ∧ users (api.respond n q s).2 = users s

/-- Whether the two ways accept the same expressions of users, where the requests to record them
come at given times. -/
def AcceptsAlike (users : σ → List User) (IsTime : Instant → Prop) (s : σ) : Prop :=
  ∀ ⦃api : Api⦄ ⦃m n : Moment⦄ ⦃r q : Request⦄ ⦃caller : Caller⦄ ⦃expression : String⦄,
    r.Submits api m "/api/v1/calculate" caller expression →
    q.Submits api n "/api/v1/tasks" caller expression → (∃ u ∈ users s, u.id = caller.userId) →
    IsTime n.now → ((api.respond m r s).1.status = 200 ↔ (api.respond n q s).1.status = 201)

/-- A store that refuses a number answers with an error of its own, or not at all. -/
theorem StoreError.RefusesNumber.response {next : Option Int} {e : StoreError}
    (h : e.RefusesNumber next) :
    (RequestError.ofStore e).response.status = 500 ∨
      next = none ∧ (RequestError.ofStore e).response = .missing := by
  cases next with
  | none =>
    obtain rfl : e = .brokenOff := h
    exact .inr ⟨rfl, rfl⟩
  | some _ =>
    obtain ⟨detail, rfl⟩ := h
    exact .inl rfl

/-- So no task is answered with as created, whichever way the store fails. -/
theorem StoreError.RefusesNumber.status_ne {next : Option Int} {e : StoreError}
    (h : e.RefusesNumber next) : (RequestError.ofStore e).response.status ≠ 201 := by
  rcases h.response with herror | ⟨-, hmissing⟩
  · rw [herror]
    decide
  · rw [hmissing]
    decide

section Alike

variable {last : σ → Int} {users : σ → List User} {tasks : σ → List Task} {s : σ}

/-- **Where tasks are recorded, expressions are recorded as they are answered.** -/
theorem RecordsTasks.submitsAlike {Sound : σ → Prop} (h : RecordsTasks last users tasks Sound)
    (hs : Sound s) : SubmitsAlike last users tasks s where
  accepts {api m n r q caller expression} hr hq huser := by
    rw [hr.respond_calculate]
    rcases status_expressionResponse expression with ⟨work, hwork, hstatus⟩ |
      ⟨e, hrefused, hstatus⟩
    · by_cases hunused : IsUnused (last s) n.now (tasks s)
      · rw [hq.respond_recorded hwork (h.records hs hwork huser hunused).1]
        exact ⟨fun _ => ⟨hstatus, hunused⟩, fun _ => rfl⟩
      · obtain ⟨e, hfailed, hrefuses, -⟩ := h.fails expression work hs huser hunused
        rw [hq.respond_failed hwork hfailed]
        exact iff_of_false hrefuses.status_ne fun hboth => hunused hboth.2
    · rw [hq.respond_refused hrefused]
      simp [hstatus]
  refuses {api m n r q caller expression} hr hq hother := by
    rw [hr.respond_calculate] at hother ⊢
    rcases status_expressionResponse expression with ⟨work, -, hstatus⟩ | ⟨e, hrefused, hstatus⟩
    · exact absurd hstatus hother
    · exact ⟨hstatus, hq.respond_refused hrefused s⟩
  records {api n q caller expression} hq huser haccepted := by
    rcases status_expressionResponse expression with ⟨work, hwork, -⟩ | ⟨e, hrefused, hstatus⟩
    · by_cases hunused : IsUnused (last s) n.now (tasks s)
      · obtain ⟨hid, hrecords⟩ := h.records hs hwork huser hunused
        refine ⟨work, hwork, hunused.unused, ?_⟩
        rw [hq.respond_recorded hwork hid]
        exact ⟨rfl, hrecords⟩
      · obtain ⟨e, hfailed, hrefuses, -⟩ := h.fails expression work hs huser hunused
        rw [hq.respond_failed hwork hfailed] at haccepted
        exact absurd haccepted hrefuses.status_ne
    · rw [hq.respond_refused hrefused, hstatus] at haccepted
      exact absurd haccepted (by decide)
  fails {api m n r q caller expression} hr hq huser hanswered hused := by
    rw [hr.respond_calculate] at hanswered
    rcases status_expressionResponse expression with ⟨work, hwork, -⟩ | ⟨e, -, hstatus⟩
    · obtain ⟨e, hfailed, hrefuses, htasks, husers⟩ := h.fails expression work hs huser hused
      rw [hq.respond_failed hwork hfailed]
      refine ⟨hrefuses.response.imp_right fun ⟨hnone, hmissing⟩ => ⟨hnone, ?_⟩, htasks, husers⟩
      rw [hmissing]
      rfl
    · simp [hstatus] at hanswered

/-- Where every number that is due is unused, both ways accept the same. -/
theorem SubmitsAlike.acceptsAlike (h : SubmitsAlike last users tasks s) {IsTime : Instant → Prop}
    (hunused : ∀ now, IsTime now → IsUnused (last s) now (tasks s)) :
    AcceptsAlike users IsTime s := by
  intro api m n r q caller expression hr hq huser htime
  rw [h.accepts hr hq huser, and_iff_left (hunused n.now htime)]

end Alike

end Submissions

/-! ### Both stores -/

/-- **Expressions are recorded as they are answered**, in every state that a store can get into,
whatever the clock shows: what is recorded is recorded as it should be, what has no value is refused
on both ways alike, and an expression with a value is recorded exactly if the next number is unused.
In memory it is unused until the counter has come to its end, and on a database for fewer than 10^16
tasks within the bounds of the clock, across any number of restarts. -/
theorem submissions_are_alike :
    (∀ s : MemoryStore, s.IsReachable →
      SubmitsAlike MemoryStore.lastNumber MemoryStore.users MemoryStore.tasks s ∧
        (s.lastNumber + 1 < 2 ^ 63 → AcceptsAlike MemoryStore.users (fun _ => True) s)) ∧
    (∀ s : DatabaseStore, s.IsReachable →
      SubmitsAlike DatabaseStore.lastNumber DatabaseStore.users DatabaseStore.tasks s) ∧
    ∀ steps : List DatabaseStep,
      (steps.filterMap DatabaseStep.call?).countP Call.isEnqueue < 10 ^ 16 →
      (∀ c ∈ steps.filterMap DatabaseStep.call?, c.now.IsClockReading) →
      AcceptsAlike MemoryStore.users Instant.IsClockReading
          (runCalls MemoryStore.empty (steps.filterMap DatabaseStep.call?)) ∧
        ∃ ids s, DatabaseStore.empty.history steps = .ok (ids, s) ∧
          AcceptsAlike DatabaseStore.users Instant.IsClockReading s := by
  have hmemory : ∀ s : MemoryStore, s.IsReachable →
      SubmitsAlike MemoryStore.lastNumber MemoryStore.users MemoryStore.tasks s := fun s hs =>
    MemoryStore.recordsTasks.submitsAlike hs.isNumbered
  have hdatabase : ∀ s : DatabaseStore, s.IsReachable →
      SubmitsAlike DatabaseStore.lastNumber DatabaseStore.users DatabaseStore.tasks s := fun s hs =>
    DatabaseStore.recordsTasks.submitsAlike hs.regular
  refine ⟨fun s hs => ⟨hmemory s hs, fun hroom => ?_⟩, hdatabase, ?_⟩
  · exact (hmemory s hs).acceptsAlike fun now _ => hs.isNumbered.isUnused_iff.2 hroom
  intro steps hcount hclock
  rw [← Nat.zero_add ((steps.filterMap DatabaseStep.call?).countP Call.isEnqueue)] at hcount
  constructor
  · obtain ⟨hfits, hroom⟩ := hasRoom_zero.run hcount hclock
    have hsound := MemoryStore.keepsTasks.sound_runCalls MemoryStore.sound_empty
      (fun c hc => (hclock c hc).isPlain) hfits
    have hreachable : MemoryStore.IsReachable (runCalls MemoryStore.empty
      (steps.filterMap DatabaseStep.call?)) := ⟨_, rfl⟩
    refine (hmemory _ hreachable).acceptsAlike fun now _ => hreachable.isNumbered.isUnused_iff.2 ?_
    rw [hsound.number]
    exact hroom.add_one_lt hcount
  · obtain ⟨ids, s, hhistory, last, hsound, hroom, -⟩ :=
      DatabaseStore.holds_empty.history hcount hclock
    refine ⟨ids, s, hhistory, (hdatabase s ⟨steps, ids, hhistory⟩).acceptsAlike
      fun now hnow => hsound.isUnused ?_⟩
    exact hroom.numberFits (c := ⟨now, .enqueue 0 "" (.expression "")⟩) (fun _ => hcount) hnow rfl

/-- A registered user. -/
def registeredAlice : List Call := [⟨⟨1700000000, 0⟩, .createUser "alice" "hash"⟩]

/-- A request of the user with an expression. -/
def expressionRequest (path expression : String) : Request :=
  ⟨"POST", path, [("Authorization", " Bearer\t " ++
    hourlyTokens.issue ⟨1700000000, 0⟩ 1 "alice" ++ " "), ("Content-Type", "application/json")],
    textBytes (expressionText expression)⟩

/-- Every expression can be submitted, up to the size of the largest body, as long as the token of
the user is good. -/
theorem submits_expressionRequest (path : String) {expression : String}
    (hsize : (expressionText expression).utf8ByteSize ≤ largestBody) {m : Moment}
    (hnow : m.now.seconds ≤ 1700000000 + 3600 + TokenService.leeway) :
    (expressionRequest path expression).Submits hourlyApi m path ⟨1, "alice"⟩ expression where
  method := rfl
  path := rfl
  caller := by
    rw [expressionRequest, Request.header?_bearer]
    exact TokenService.authenticate_issue rfl isIssueTime_hour hnow (by decide)
      (headerCarries_bearer _)
  expression := Request.expression?_eq rfl ((length_textBytes_eq_size _).trans_le hsize) rfl

/-- A product can be submitted on both ways. -/
theorem submits_product (path : String) {m : Moment}
    (hnow : m.now.seconds ≤ 1700000000 + 3600 + TokenService.leeway) :
    (expressionRequest path "6 * 7").Submits hourlyApi m path ⟨1, "alice"⟩ "6 * 7" :=
  submits_expressionRequest path (by decide) hnow

/-- A product is answered at once, in whatever state the store is. -/
theorem status_calculate_product {σ : Type} [Store σ] {m : Moment}
    (hnow : m.now.seconds ≤ 1700000000 + 3600 + TokenService.leeway) (s : σ) :
    (hourlyApi.respond m (expressionRequest "/api/v1/calculate" "6 * 7") s).1.status = 200 := by
  rw [(submits_product _ hnow).respond_calculate]
  show (expressionResponse "6 * 7").status = 200
  decide +kernel

/-- A product is answered, and recorded as a task with its operands; a division by zero is refused
with the same words on both ways. -/
structure SubmitsProduct {σ : Type} [Store σ] (tasks : σ → List Task) (s : σ) : Prop where
  answered : (hourlyApi.respond ⟨⟨1700000004, 0⟩, []⟩
    (expressionRequest "/api/v1/calculate" "6 * 7") s).1.status = 200
  recorded : ∃ t, (hourlyApi.respond ⟨⟨1700000004, 0⟩, []⟩
      (expressionRequest "/api/v1/tasks" "6 * 7") s).1 =
        .json 201 (jsonObject [("id", jsonString t.id)]) ∧
    t.status = .pending ∧ t.owner = 1 ∧ t.expression = "6 * 7" ∧
    t.arg1 = "6" ∧ t.operation = "*" ∧ t.arg2 = "7" ∧
    (tasks (hourlyApi.respond ⟨⟨1700000004, 0⟩, []⟩
      (expressionRequest "/api/v1/tasks" "6 * 7") s).2).Perm (t :: tasks s)
  refused : hourlyApi.respond ⟨⟨1700000004, 0⟩, []⟩ (expressionRequest "/api/v1/tasks" "1/0") s =
    ((hourlyApi.respond ⟨⟨1700000004, 0⟩, []⟩
      (expressionRequest "/api/v1/calculate" "1/0") s).1, s)

theorem SubmitsAlike.submitsProduct {σ : Type} [Store σ] {last : σ → Int}
    {users : σ → List User} {tasks : σ → List Task} {s : σ} (h : SubmitsAlike last users tasks s)
    (haccepts : AcceptsAlike users Instant.IsClockReading s) (huser : ∃ u ∈ users s, u.id = 1) :
    SubmitsProduct tasks s := by
  have hproduct : ∀ path, (expressionRequest path "6 * 7").Submits hourlyApi
      ⟨⟨1700000004, 0⟩, []⟩ path ⟨1, "alice"⟩ "6 * 7" := fun path =>
    submits_product path (by decide)
  have hquotient : ∀ path, (expressionRequest path "1/0").Submits hourlyApi
      ⟨⟨1700000004, 0⟩, []⟩ path ⟨1, "alice"⟩ "1/0" := fun path =>
    submits_expressionRequest path (by decide) (by decide)
  have hanswered : (hourlyApi.respond ⟨⟨1700000004, 0⟩, []⟩
      (expressionRequest "/api/v1/calculate" "6 * 7") s).1.status = 200 :=
    status_calculate_product (by decide) s
  refine ⟨hanswered, ?_, ?_⟩
  · have haccepted := (haccepts (hproduct _) (hproduct _) huser (by decide)).1 hanswered
    obtain ⟨work, hwork, -, hresponse, hrecords⟩ := h.records (hproduct _) huser haccepted
    have hbinary : Work.ofText "6 * 7" = .ok (.binary "6" .mul "7") := by decide +kernel
    obtain rfl := Except.ok.inj (hbinary.symm.trans hwork)
    exact ⟨nextTask (last s) ⟨1700000004, 0⟩ 1 "6 * 7" (.binary "6" .mul "7"),
      hresponse, rfl, rfl, rfl, rfl, rfl, rfl, hrecords.added⟩
  · refine (h.refuses (hquotient _) (hquotient _) ?_).2
    rw [(hquotient _).respond_calculate]
    show (expressionResponse "1/0").status ≠ 200
    decide +kernel

/-- A product is recorded as it is answered. -/
theorem submissions_are_alike_product :
    SubmitsProduct MemoryStore.tasks (runCalls MemoryStore.empty registeredAlice) ∧
      SubmitsProduct DatabaseStore.tasks (runCalls DatabaseStore.empty registeredAlice) := by
  obtain ⟨hmemory, ids, s, hhistory, hdatabase⟩ := submissions_are_alike.2.2
    (registeredAlice.map .call) (by decide) (by decide)
  rw [DatabaseStore.history_map_call] at hhistory
  obtain ⟨-, rfl⟩ := Prod.mk.inj (Except.ok.inj hhistory)
  constructor
  · exact (submissions_are_alike.1 _ ⟨registeredAlice, rfl⟩).1.submitsProduct hmemory (by decide)
  · exact (submissions_are_alike.2.1 _
      (DatabaseStore.isReachable_runCalls registeredAlice)).submitsProduct hdatabase (by decide)

/-! ### Identifiers of different lengths -/

/-- A clock that stands still in the last nanosecond in which identifiers have 18 digits. -/
def stalledClock : Instant := ⟨999999999, 999999999⟩

/-- A database with an identifier of 18 digits and one of 19 digits, after a restart. -/
def lengthsDiffer : List DatabaseStep :=
  [.call ⟨stalledClock, .createUser "alice" "hash"⟩,
    .call ⟨stalledClock, .enqueue 1 "2+2" (.binary "2" .add "2")⟩,
    .call ⟨stalledClock, .enqueue 1 "3+3" (.binary "3" .add "3")⟩, .reopen]

/-- **A restart can make the two ways differ.** The shorter identifier is the greater text, so the
counter goes on from its number, and the number behind it is that of the other task. -/
theorem submissions_differ_after_restart :
    ∃ ids s, DatabaseStore.empty.history lengthsDiffer = .ok (ids, s) ∧
      (∃ u ∈ s.users, u.id = 1) ∧
      (hourlyApi.respond ⟨stalledClock, []⟩
        (expressionRequest "/api/v1/calculate" "6 * 7") s).1.status = 200 ∧
      (hourlyApi.respond ⟨stalledClock, []⟩
        (expressionRequest "/api/v1/tasks" "6 * 7") s).1.status = 500 ∧
      ¬ AcceptsAlike DatabaseStore.users (fun _ => True) s := by
  have hrun : (DatabaseStore.empty.history lengthsDiffer).toOption.map
      (fun h => (h.2.lastNumber, h.2.users.map (·.id), h.2.tasks.map (·.id))) =
        some (999999999999999999, [1],
          ["task_999999999999999999", "task_1000000000000000000"]) := by
    decide +kernel
  cases hhistory : DatabaseStore.empty.history lengthsDiffer with
  | error e => simp [hhistory, Except.toOption] at hrun
  | ok result =>
    obtain ⟨ids, s⟩ := result
    simp only [hhistory, Except.toOption, Option.map_some, Option.some.injEq, Prod.mk.injEq] at hrun
    obtain ⟨hlast, husers, htasks⟩ := hrun
    have halike := DatabaseStore.recordsTasks.submitsAlike
      (DatabaseStore.IsReachable.regular ⟨lengthsDiffer, ids, hhistory⟩)
    have hsubmits : ∀ path, (expressionRequest path "6 * 7").Submits hourlyApi
        ⟨stalledClock, []⟩ path ⟨1, "alice"⟩ "6 * 7" := fun path =>
      submits_product path (by decide)
    have huser : ∃ u ∈ s.users, u.id = 1 := List.mem_map.1 (by rw [husers]; decide)
    have hgiven : nextNumber s.lastNumber stalledClock = some 1000000000000000000 := by
      rw [hlast]
      decide
    have htaken : ¬ IsUnused s.lastNumber stalledClock s.tasks := by
      intro hunused
      obtain ⟨t, ht, hid⟩ : ∃ t ∈ s.tasks, t.id = "task_1000000000000000000" :=
        List.mem_map.1 (by rw [htasks]; decide)
      have hdue := Option.some.inj (hgiven.symm.trans hunused.given)
      exact hunused.unused t ht (by rw [hid, ← hdue]; decide)
    have hanswered : (hourlyApi.respond ⟨stalledClock, []⟩
        (expressionRequest "/api/v1/calculate" "6 * 7") s).1.status = 200 :=
      status_calculate_product (by decide) s
    have hrefused : (hourlyApi.respond ⟨stalledClock, []⟩
        (expressionRequest "/api/v1/tasks" "6 * 7") s).1.status = 500 := by
      refine (halike.fails (hsubmits _) (hsubmits _) huser hanswered htaken).1.resolve_right ?_
      rintro ⟨hnone, -⟩
      simp [hgiven] at hnone
    refine ⟨ids, s, rfl, huser, hanswered, hrefused, fun hall => ?_⟩
    have haccepted := (hall (hsubmits _) (hsubmits _) huser trivial).1 hanswered
    rw [hrefused] at haccepted
    exact absurd haccepted (by decide)

end ArithService
