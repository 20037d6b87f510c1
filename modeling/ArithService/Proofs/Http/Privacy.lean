import Mathlib
import ArithService.Proofs.Database.Reading
import ArithService.Proofs.Http.Gate
import ArithService.Proofs.Http.Request

/-!
# Tasks are private

What a user is answered by reading depends on the tasks of this user alone. A task of another user
is answered like a task that does not exist.

## Main Definitions

* `Asks` — a request to read, by a user who has shown a token
* `readOutcome` — what reading comes to, by the user, the route and the store
* `KeepsTasksPrivate` — what holds of the states that a store can get into

## Design Notes

The two requests that are compared may be sent at different times, with different tokens of the
same user and with different headers: none of this is in `readOutcome`. For a single task there
are two ways to the same answer, since the store may find no task, and the route may find that
the task is not the caller's (`ReadsTasks.showTask_hidden`).
-/

namespace ArithService

/-- A request to read, by a user who has shown a token. -/
structure Asks (api : Api) (m : Moment) (r : Request) (user : Int) : Prop where
  method : r.method = "GET"
  caller : ∃ login,
    api.tokens.authenticate m.now (r.header? "authorization") = .ok ⟨user, login⟩

/-- The response about a task that does not exist. -/
def taskNotFound : Response :=
  ⟨404, some "application/json", none, "\x7b\"error\":\"task not found\"\x7d"⟩

section Reading

variable {σ : Type} [Store σ]

/-- What reading comes to. -/
def readOutcome (user : Int) (route : Route) (s : σ) : Outcome :=
  match route with
  | .tasks => showTasks ⟨user, ""⟩ s
  | .task part => showTask ⟨user, ""⟩ part s
  | .health => .ok (.json 200 (jsonObject [("status", jsonString "ok")]))
  | _ => .ok (.empty 405)

/-- **A request to read is answered by the path, the user and the store.** -/
theorem Asks.respond_eq {api : Api} {m : Moment} {r : Request} {user : Int}
    (h : Asks api m r user) (s : σ) :
    api.respond m r s = (match Route.ofPath? r.path with
      | none => (RequestError.notFound "Not found").response
      | some route =>
        { (readOutcome user route s).response with allow := Api.allowed route "GET" }, s) := by
  obtain ⟨login, hcaller⟩ := h.caller
  have hget : ¬ "GET" = "HEAD" := by decide
  cases hroute : Route.ofPath? r.path with
  | none => simp only [Api.respond, hroute, h.method, if_neg hget]
  | some route =>
    cases route with
    | tasks =>
      rw [respond_eq_answerTo hroute rfl hcaller]
      simp [Api.answerTo, h.method, Route.methods, Api.respondTo, readOutcome, showTasks]
    | task part =>
      rw [respond_eq_answerTo hroute rfl hcaller]
      simp [Api.answerTo, h.method, Route.methods, Api.respondTo, readOutcome, showTask]
    | calculate =>
      rw [respond_eq_answerTo hroute rfl hcaller]
      simp [Api.answerTo, h.method, Route.methods, readOutcome]
    | _ =>
      simp [Api.respond, hroute, Api.respondOn, Route.isProtected, h.method, Route.methods,
        Api.respondOpen, readOutcome]

/-! ### Other users -/

variable {newer : Task → Task → Prop} {s o : σ} {caller : Caller} {part : List Char} {id : String}

/-- A task that is not the caller's is answered like a task that does not exist. The store may find
it or not: the two ways to this answer are the two cases. -/
theorem ReadsTasks.showTask_hidden (h : ReadsTasks newer s) (hid : percentDecoded? part = some id)
    (hhidden : ∀ t, Store.get id s = .ok t → t.owner ≠ caller.userId) :
    (showTask caller part s).response = taskNotFound := by
  have htext : (RequestError.notFound "task not found").response = taskNotFound := by decide
  unfold showTask
  rcases h.get id with ⟨t, hget, -⟩ | hnone
  · simp only [hid, hget, if_neg (hhidden t hget)]
    exact htext
  · simp only [hid, hnone]
    exact htext

/-- A task is shown alike by stores with the same tasks for the caller. -/
theorem ReadsTasks.showTask_eq (hs : ReadsTasks newer s) (ho : ReadsTasks newer o)
    (hsame : SameTasksOf caller.userId s o) (part : List Char) :
    (showTask caller part s).response = (showTask caller part o).response := by
  cases hid : percentDecoded? part with
  | none => simp only [showTask, hid]
  | some id =>
    by_cases hown : ∃ t, Store.get id s = .ok t ∧ t.owner = caller.userId
    · obtain ⟨t, hget, howner⟩ := hown
      obtain rfl := hs.id_eq hget
      simp only [showTask, hid, hget, (hsame t howner).1 hget]
    · -- No task of the caller in one store: then there is none in the other one.
      rw [hs.showTask_hidden hid fun t hget howner => hown ⟨t, hget, howner⟩,
        ho.showTask_hidden hid fun t hget howner => hown ⟨t, ?_, howner⟩]
      obtain rfl := ho.id_eq hget
      exact (hsame t howner).2 hget

/-- Reading comes to the same in stores with the same tasks for the user. Lists are equal, and not
only permutations of each other, since the order of tasks is strict. -/
theorem ReadsTasks.readOutcome_eq (hs : ReadsTasks newer s) (ho : ReadsTasks newer o)
    (hasymm : ∀ t u, newer t u → ¬ newer u t) {user : Int} (hsame : SameTasksOf user s o)
    (route : Route) :
    (readOutcome user route s).response = (readOutcome user route o).response := by
  cases route with
  | tasks => simp only [readOutcome, showTasks, hs.list_eq ho hasymm hsame]
  | task part => exact hs.showTask_eq ho hsame part
  | _ => rfl

/-- In the states that a store can get into, tasks are private. -/
structure KeepsTasksPrivate (IsReachable : σ → Prop) : Prop where
  /-- States with the same tasks for a user give this user the same responses. -/
  same : ∀ {s o : σ} {user : Int}, IsReachable s → IsReachable o → SameTasksOf user s o →
    ∀ {api : Api} {m n : Moment} {r q : Request}, Asks api m r user → Asks api n q user →
      r.path = q.path → (api.respond m r s).1 = (api.respond n q o).1
  /-- Under the identifier of another user's task, and under an identifier that was never given
  out, nothing is found. -/
  hidden : ∀ {s : σ} {user : Int}, IsReachable s →
    ∀ {api : Api} {m : Moment} {r : Request}, Asks api m r user →
    ∀ {part : List Char} {id : String}, part ≠ [] → '/' ∉ part →
      r.path = "/api/v1/tasks/" ++ String.ofList part → percentDecoded? part = some id →
      (∀ t, Store.get id s = .ok t → t.owner ≠ user) → api.respond m r s = (taskNotFound, s)

/-- Tasks are private where they are found alike one by one and in lists. -/
theorem keepsTasksPrivate {IsReachable : σ → Prop} (hasymm : ∀ t u, newer t u → ¬ newer u t)
    (hreads : ∀ {s : σ}, IsReachable s → ReadsTasks newer s) :
    KeepsTasksPrivate IsReachable where
  same {s o user} hs ho hsame {api m n r q} hr hq hpath := by
    rw [hr.respond_eq, hq.respond_eq, hpath]
    cases Route.ofPath? q.path with
    | none => rfl
    | some route => simp only [(hreads hs).readOutcome_eq (hreads ho) hasymm hsame route]
  hidden {s user} hs {api m r} hr {part id} hsome hpart hpath hid hhidden := by
    have hroute : Route.ofPath? r.path = some (.task part) := by
      rw [hpath, Route.ofPath?_task hsome hpart]
    have houtcome : (readOutcome user (.task part) s).response = taskNotFound :=
      (hreads hs).showTask_hidden hid hhidden
    rw [hr.respond_eq, hroute]
    simp only [houtcome]
    rfl

end Reading

/-- **Tasks are private**, in memory and on a database. -/
theorem tasks_are_private :
    KeepsTasksPrivate MemoryStore.IsReachable ∧ KeepsTasksPrivate DatabaseStore.IsReachable := by
  constructor
  · exact keepsTasksPrivate (fun t u => String.lt_asymm) fun h => h.readsTasks
  · exact keepsTasksPrivate (fun t u => Int.lt_asymm) fun h => h.readsTasks

/-! ### Two users -/

/-- A user and a task of the user. -/
def firstUser : List Call :=
  [⟨⟨1700000000, 0⟩, .createUser "alice" "hash"⟩,
    ⟨⟨1700000001, 0⟩, .enqueue 1 "6*7" (.binary "6" .mul "7")⟩]

/-- Another user as well, and a task of this one. -/
def twoUsers : List Call :=
  firstUser ++
    [⟨⟨1700000002, 0⟩, .createUser "bob" "hash"⟩,
      ⟨⟨1700000003, 0⟩, .enqueue 2 "3*3" (.binary "3" .mul "3")⟩]

/-- A request to read with a token of the first user. -/
def readRequest (path : String) : Request :=
  ⟨"GET", path, [("Authorization", " Bearer\t " ++
    hourlyTokens.issue ⟨1700000000, 0⟩ 1 "alice" ++ " ")], []⟩

theorem asks_readRequest (path : String) :
    Asks hourlyApi ⟨⟨1700000004, 0⟩, []⟩ (readRequest path) 1 where
  method := rfl
  caller := by
    refine ⟨"alice", ?_⟩
    rw [readRequest, Request.header?_bearer]
    exact TokenService.authenticate_issue rfl isIssueTime_hour (by decide) (by decide)
      (headerCarries_bearer _)

/-- The first user is answered alike in two states, of which the second one has a task of the
second user. -/
structure AnswersAlike {σ : Type} [Store σ] (s o : σ) : Prop where
  same : SameTasksOf 1 s o
  other : (Store.task? "task_1700000003000000000" o).map (·.owner) = some 2
  tasks : (hourlyApi.respond ⟨⟨1700000004, 0⟩, []⟩ (readRequest "/api/v1/tasks") s).1 =
    (hourlyApi.respond ⟨⟨1700000004, 0⟩, []⟩ (readRequest "/api/v1/tasks") o).1
  hidden : hourlyApi.respond ⟨⟨1700000004, 0⟩, []⟩
    (readRequest "/api/v1/tasks/task_1700000003000000000") o = (taskNotFound, o)

theorem KeepsTasksPrivate.answersAlike {σ : Type} [Store σ] {IsReachable : σ → Prop}
    (h : KeepsTasksPrivate IsReachable) {s o : σ} (hs : IsReachable s) (ho : IsReachable o)
    (hsame : SameTasksOf 1 s o)
    (hother : (Store.task? "task_1700000003000000000" o).map (·.owner) = some 2) :
    AnswersAlike s o where
  same := hsame
  other := hother
  tasks := h.same hs ho hsame (asks_readRequest _) (asks_readRequest _) rfl
  hidden := by
    have hid : percentDecoded? "task_1700000003000000000".toList =
        some "task_1700000003000000000" := by decide +kernel
    refine h.hidden ho (asks_readRequest _) (by decide) (by decide) rfl hid fun t ht => ?_
    rw [Store.task?_eq_some_iff.2 ht, Option.map_some, Option.some.injEq] at hother
    rw [hother]
    decide

/-- The first user cannot tell whether the second one has a task. -/
theorem tasks_are_private_two_users :
    AnswersAlike (runCalls MemoryStore.empty firstUser) (runCalls MemoryStore.empty twoUsers) ∧
      AnswersAlike (runCalls DatabaseStore.empty firstUser)
        (runCalls DatabaseStore.empty twoUsers) := by
  constructor
  · have hs : (runCalls MemoryStore.empty firstUser).IsReachable := ⟨firstUser, rfl⟩
    have ho : (runCalls MemoryStore.empty twoUsers).IsReachable := ⟨twoUsers, rfl⟩
    refine tasks_are_private.1.answersAlike hs ho (hs.readsTasks.sameTasksOf ho.readsTasks ?_) ?_
    · decide +kernel
    · decide +kernel
  · have hs := DatabaseStore.isReachable_runCalls firstUser
    have ho := DatabaseStore.isReachable_runCalls twoUsers
    refine tasks_are_private.2.answersAlike hs ho (hs.readsTasks.sameTasksOf ho.readsTasks ?_) ?_
    · decide +kernel
    · decide +kernel

end ArithService
