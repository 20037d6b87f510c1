import Mathlib
import ArithService.Proofs.Auth.Password
import ArithService.Proofs.Database.Users
import ArithService.Proofs.Http.Api
import ArithService.Proofs.Http.Gate
import ArithService.Proofs.Http.Request

/-!
# Accounts

Registering a login opens an account. From then on the login is refused to everybody else, and
whoever logs in with it and with the password is given tokens that speak for this account.

## Main Definitions

* `Request.Posts` — a request that posts credentials to a path
* `Becomes` — what a store can turn into while requests and workers are served
* `IsAccount`, `AddsAccounts` — users as registrations make them, and stores that only add such
* `LogsIn` — a login and a password that are good for a caller
* `KeepsAccounts` — what holds of accounts in a store

## Design Notes

Whatever happens to a store between a registration and a login only adds accounts, so the account
is still there (`KeepsUsers.addsAccounts`). That the password belongs to the stored text is no
assumption here; it is `isPasswordOf_hashPassword`.
-/

namespace ArithService

/-! ### Requests with credentials -/

/-- A request that posts credentials to a path. -/
structure Request.Posts (r : Request) (path : String) (c : Credentials) : Prop where
  method : r.method = "POST"
  path : r.path = path
  credentials : r.credentials? = some c

/-- A request with a login and a password. -/
def credentialsRequest (path : String) (c : Credentials) : Request :=
  ⟨"POST", path, [("Content-Type", "application/json")], textBytes (credentialsText c)⟩

/-- Every login and every password can be posted, up to the size of the largest body. So statements
about credentials are about requests that somebody can make. -/
theorem posts_credentialsRequest (path : String) {c : Credentials}
    (hsize : (credentialsText c).utf8ByteSize ≤ largestBody) :
    (credentialsRequest path c).Posts path c where
  method := rfl
  path := rfl
  credentials := Request.credentials?_eq rfl ((length_textBytes_eq_size _).trans_le hsize) rfl

/-- A registration that is well-formed, at a possible cost of hashes. -/
structure Registers (api : Api) (r : Request) (c : Credentials) : Prop where
  posts : r.Posts "/api/v1/register" c
  login : trim c.login ≠ ""
  password : c.password ≠ ""
  cost : isHashCost api.hashCost = true

/-- The response to a login that does not exist, and to a wrong password. -/
def invalidCredentials : Response :=
  ⟨401, some "application/json", none, "\x7b\"error\":\"Invalid credentials\"\x7d"⟩

/-! ### Tokens in use -/

/-- A token that is issued at one time can be used at another: the times in it are numbers of 64
bits, and it has not ended more than a minute before. -/
structure TokenService.IsUsable (t : TokenService) (issued use : Instant) : Prop where
  issuedAt : IsInt64 issued.seconds
  expiresAt : IsInt64 (issued.move t.lifetime).seconds
  notBefore : 0 ≤ (issued.move t.lifetime).seconds
  valid : use.seconds ≤ (issued.move t.lifetime).seconds + 60

/-- A token that can be used is accepted as the user it was issued to. -/
theorem TokenService.IsUsable.authenticate {t : TokenService} {issued use : Instant}
    (h : t.IsUsable issued use) {userId : Int} (huser : IsInt64 userId) {name header : String}
    (hheader : HeaderCarries header (t.issue issued userId name)) :
    t.authenticate use (some header) = .ok ⟨userId, name⟩ := by
  have htoken : headerToken header = some (t.issue issued userId name) := headerToken_sign hheader
  have htrusted : t.trusted use (t.issue issued userId name) =
      .ok (t.claimsAt issued userId name) := by
    refine t.trusted_sign h.issuedAt h.expiresAt h.notBefore ?_
    show use.seconds - 60 ≤ (issued.move t.lifetime).seconds
    have hvalid := h.valid
    omega
  simp only [TokenService.authenticate, Option.bind_some, htoken, htrusted, Claims.caller,
    claimsAt, readInt64_toString huser]

section Accounts

variable {σ : Type} [Store σ]

/-! ### What is served -/

/-- What a store can turn into: requests are answered, workers and sweeps make their calls, and
the data may be taken over by another store. Only requests register users. -/
inductive Becomes (restarts : σ → σ → Prop) (s : σ) : σ → Prop where
  | start : Becomes restarts s s
  | request {o : σ} (h : Becomes restarts s o) (api : Api) (m : Moment) (r : Request) :
      Becomes restarts s (api.respond m r o).2
  | call {o : σ} (h : Becomes restarts s o) (c : Call)
      (hcommand : ∀ name hash, c.command ≠ .createUser name hash) : Becomes restarts s (c.run o).2
  | restart {o p : σ} (h : Becomes restarts s o) (hrestart : restarts o p) : Becomes restarts s p

/-- A user as a registration makes it. -/
structure IsAccount (u : User) : Prop where
  trimmed : trim u.login = u.login
  named : u.login ≠ ""
  hash : IsZeroFree u.passwordHash

/-- Users as before, and accounts behind them. -/
def AddsAccounts (before after : List User) : Prop :=
  ∃ added, after = before ++ added ∧ ∀ u ∈ added, IsAccount u

theorem AddsAccounts.refl (users : List User) : AddsAccounts users users := ⟨[], by simp, by simp⟩

/-- Accounts are added one after the other, and each time behind those that were there. -/
theorem AddsAccounts.trans {a b c : List User} (h : AddsAccounts a b) (g : AddsAccounts b c) :
    AddsAccounts a c := by
  obtain ⟨first, rfl, hfirst⟩ := h
  obtain ⟨second, rfl, hsecond⟩ := g
  refine ⟨first ++ second, List.append_assoc _ _ _, ?_⟩
  intro u hu
  exact (List.mem_append.1 hu).elim (hfirst u) (hsecond u)

/-- A user who was there is still there, with the same number and the same stored text. -/
theorem AddsAccounts.mem {a b : List User} (h : AddsAccounts a b) {u : User} (hu : u ∈ a) :
    u ∈ b := by
  obtain ⟨added, rfl, -⟩ := h
  exact List.mem_append_left added hu

theorem AddsAccounts.isAccount {a b : List User} (h : AddsAccounts a b)
    (haccounts : ∀ u ∈ a, IsAccount u) : ∀ u ∈ b, IsAccount u := by
  obtain ⟨added, rfl, hadded⟩ := h
  intro u hu
  exact (List.mem_append.1 hu).elim (haccounts u) (hadded u)

namespace KeepsUsers

variable {read : String → String} {restarts : σ → σ → Prop} {Sound : σ → Prop}
  {users : σ → List User} (h : KeepsUsers read restarts Sound users)
include h

variable {s o : σ}

/-- A request registers nobody, or opens an account: what it stores was trimmed and hashed
before. -/
theorem addsAccounts_respond (hs : Sound s) (api : Api) (m : Moment) (r : Request) :
    Sound (api.respond m r s).2 ∧ AddsAccounts (users s) (users (api.respond m r s).2) := by
  obtain ⟨command, hmakes, hafter⟩ := leaves_respond api m r s
  rw [hafter]
  refine ⟨h.sound_run _ hs, ?_⟩
  cases hmakes with
  | look id =>
    rw [h.users_run hs (by simp)]
    exact .refl _
  | record =>
    rw [h.users_run hs (by simp)]
    exact .refl _
  | @register c stored _ _ _ hname _ hhash =>
    show AddsAccounts (users s) (users (Store.createUser (trim c.login) stored s).2)
    by_cases htaken : ∃ u ∈ users s, u.login = trim c.login
    · rw [h.refuses stored hs htaken]
      exact .refl _
    · push Not at htaken
      refine ⟨_, (h.creates stored hs htaken).2, ?_⟩
      intro u hu
      obtain rfl := List.mem_singleton.1 hu
      exact ⟨trim_trim c.login, hname, isZeroFree_of_hashPassword hhash⟩

/-- **Whatever is served only adds accounts.** By induction over what is served; only requests
register, and restarts take users over as they are. -/
theorem addsAccounts (hs : Sound s) (hbecomes : Becomes restarts s o) :
    Sound o ∧ AddsAccounts (users s) (users o) := by
  induction hbecomes with
  | start => exact ⟨hs, .refl _⟩
  | request _ api m r ih =>
    obtain ⟨hsound, hadds⟩ := h.addsAccounts_respond ih.1 api m r
    exact ⟨hsound, ih.2.trans hadds⟩
  | call _ c hcommand ih =>
    refine ⟨h.sound_run c ih.1, ?_⟩
    rw [h.users_run ih.1 hcommand]
    exact ih.2
  | restart _ hrestart ih =>
    obtain ⟨hsound, hsame⟩ := h.restart ih.1 hrestart
    refine ⟨hsound, ?_⟩
    rw [hsame]
    exact ih.2

end KeepsUsers

/-! ### Answers -/

/-- A request to an open route is answered by the route, without a look at any token. -/
theorem Request.Posts.respond_eq {r : Request} {path : String} {c : Credentials}
    (hposts : r.Posts path c) {route : Route} (hroute : Route.ofPath? path = some route)
    (hopen : route.isProtected = false) (hserved : "POST" ∈ route.methods) (api : Api) (m : Moment)
    (s : σ) :
    api.respond m r s =
      ({ (api.respondOpen m route r s).1.response with allow := none },
        (api.respondOpen m route r s).2) := by
  have hpost : ¬ "POST" = "HEAD" := by decide
  simp only [Api.respond, hposts.path, hroute, Api.respondOn, hopen, hposts.method, if_pos hserved,
    Api.allowed, if_neg hpost, Bool.false_eq_true, if_false]

/-- A registration is answered by what the store answers. Hashing does not fail at a cost that
settings allow. -/
theorem Registers.respond_eq {api : Api} {r : Request} {c : Credentials} (hr : Registers api r c)
    (m : Moment) (s : σ) :
    ∃ stored, hashPassword api.hashCost m.salt c.password = .ok stored ∧
      (api.respond m r s).1.status =
        (match (Store.createUser (trim c.login) stored s).1 with
          | .ok _ => 200
          | .error e => (RequestError.ofStore e).status) ∧
      (api.respond m r s).2 = (Store.createUser (trim c.login) stored s).2 := by
  obtain ⟨stored, hhash, -, -⟩ := hashPassword_eq hr.cost m.salt c.password
  have hsome : ¬ (trim c.login = "" ∨ c.password = "") := not_or.2 ⟨hr.login, hr.password⟩
  refine ⟨stored, hhash, ?_⟩
  have hroute : Route.ofPath? "/api/v1/register" = some .register := by decide
  rw [hr.posts.respond_eq hroute rfl (by decide)]
  simp only [Api.respondOpen, register, hr.posts.credentials, if_neg hsome, hhash]
  obtain ⟨result, after⟩ := Store.createUser (trim c.login) stored s
  cases result with
  | ok id => exact ⟨rfl, rfl⟩
  | error e => exact ⟨RequestError.status_response _, rfl⟩

/-- A login and a password are good for a caller: whoever posts them is given a token that is
accepted as this caller. -/
def LogsIn (s : σ) (u : Caller) (password : String) : Prop :=
  ∀ (api : Api) (m : Moment) (r : Request) (c : Credentials), r.Posts "/api/v1/login" c →
    trim c.login = u.login → c.password = password →
    ∃ token, api.respond m r s = (.json 200 (jsonObject [("token", jsonString token)]), s) ∧
      ∀ (use : Instant) (header : String), IsInt64 u.userId → api.tokens.IsUsable m.now use →
        HeaderCarries header token → api.tokens.authenticate use (some header) = .ok u

/-- What holds of accounts in a store with given users, where logins that are whole come back from
the store as they are. -/
structure KeepsAccounts (restarts : σ → σ → Prop) (users : σ → List User)
    (isWhole : String → Prop) (s : σ) : Prop where
  /-- Logins are trimmed and not empty. -/
  trimmed : ∀ u ∈ users s, trim u.login = u.login ∧ u.login ≠ ""
  logins : (users s).Pairwise (·.login ≠ ·.login)
  ids : (users s).Pairwise (·.id ≠ ·.id)
  /-- A login is refused, and the store left as it is, exactly where the login is taken. -/
  refuses : ∀ {api : Api} {m : Moment} {r : Request} {c : Credentials}, Registers api r c →
    ((api.respond m r s).1.status = 409 ∧ (api.respond m r s).2 = s ↔
      ∃ u ∈ users s, u.login = trim c.login)
  /-- Every other login is accepted. There is one more user then, and from then on the login and
  the password are good for this user. -/
  accepts : ∀ {api : Api} {m : Moment} {r : Request} {c : Credentials}, Registers api r c →
    (∀ u ∈ users s, u.login ≠ trim c.login) →
    (api.respond m r s).1.status = 200 ∧
      (∃ stored, users (api.respond m r s).2 =
        users s ++ [⟨(users s).length + 1, trim c.login, stored⟩]) ∧
      (isWhole (trim c.login) → m.salt.length = 16 →
        ∀ later, Becomes restarts (api.respond m r s).2 later →
          LogsIn later ⟨(users s).length + 1, trim c.login⟩ c.password)
  /-- Whoever posts a login that does not exist is told the same as with a wrong password. -/
  denies : ∀ {api : Api} {m : Moment} {r : Request} {c : Credentials}, r.Posts "/api/v1/login" c →
    (∀ u ∈ users s, u.login = trim c.login → isPasswordOf c.password u.passwordHash = false) →
    api.respond m r s = (invalidCredentials, s)

namespace KeepsUsers

variable {read : String → String} {restarts : σ → σ → Prop} {Sound : σ → Prop}
  {users : σ → List User} (h : KeepsUsers read restarts Sound users)
include h

variable {s : σ} {api : Api} {m : Moment} {r : Request} {c : Credentials}

/-- A login that is taken is a conflict, and changes nothing: the store refuses it, and nothing was
stored before. -/
theorem respond_taken (hs : Sound s) (hr : Registers api r c)
    (htaken : ∃ u ∈ users s, u.login = trim c.login) :
    (api.respond m r s).1.status = 409 ∧ (api.respond m r s).2 = s := by
  obtain ⟨stored, -, hstatus, hafter⟩ := hr.respond_eq m s
  rw [hstatus, hafter, h.refuses stored hs htaken]
  exact ⟨rfl, rfl⟩

/-- A login that is not taken is registered, with the stored text of the password and under the next
number. -/
theorem respond_free (hs : Sound s) (hr : Registers api r c)
    (hfree : ∀ u ∈ users s, u.login ≠ trim c.login) :
    (api.respond m r s).1.status = 200 ∧
      ∃ stored, hashPassword api.hashCost m.salt c.password = .ok stored ∧
        users (api.respond m r s).2 =
          users s ++ [⟨(users s).length + 1, trim c.login, stored⟩] := by
  obtain ⟨stored, hhash, hstatus, hafter⟩ := hr.respond_eq m s
  obtain ⟨hresult, husers⟩ := h.creates stored hs hfree
  refine ⟨?_, stored, hhash, ?_⟩
  · rw [hstatus, hresult]
  · rw [hafter, husers]

/-- Logging in is answered by the user with the login, whose stored text comes back whole. A login
that nobody has and a wrong password get the same response. -/
theorem respond_login (hread : ∀ text, IsZeroFree text → read text = text) (hs : Sound s)
    (haccounts : ∀ u ∈ users s, IsAccount u) (hr : r.Posts "/api/v1/login" c) :
    api.respond m r s =
      (match (users s).find? (·.login = trim c.login) with
        | none => invalidCredentials
        | some u =>
          if isPasswordOf c.password u.passwordHash then
            .json 200 (jsonObject [("token",
              jsonString (api.tokens.issue m.now u.id (read u.login)))])
          else invalidCredentials, s) := by
  have htext : (RequestError.ofAuth .invalidCredentials).response = invalidCredentials := by decide
  have hroute : Route.ofPath? "/api/v1/login" = some .login := by decide
  rw [hr.respond_eq hroute rfl (by decide)]
  simp only [Api.respondOpen, login, hr.credentials, h.find _ hs]
  cases hfind : (users s).find? (·.login = trim c.login) with
  | none =>
    show ({ (RequestError.ofAuth .invalidCredentials).response with allow := none }, s) = _
    rw [htext]
    rfl
  | some u =>
    -- The text that is stored for the password has no zero characters, so none of it is lost.
    have hhash := hread _ (haccounts u (List.mem_of_find?_eq_some hfind)).hash
    simp only [Option.map_some, hhash]
    split_ifs
    · rfl
    · show ({ (RequestError.ofAuth .invalidCredentials).response with allow := none }, s) = _
      rw [htext]
      rfl

/-- Whoever posts the login of a user is answered by this user's stored text alone, as no two users
have one login. -/
theorem respond_login_of_mem (hread : ∀ text, IsZeroFree text → read text = text) (hs : Sound s)
    (haccounts : ∀ u ∈ users s, IsAccount u) {u : User} (hu : u ∈ users s)
    (hr : r.Posts "/api/v1/login" c) (hlogin : trim c.login = u.login) :
    api.respond m r s =
      (if isPasswordOf c.password u.passwordHash then
        .json 200 (jsonObject [("token",
          jsonString (api.tokens.issue m.now u.id (read u.login)))])
      else invalidCredentials, s) := by
  -- Logins are distinct, so the login leads to this account and to no other one.
  have hfind : (users s).find? (·.login = trim c.login) = some u :=
    (h.numbered hs).find?_eq_some_iff.2 ⟨hu, hlogin.symm⟩
  rw [h.respond_login hread hs haccounts hr, hfind]

/-- **An account logs in**, and the token that is given out is good for this account. -/
theorem logsIn (hread : ∀ text, IsZeroFree text → read text = text) (hs : Sound s)
    (haccounts : ∀ u ∈ users s, IsAccount u) {u : User} (hu : u ∈ users s)
    (hwhole : read u.login = u.login) {password : String}
    (hpassword : isPasswordOf password u.passwordHash = true) :
    LogsIn s ⟨u.id, u.login⟩ password := by
  rintro api m r c hr hlogin rfl
  refine ⟨api.tokens.issue m.now u.id u.login, ?_, ?_⟩
  · rw [h.respond_login_of_mem hread hs haccounts hu hr hlogin, if_pos hpassword, hwhole]
  · intro use header huser husable hheader
    exact husable.authenticate huser hheader

/-- A registered account is still there when the store has been used, with the text that is stored
for the password. Nothing that is served ever changes a user. -/
theorem exists_account {later : σ} (hs : Sound s) (haccounts : ∀ u ∈ users s, IsAccount u)
    (hr : Registers api r c) (hfree : ∀ u ∈ users s, u.login ≠ trim c.login)
    (hlater : Becomes restarts (api.respond m r s).2 later) :
    ∃ stored, hashPassword api.hashCost m.salt c.password = .ok stored ∧ Sound later ∧
      (∀ u ∈ users later, IsAccount u) ∧
      ⟨(users s).length + 1, trim c.login, stored⟩ ∈ users later := by
  obtain ⟨-, stored, hhash, husers⟩ := h.respond_free hs hr hfree (m := m)
  obtain ⟨hsound, hadds⟩ := h.addsAccounts_respond hs api m r
  obtain ⟨hsoundLater, haddsLater⟩ := h.addsAccounts hsound hlater
  refine ⟨stored, hhash, hsoundLater, (hadds.trans haddsLater).isAccount haccounts, ?_⟩
  refine haddsLater.mem ?_
  rw [husers]
  exact List.mem_append_right _ List.mem_cons_self

/-- **A store that keeps users keeps accounts**, for logins that come back from it whole. -/
theorem keepsAccounts {isWhole : String → Prop} (hread : ∀ text, isWhole text → read text = text)
    (hhashes : ∀ text, IsZeroFree text → isWhole text) (hs : Sound s)
    (haccounts : ∀ u ∈ users s, IsAccount u) : KeepsAccounts restarts users isWhole s where
  trimmed u hu := ⟨(haccounts u hu).trimmed, (haccounts u hu).named⟩
  logins := (h.numbered hs).logins
  ids := (h.numbered hs).sorted.imp fun hless => ne_of_lt hless
  refuses {api m r c} hr := by
    refine ⟨fun hconflict => ?_, h.respond_taken hs hr⟩
    by_contra hfree
    push Not at hfree
    rw [(h.respond_free hs hr hfree).1] at hconflict
    exact absurd hconflict.1 (by decide)
  accepts {api m r c} hr hfree := by
    obtain ⟨hstatus, stored, -, husers⟩ := h.respond_free hs hr hfree (m := m)
    refine ⟨hstatus, ⟨stored, husers⟩, ?_⟩
    intro hwhole hsalt later hlater
    obtain ⟨stored, hhash, hsound, hall, hthere⟩ := h.exists_account hs haccounts hr hfree hlater
    exact h.logsIn (fun text hfree => hread text (hhashes text hfree)) hsound hall hthere
      (hread _ hwhole) (isPasswordOf_hashPassword hsalt hhash)
  denies {api m r c} hr hwrong := by
    rw [h.respond_login (fun text hfree => hread text (hhashes text hfree)) hs haccounts hr]
    cases hfind : (users s).find? (·.login = trim c.login) with
    | none => rfl
    | some u =>
      obtain ⟨hu, hlogin⟩ := (h.numbered hs).find?_eq_some_iff.1 hfind
      simp only [hwrong u hu hlogin, Bool.false_eq_true, if_false]

end KeepsUsers

end Accounts

/-! ### Both stores -/

/-- **Accounts are kept**, in memory and on a database, whatever requests, workers, sweeps and
restarts there were. On a database this is said of logins without zero characters. -/
theorem accounts_are_kept :
    (∀ s, Becomes (fun _ _ => False) MemoryStore.empty s →
      KeepsAccounts (fun _ _ => False) MemoryStore.users (fun _ => True) s) ∧
    (∀ s, Becomes DatabaseStore.Reopens DatabaseStore.empty s →
      KeepsAccounts DatabaseStore.Reopens DatabaseStore.users IsZeroFree s) := by
  constructor
  · intro s hbecomes
    obtain ⟨hsound, hadds⟩ := MemoryStore.keepsUsers.addsAccounts .nil hbecomes
    refine MemoryStore.keepsUsers.keepsAccounts (fun _ _ => rfl) (fun _ _ => trivial) hsound ?_
    exact hadds.isAccount (by simp [MemoryStore.empty])
  · intro s hbecomes
    obtain ⟨hregular, hadds⟩ :=
      DatabaseStore.keepsUsers.addsAccounts DatabaseStore.regular_empty hbecomes
    refine DatabaseStore.keepsUsers.keepsAccounts (fun _ => IsZeroFree.textRead) (fun _ => id)
      hregular ?_
    refine hadds.isAccount ?_
    show ∀ u ∈ [], IsAccount u
    simp

/-- A login with white space around it, and a password. -/
def paddedAlice : Credentials := ⟨" alice\n", "secret"⟩

/-- The same login in other white space. -/
def tabbedAlice : Credentials := ⟨"\talice", "secret"⟩

/-- A time, and sixteen bytes for a salt. -/
def saltedMoment : Moment := ⟨⟨1700000000, 0⟩, List.replicate 16 0⟩

/-- A store in which nobody is registered yet accepts a login, refuses it from then on, and gives
a token for it that is accepted at the last moment. -/
structure ServesAlice {σ : Type} [Store σ] (s : σ) : Prop where
  accepted : (hourlyApi.respond saltedMoment (credentialsRequest "/api/v1/register" paddedAlice)
    s).1.status = 200
  refused : ((hourlyApi.respond saltedMoment (credentialsRequest "/api/v1/register" tabbedAlice)
    (hourlyApi.respond saltedMoment (credentialsRequest "/api/v1/register" paddedAlice)
      s).2)).1.status = 409
  token : ∃ token, (hourlyApi.respond saltedMoment
      (credentialsRequest "/api/v1/login" tabbedAlice)
      (hourlyApi.respond saltedMoment (credentialsRequest "/api/v1/register" paddedAlice) s).2).1 =
        .json 200 (jsonObject [("token", jsonString token)]) ∧
    hourlyTokens.authenticate ⟨1700003660, 0⟩ (some (" Bearer\t " ++ token ++ " ")) =
      .ok ⟨1, "alice"⟩

theorem KeepsAccounts.servesAlice {σ : Type} [Store σ] {restarts : σ → σ → Prop}
    {users : σ → List User} {isWhole : String → Prop} {s : σ}
    (h : KeepsAccounts restarts users isWhole s) (hnobody : users s = [])
    (hwhole : isWhole "alice")
    (hafter : KeepsAccounts restarts users isWhole
      (hourlyApi.respond saltedMoment (credentialsRequest "/api/v1/register" paddedAlice) s).2) :
    ServesAlice s := by
  have hpadded : Registers hourlyApi (credentialsRequest "/api/v1/register" paddedAlice)
      paddedAlice := ⟨posts_credentialsRequest _ (by decide), by decide, by decide, by decide⟩
  have htabbed : Registers hourlyApi (credentialsRequest "/api/v1/register" tabbedAlice)
      tabbedAlice := ⟨posts_credentialsRequest _ (by decide), by decide, by decide, by decide⟩
  have hname : trim paddedAlice.login = "alice" := by decide
  have hsame : trim tabbedAlice.login = "alice" := by decide
  obtain ⟨hstatus, ⟨stored, husers⟩, hlogsIn⟩ :=
    h.accepts (m := saltedMoment) hpadded (by simp [hnobody])
  rw [hname, hnobody] at husers hlogsIn
  refine ⟨hstatus, ?_, ?_⟩
  · refine ((hafter.refuses htabbed).2 ⟨⟨1, "alice", stored⟩, ?_, hsame.symm⟩).1
    rw [husers]
    exact List.mem_cons_self
  · obtain ⟨token, hanswer, haccepted⟩ := hlogsIn hwhole (by decide) _ .start hourlyApi
      saltedMoment _ _ (posts_credentialsRequest "/api/v1/login" (by decide)) hsame rfl
    refine ⟨token, congrArg Prod.fst hanswer, ?_⟩
    exact haccepted _ _ (by decide) ⟨by decide, by decide, by decide, by decide⟩
      (headerCarries_bearer token)

/-- A login is kept, and good in other white space. -/
theorem accounts_are_kept_alice :
    ServesAlice MemoryStore.empty ∧ ServesAlice DatabaseStore.empty := by
  constructor
  · refine (accounts_are_kept.1 _ .start).servesAlice rfl trivial ?_
    exact accounts_are_kept.1 _ (.request .start _ _ _)
  · refine (accounts_are_kept.2 _ .start).servesAlice rfl ?_ ?_
    · simp [IsZeroFree]
    · exact accounts_are_kept.2 _ (.request .start _ _ _)

end ArithService
