import Mathlib
import ArithService.Proofs.Auth.PasswordKey
import ArithService.Proofs.Http.Accounts

/-!
# Passwords at the door

Once a login is registered, the passwords that log in with it are those with the key of the
password it was registered with. These need not be the same password: the key ends after 72 bytes,
and a zero character in a password looks like its end.

## Main Definitions

* `Admits`, `Denies` — what whoever posts a login and a password is answered
* `Registration` — a login that nobody has is registered, and the store is used from then on
* `AdmitsByKey` — what a login that is registered with a password makes of others
* `TellsPasswordsByKey` — what a store makes of passwords

## Design Notes

That the cipher has no collisions is not assumed, and cannot be, since there are more keys than
digests. Where a password with another key is refused, it is so unless this very pair is a collision
under the salt and the cost of the registration.
-/

namespace ArithService

section Passwords

variable {σ : Type} [Store σ]

/-! ### Answers to passwords -/

/-- Whoever posts a login with a password is given a token. -/
def Admits (s : σ) (name password : String) : Prop :=
  ∀ (api : Api) (m : Moment) (r : Request) (c : Credentials), r.Posts "/api/v1/login" c →
    trim c.login = name → c.password = password →
    ∃ token, api.respond m r s = (.json 200 (jsonObject [("token", jsonString token)]), s)

/-- Whoever posts a login with a password is refused. -/
def Denies (s : σ) (name password : String) : Prop :=
  ∀ (api : Api) (m : Moment) (r : Request) (c : Credentials), r.Posts "/api/v1/login" c →
    trim c.login = name → c.password = password → api.respond m r s = (invalidCredentials, s)

/-- A login that nobody has is registered in a store, which is used from then on. -/
structure Registration (restarts : σ → σ → Prop) (users : σ → List User) (s : σ) (api : Api)
    (m : Moment) (r : Request) (c : Credentials) (later : σ) : Prop where
  registers : Registers api r c
  free : ∀ u ∈ users s, u.login ≠ trim c.login
  salt : m.salt.length = 16
  later : Becomes restarts (api.respond m r s).2 later

/-- What a login that is registered with a password makes of others. -/
structure AdmitsByKey (s : σ) (cost : Nat) (salt : Bytes) (name p : String) : Prop where
  /-- Every password with the same key logs in. -/
  admits : ∀ q, derivedKey p = derivedKey q → Admits s name q
  /-- No password with another key logs in, but for collisions. -/
  denies : ∀ q, derivedKey p ≠ derivedKey q → ¬ IsCollision cost salt p q → Denies s name q
  /-- Among passwords of at most 72 bytes without zero characters, only the registered one logs in,
  but for collisions. -/
  deniesShort : ∀ q, IsZeroFree p → IsZeroFree q → (textBytes p).length ≤ 72 →
    (textBytes q).length ≤ 72 → p ≠ q → ¬ IsCollision cost salt p q → Denies s name q

/-- Registrations are accepted, and decide by keys who logs in from then on. -/
structure TellsPasswordsByKey (restarts : σ → σ → Prop) (users : σ → List User) (s : σ) :
    Prop where
  accepts : ∀ {api : Api} {m : Moment} {r : Request} {c : Credentials} {later : σ},
    Registration restarts users s api m r c later → (api.respond m r s).1.status = 200
  tells : ∀ {api : Api} {m : Moment} {r : Request} {c : Credentials} {later : σ},
    Registration restarts users s api m r c later →
      AdmitsByKey later api.hashCost m.salt (trim c.login) c.password

namespace KeepsUsers

variable {read : String → String} {restarts : σ → σ → Prop} {Sound : σ → Prop}
  {users : σ → List User} (h : KeepsUsers read restarts Sound users)
include h

variable {s later : σ} {api : Api} {m : Moment} {r : Request} {c : Credentials}

/-- A password that belongs to the stored text of a user logs in, whether it is the one that was
registered or not. -/
theorem admits (hread : ∀ text, IsZeroFree text → read text = text) (hs : Sound s)
    (haccounts : ∀ u ∈ users s, IsAccount u) {u : User} (hu : u ∈ users s) {password : String}
    (hpassword : isPasswordOf password u.passwordHash = true) : Admits s u.login password := by
  rintro api m r c hr hlogin rfl
  rw [h.respond_login_of_mem hread hs haccounts hu hr hlogin, if_pos hpassword]
  exact ⟨_, rfl⟩

/-- A password that does not belong to the stored text of a user is refused, with the words that an
unknown login gets. -/
theorem denies (hread : ∀ text, IsZeroFree text → read text = text) (hs : Sound s)
    (haccounts : ∀ u ∈ users s, IsAccount u) {u : User} (hu : u ∈ users s) {password : String}
    (hpassword : ¬ isPasswordOf password u.passwordHash = true) : Denies s u.login password := by
  rintro api m r c hr hlogin rfl
  rw [h.respond_login_of_mem hread hs haccounts hu hr hlogin, if_neg hpassword]

/-- Who logs in is decided by the key of the password in the registration: the stored text is a
digest of that key, and it is compared with digests of others. -/
theorem admitsByKey (hread : ∀ text, IsZeroFree text → read text = text) (hs : Sound s)
    (haccounts : ∀ u ∈ users s, IsAccount u)
    (hr : Registration restarts users s api m r c later) :
    AdmitsByKey later api.hashCost m.salt (trim c.login) c.password := by
  obtain ⟨stored, hhash, hsound, hall, hthere⟩ :=
    h.exists_account hs haccounts hr.registers hr.free hr.later
  have hbelongs (q : String) := isPasswordOf_hashPassword_iff hr.salt hhash (q := q)
  have hdenies : ∀ q, derivedKey c.password ≠ derivedKey q →
      ¬ IsCollision api.hashCost m.salt c.password q → Denies later (trim c.login) q := by
    intro q hkeys hcollision
    refine h.denies hread hsound hall hthere fun haccepted => ?_
    exact ((hbelongs q).1 haccepted).elim hkeys hcollision
  refine ⟨fun q hkeys => ?_, hdenies, fun q hp hq hpLength hqLength hdifferent => ?_⟩
  · exact h.admits hread hsound hall hthere ((hbelongs q).2 (.inl hkeys))
  · exact hdenies q (derivedKey_ne hp hq hpLength hqLength hdifferent)

/-- **A store that keeps users tells passwords by their keys.** -/
theorem tellsPasswordsByKey (hread : ∀ text, IsZeroFree text → read text = text) (hs : Sound s)
    (haccounts : ∀ u ∈ users s, IsAccount u) : TellsPasswordsByKey restarts users s where
  accepts hr := (h.respond_free hs hr.registers hr.free).1
  tells hr := h.admitsByKey hread hs haccounts hr

end KeepsUsers

end Passwords

/-! ### Both stores -/

/-- In memory every text comes back whole, so nothing more is needed. -/
theorem MemoryStore.tellsPasswordsByKey {s : MemoryStore}
    (hbecomes : Becomes (fun _ _ => False) MemoryStore.empty s) :
    TellsPasswordsByKey (fun _ _ => False) MemoryStore.users s := by
  obtain ⟨hsound, hadds⟩ := MemoryStore.keepsUsers.addsAccounts .nil hbecomes
  refine MemoryStore.keepsUsers.tellsPasswordsByKey (fun _ _ => rfl) hsound ?_
  exact hadds.isAccount (by simp [MemoryStore.empty])

/-- On a database stored texts of passwords come back whole, as they have no zero characters. -/
theorem DatabaseStore.tellsPasswordsByKey {s : DatabaseStore}
    (hbecomes : Becomes DatabaseStore.Reopens DatabaseStore.empty s) :
    TellsPasswordsByKey DatabaseStore.Reopens DatabaseStore.users s := by
  obtain ⟨hregular, hadds⟩ :=
    DatabaseStore.keepsUsers.addsAccounts DatabaseStore.regular_empty hbecomes
  refine DatabaseStore.keepsUsers.tellsPasswordsByKey (fun _ => IsZeroFree.textRead) hregular ?_
  refine hadds.isAccount ?_
  show ∀ u ∈ [], IsAccount u
  simp

/-- **Passwords are told apart by their keys**, in memory and on a database, whatever requests,
workers, sweeps and restarts there were before the registration and after it. Without zero
characters, passwords have the same key exactly if they have the same first 72 bytes. -/
theorem passwords_are_told_by_key {memory : MemoryStore} {database : DatabaseStore}
    (hmemory : Becomes (fun _ _ => False) MemoryStore.empty memory)
    (hdatabase : Becomes DatabaseStore.Reopens DatabaseStore.empty database) :
    TellsPasswordsByKey (fun _ _ => False) MemoryStore.users memory ∧
      TellsPasswordsByKey DatabaseStore.Reopens DatabaseStore.users database ∧
      ∀ {p q : String}, IsZeroFree p → IsZeroFree q →
        (derivedKey p = derivedKey q ↔ (textBytes p).take 72 = (textBytes q).take 72) :=
  ⟨MemoryStore.tellsPasswordsByKey hmemory, DatabaseStore.tellsPasswordsByKey hdatabase,
    derivedKey_eq_iff⟩

/-- A login with a password. -/
def aliceWith (password : String) : Credentials := ⟨"alice", password⟩

/-- A store after the login was registered with a password. -/
def withAlice {σ : Type} [Store σ] (password : String) (s : σ) : σ :=
  (hourlyApi.respond saltedMoment (credentialsRequest "/api/v1/register" (aliceWith password))
    s).2

/-- Where nobody is registered, the login is. -/
theorem registration_alice {σ : Type} [Store σ] {restarts : σ → σ → Prop}
    {users : σ → List User} {s : σ} (hnobody : users s = []) (password : String)
    (hsize : (credentialsText (aliceWith password)).utf8ByteSize ≤ largestBody)
    (hpassword : password ≠ "") :
    Registration restarts users s hourlyApi saltedMoment
      (credentialsRequest "/api/v1/register" (aliceWith password)) (aliceWith password)
      (withAlice password s) where
  registers := ⟨posts_credentialsRequest _ hsize, show trim "alice" ≠ "" by decide, hpassword,
    by decide⟩
  free := by simp [hnobody]
  salt := by decide
  later := .start

/-- A password that is repeated behind a zero character logs in, as it has the same key. Another
letter does not, unless it is a collision. -/
theorem passwords_are_told_by_key_repeated :
    Admits (withAlice "a" MemoryStore.empty) "alice" "a\x00a" ∧
    Admits (withAlice "a" DatabaseStore.empty) "alice" "a\x00a" ∧
    (¬ IsCollision 4 saltedMoment.salt "a" "b" →
      Denies (withAlice "a" DatabaseStore.empty) "alice" "b") ∧
    derivedKey "a" ≠ derivedKey "b" := by
  obtain ⟨hmemory, hdatabase, hkeys⟩ := passwords_are_told_by_key .start .start
  have hinMemory := hmemory.tells (registration_alice rfl "a" (by decide) (by decide))
  have honDatabase := hdatabase.tells (registration_alice rfl "a" (by decide) (by decide))
  have hsame : derivedKey "a" = derivedKey "a\x00a" := by decide
  refine ⟨hinMemory.admits _ hsame, honDatabase.admits _ hsame, ?_, ?_⟩
  · exact honDatabase.denies _ (by decide)
  · intro h
    have hbytes := (hkeys (by simp [IsZeroFree]) (by simp [IsZeroFree])).1 h
    exact absurd hbytes (by decide)

/-- 72 letters, which is as much of a password as is looked at. -/
def longPassword : String := String.ofList (List.replicate 72 'a')

/-- **A longer password logs in**, although it is not the one that was registered. -/
theorem longer_password_logs_in :
    longPassword ≠ "" ∧ longPassword ++ "b" ≠ longPassword ∧
    derivedKey (longPassword ++ "b") = derivedKey longPassword ∧
    (hourlyApi.respond saltedMoment
      (credentialsRequest "/api/v1/register" (aliceWith longPassword))
        MemoryStore.empty).1.status = 200 ∧
    (hourlyApi.respond saltedMoment
      (credentialsRequest "/api/v1/login" (aliceWith (longPassword ++ "b")))
        (withAlice longPassword MemoryStore.empty)).1.status = 200 := by
  have hkeys : derivedKey (longPassword ++ "b") = derivedKey longPassword := by decide
  have hsize : (credentialsText (aliceWith (longPassword ++ "b"))).utf8ByteSize ≤ largestBody := by
    decide +kernel
  have htells := MemoryStore.tellsPasswordsByKey .start
  have hregistration : Registration (fun _ _ => False) MemoryStore.users MemoryStore.empty _ _ _ _
      (withAlice longPassword MemoryStore.empty) :=
    registration_alice rfl longPassword (by decide) (by decide)
  obtain ⟨token, hanswer⟩ := (htells.tells hregistration).admits _ hkeys.symm hourlyApi
    saltedMoment _ (aliceWith (longPassword ++ "b"))
    (posts_credentialsRequest "/api/v1/login" hsize) (by decide) rfl
  refine ⟨by decide, by decide, hkeys, htells.accepts hregistration, ?_⟩
  exact congrArg (fun answer => answer.1.status) hanswer

end ArithService
