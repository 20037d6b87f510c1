import Mathlib
import ArithService.Proofs.Store.Calls
import ArithService.Store.Memory

/-!
# Stores keep users

Users are numbered in the order of their registration, and no login is registered twice. A user
who was registered stays as registered.

## Main Definitions

* `NumbersUsers` — users with growing numbers and distinct logins
* `KeepsUsers` — what every store does to users

## Design Notes

`KeepsUsers` is what the accounts behind the interface rest on. A store says which users it has
by a list; how a text comes back from the store is `read`, and `restarts` relates a store to the
one that takes over its data.
-/

namespace ArithService

/-- Users with growing numbers, of which the last one is the number of users, and with distinct
logins. -/
structure NumbersUsers (last : Int) (users : List User) : Prop where
  count : last = users.length
  bound : ∀ u ∈ users, u.id ≤ last
  sorted : users.Pairwise (·.id < ·.id)
  logins : users.Pairwise (·.login ≠ ·.login)

namespace NumbersUsers

variable {last : Int} {users : List User}

theorem nil : NumbersUsers 0 [] where
  count := rfl
  bound := by simp
  sorted := .nil
  logins := .nil

/-- The last number is the number of users. -/
theorem counted (h : NumbersUsers last users) : NumbersUsers users.length users := by
  rw [← h.count]
  exact h

/-- A new login gets the next number. -/
theorem append (h : NumbersUsers last users) {name : String} (passwordHash : String)
    (hnew : ∀ u ∈ users, u.login ≠ name) :
    NumbersUsers (last + 1) (users ++ [⟨last + 1, name, passwordHash⟩]) where
  count := by simp [h.count]
  bound u hu := by
    rcases List.mem_append.1 hu with hold | hlast
    · exact (h.bound u hold).trans (by omega)
    · rw [List.mem_singleton.1 hlast]
  sorted := by
    refine List.pairwise_append.2 ⟨h.sorted, by simp, ?_⟩
    intro u hu v hv
    rw [List.mem_singleton.1 hv]
    exact lt_of_le_of_lt (h.bound u hu) (lt_add_one last)
  logins := by
    refine List.pairwise_append.2 ⟨h.logins, by simp, ?_⟩
    intro u hu v hv
    rw [List.mem_singleton.1 hv]
    exact hnew u hu

/-- A user is found by the login. -/
theorem find?_eq_some_iff (h : NumbersUsers last users) {name : String} {u : User} :
    users.find? (·.login = name) = some u ↔ u ∈ users ∧ u.login = name := by
  constructor
  · intro hfind
    exact ⟨List.mem_of_find?_eq_some hfind, by simpa using List.find?_some hfind⟩
  · rintro ⟨hu, rfl⟩
    cases hfind : users.find? (·.login = u.login) with
    | none => simpa using List.find?_eq_none.1 hfind u hu
    | some v =>
      have hlogin : v.login = u.login := by simpa using List.find?_some hfind
      have hdistinct : (users.map (·.login)).Nodup := List.pairwise_map.2 h.logins
      rw [List.inj_on_of_nodup_map hdistinct (List.mem_of_find?_eq_some hfind) hu hlogin]

end NumbersUsers

/-- What every store does to users: registering a login that is not taken adds a user at the end,
and nothing else changes users. -/
structure KeepsUsers {σ : Type} [Store σ] (read : String → String) (restarts : σ → σ → Prop)
    (Sound : σ → Prop) (users : σ → List User) : Prop where
  numbered : ∀ {s}, Sound s → NumbersUsers (users s).length (users s)
  find : ∀ {s} (name : String), Sound s → Store.findUser name s =
    .ok (((users s).find? (·.login = name)).map fun u =>
      ⟨u.id, read u.login, read u.passwordHash⟩)
  refuses : ∀ {s} {name : String} (passwordHash : String), Sound s →
    (∃ u ∈ users s, u.login = name) →
    Store.createUser name passwordHash s = (.error (.loginTaken name), s)
  creates : ∀ {s} {name : String} (passwordHash : String), Sound s →
    (∀ u ∈ users s, u.login ≠ name) →
    (Store.createUser name passwordHash s).1 = .ok ((users s).length + 1) ∧
      users (Store.createUser name passwordHash s).2 =
        users s ++ [⟨(users s).length + 1, name, passwordHash⟩]
  sound_run : ∀ {s} (c : Call), Sound s → Sound (c.run s).2
  users_run : ∀ {s} {c : Call}, Sound s → (∀ name hash, c.command ≠ .createUser name hash) →
    users (c.run s).2 = users s
  restart : ∀ {s o}, Sound s → restarts s o → Sound o ∧ users o = users s

/-! ### In memory -/

namespace MemoryStore

variable {s : MemoryStore}

/-- Only registrations change users. -/
theorem users_run {c : Call} (hcommand : ∀ name hash, c.command ≠ .createUser name hash)
    (s : MemoryStore) : (c.run s).2.users = s.users ∧ (c.run s).2.lastUser = s.lastUser := by
  obtain ⟨now, command⟩ := c
  cases command with
  | createUser name hash => exact absurd rfl (hcommand name hash)
  | claim lease =>
    show (s.claim now lease).2.users = _ ∧ (s.claim now lease).2.lastUser = _
    unfold claim
    split
    · exact ⟨rfl, rfl⟩
    · dsimp only
      split <;> exact ⟨rfl, rfl⟩
  | complete id x =>
    show (s.complete now id x).2.users = _ ∧ (s.complete now id x).2.lastUser = _
    unfold complete
    split <;> exact ⟨rfl, rfl⟩
  | enqueue owner expression work =>
    show (s.enqueue now owner expression work).2.users = _ ∧
      (s.enqueue now owner expression work).2.lastUser = _
    unfold enqueue
    split <;> exact ⟨rfl, rfl⟩
  | requeue _ => exact ⟨rfl, rfl⟩
  | get _ => exact ⟨rfl, rfl⟩
  | list _ => exact ⟨rfl, rfl⟩
  | findUser _ => exact ⟨rfl, rfl⟩

/-- What registering a login comes to. -/
theorem createUser_eq (name passwordHash : String) (s : MemoryStore) :
    s.createUser name passwordHash =
      if s.users.any (·.login = name) then (.error (.loginTaken name), s)
      else (.ok (s.lastUser + 1),
        { s with users := s.users ++ [⟨s.lastUser + 1, name, passwordHash⟩],
                 lastUser := s.lastUser + 1 }) := by
  have hany : s.users.any (·.login = name) = (s.findUser name).isSome := by
    rw [findUser, List.isSome_find?]
  rw [hany, createUser]
  cases s.findUser name <;> rfl

/-- **The store in memory keeps users.** -/
theorem keepsUsers :
    KeepsUsers id (fun _ _ => False) (fun s => NumbersUsers s.lastUser s.users)
      MemoryStore.users where
  numbered h := h.counted
  find {s} name h := by
    show Except.ok (s.findUser name) = _
    rw [findUser]
    simp
  refuses {s name} passwordHash h htaken := by
    show s.createUser name passwordHash = _
    rw [createUser_eq, if_pos (by simpa using htaken)]
  creates {s name} passwordHash h hnew := by
    show (s.createUser name passwordHash).1 = _ ∧ (s.createUser name passwordHash).2.users = _
    rw [createUser_eq, if_neg (by simpa using hnew), h.count]
    exact ⟨rfl, rfl⟩
  sound_run {s} c h := by
    by_cases hcreate : ∃ name hash, c.command = .createUser name hash
    · obtain ⟨now, command⟩ := c
      obtain ⟨name, hash, rfl⟩ := hcreate
      show NumbersUsers (s.createUser name hash).2.lastUser (s.createUser name hash).2.users
      rw [createUser_eq]
      split_ifs with htaken
      · exact h
      · exact h.append hash (by simpa using htaken)
    · push Not at hcreate
      obtain ⟨husers, hlast⟩ := users_run hcreate s
      rwa [husers, hlast]
  users_run {s c} _ hcommand := (users_run hcommand s).1
  restart _ hnever := hnever.elim

end MemoryStore

end ArithService
