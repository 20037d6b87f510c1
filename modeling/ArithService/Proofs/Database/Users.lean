import Mathlib
import ArithService.Proofs.Database.Reading
import ArithService.Proofs.Store.Users

/-!
# The store on a database keeps users

## Main Definitions

* `DatabaseStore.users` — the users in the rows
* `DatabaseStore.Regular` — a readable store with a table of numbered users
* `DatabaseStore.Reopens` — a store after a restart

## Design Notes

Like the rows of tasks, the rows of users keep making sense whatever the clock shows and however
often the store is opened again.
-/

namespace ArithService

namespace DatabaseStore

/-- The users in the rows. -/
def users (s : DatabaseStore) : List User :=
  match s.database.users with
  | some (.numbered _ rows) => rows
  | _ => []

/-- A readable store with a table of numbered users. -/
structure Regular (s : DatabaseStore) : Prop where
  readable : Readable s
  table : s.database.users = some (.numbered s.users.length s.users)
  numbered : NumbersUsers s.users.length s.users

variable {s o : DatabaseStore}

/-- A store with the same table of users has the same users. -/
theorem users_congr (h : o.database.users = s.database.users) : o.users = s.users := by
  rw [users, users, h]

/-- Nothing but a new user makes a table of users irregular, so most calls only have to keep their
tasks readable. -/
theorem Regular.of_users (h : Regular s) (hreadable : Readable o)
    (husers : o.database.users = s.database.users) : Regular o := by
  have hsame := users_congr husers
  refine ⟨hreadable, ?_, ?_⟩
  · rw [husers, hsame]
    exact h.table
  · rw [hsame]
    exact h.numbered

theorem regular_empty : Regular empty where
  readable := sound_empty.readable
  table := rfl
  numbered := .nil

/-- Only registrations change the table of users. All other calls are on tasks, one of which looks
up an owner. -/
theorem Regular.users_run (h : Regular s) {c : Call}
    (hcommand : ∀ name hash, c.command ≠ .createUser name hash) :
    (c.run s).2.database.users = s.database.users := by
  obtain ⟨now, command⟩ := c
  cases command with
  | createUser name hash => exact absurd rfl (hcommand name hash)
  | enqueue owner expression work =>
    show (s.enqueue now owner expression work).2.database.users = _
    rcases h.readable.enqueue_cases now owner expression work with ⟨e, hrefused⟩ | ⟨number, hadded, -⟩
    · rw [hrefused]
    · rw [hadded]
      rfl
  | claim lease =>
    show (s.claim now lease).2.database.users = _
    cases hdeadline : now.add? lease with
    | none => simp only [DatabaseStore.claim, hdeadline]
    | some deadline =>
      rw [h.readable.inOrder.claim_eq hdeadline]
      rfl
  | complete id x =>
    show (s.complete now id x).2.database.users = _
    rw [h.readable.inOrder.complete_eq]
    rfl
  | requeue at_ =>
    show (s.requeue at_).2.database.users = _
    rw [requeue_eq h.readable.table h.readable.triggers]
    rfl
  | get _ => rfl
  | list _ => rfl
  | findUser _ => rfl

/-- What registering a login comes to: it is refused if it is taken, and gets the next number
otherwise. The count of users is that number, since none is ever removed. -/
theorem Regular.createUser_eq (h : Regular s) (name passwordHash : String) :
    s.createUser name passwordHash =
      if s.users.any (·.login = name) then (.error (.loginTaken name), s)
      else
        (.ok (s.users.length + 1),
          { s with database := { s.database with
            users := some (.numbered (s.users.length + 1)
              (s.users ++ [⟨s.users.length + 1, name, passwordHash⟩])) } }) :=
  DatabaseStore.createUser_eq h.readable.triggers h.table name passwordHash

theorem Regular.createUser (h : Regular s) (name passwordHash : String) :
    Regular (s.createUser name passwordHash).2 := by
  have hreadable := h.readable.createUser name passwordHash
  rw [h.createUser_eq] at hreadable ⊢
  split_ifs at hreadable ⊢ with htaken
  · exact h
  · have hnumbered := h.numbered.append passwordHash (by simpa using htaken)
    exact ⟨hreadable, by simp [users], hnumbered.counted⟩

/-- **One call keeps a store regular**, whatever the clock shows. -/
theorem Regular.run (h : Regular s) (c : Call) : Regular (c.run s).2 := by
  by_cases hcreate : ∃ name hash, c.command = .createUser name hash
  · obtain ⟨now, command⟩ := c
    obtain ⟨name, hash, rfl⟩ := hcreate
    exact h.createUser name hash
  · push Not at hcreate
    exact h.of_users (h.readable.run c) (h.users_run hcreate)

theorem Regular.reopen (h : Regular s) (hopen : (open_ s.database).1 = .ok o) : Regular o :=
  h.of_users (h.readable.reopen hopen) (by rw [h.readable.database_reopen hopen])

/-- **A history keeps a store regular**, by one call or one reopening at a time. -/
theorem Regular.history (h : Regular s) {steps : List DatabaseStep} {ids : List String}
    (hhistory : s.history steps = .ok (ids, o)) : Regular o :=
  history_induction (fun h c => h.run c) (fun h hopen => h.reopen hopen) h hhistory

theorem IsReachable.regular (h : s.IsReachable) : Regular s := by
  obtain ⟨steps, ids, hhistory⟩ := h
  exact regular_empty.history hhistory

/-- A user is found by the whole login, and what is found is cut off at a zero character. -/
theorem Regular.findUser_eq (h : Regular s) (name : String) :
    s.findUser name = .ok ((s.users.find? (·.login = name)).map fun u =>
      ⟨u.id, textRead u.login, textRead u.passwordHash⟩) := by
  simp only [DatabaseStore.findUser, Database.findLogin, h.table]
  cases s.users.find? (·.login = name) <;> rfl

/-- A store takes over the database of another one. -/
def Reopens (s o : DatabaseStore) : Prop := (open_ s.database).1 = .ok o

/-- **The store on a database keeps users**, also when it is opened again. -/
theorem keepsUsers : KeepsUsers textRead Reopens Regular users where
  numbered h := h.numbered
  find name h := h.findUser_eq name
  refuses {s name} passwordHash h htaken := by
    show s.createUser name passwordHash = _
    rw [h.createUser_eq, if_pos (by simpa using htaken)]
  creates {s name} passwordHash h hnew := by
    show (s.createUser name passwordHash).1 = _ ∧ (s.createUser name passwordHash).2.users = _
    rw [h.createUser_eq, if_neg (by simpa using hnew)]
    exact ⟨rfl, rfl⟩
  sound_run c h := h.run c
  users_run h hcommand := users_congr (h.users_run hcommand)
  restart h hopen := by
    refine ⟨h.reopen hopen, users_congr ?_⟩
    rw [h.readable.database_reopen hopen]

end DatabaseStore

end ArithService
