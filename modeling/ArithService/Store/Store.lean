import ArithService.Store.Error
import ArithService.Task.Task

/-!
# Stores

What every store of tasks and users can do.

## Main Definitions

* `User` — a registered user
* `Store` — the operations of a store
* `StoreCommand`, `StoreAnswer` — the operations as data, for runs

## Design Notes

An operation is a function of the state and of a reading of the clock. An operation that may
change the state returns the state after it also when it fails, since a failure can come after
the first change.
-/

namespace ArithService

/-- A registered user. -/
structure User where
  id : Int
  login : String
  passwordHash : String
deriving DecidableEq, Repr

/-- The operations of a store. -/
class Store (σ : Type) where
  /-- Record a new pending task and return its identifier. -/
  enqueue : Instant → Int → String → Work → σ → Except StoreError String × σ
  /-- Hand out the oldest pending task under a lease, after expired leases are taken back. -/
  claim : Instant → Span → σ → Except StoreError (Option Task) × σ
  /-- Record the result of a task, whatever its status is. -/
  complete : Instant → String → Binary64 → σ → Except StoreError Unit × σ
  /-- The task with an identifier. -/
  get : String → σ → Except StoreError Task
  /-- The tasks of a user, newest first. -/
  list : Int → σ → Except StoreError (List Task)
  /-- Make tasks pending again whose lease has ended by an instant, and count them. -/
  requeue : Instant → σ → Except StoreError Nat × σ
  /-- Register a login that is not taken, and return the number of the new user. -/
  createUser : String → String → σ → Except StoreError Int × σ
  /-- The user with a login. -/
  findUser : String → σ → Except StoreError (Option User)
  /-- Bring the schema up to date. -/
  prepare : σ → Except StoreError Unit × σ

/-- One call of a store operation. -/
inductive StoreCommand where
  | enqueue (owner : Int) (expression : String) (work : Work)
  | claim (lease : Span)
  | complete (id : String) (result : Binary64)
  | get (id : String)
  | list (owner : Int)
  | requeue (at_ : Instant)
  | createUser (login passwordHash : String)
  | findUser (login : String)
deriving DecidableEq, Repr

/-- What a call of a store operation returns. -/
inductive StoreAnswer where
  | failed (e : StoreError)
  | taskId (id : String)
  | claimed (t : Option Task)
  | done
  | task (t : Task)
  | tasks (ts : List Task)
  | count (n : Nat)
  | userId (n : Int)
  | user (u : Option User)
deriving DecidableEq, Repr

/-- The answer that a result amounts to. -/
def StoreAnswer.ofResult {α : Type} (succeeded : α → StoreAnswer) :
    Except StoreError α → StoreAnswer
  | .ok value => succeeded value
  | .error e => .failed e

/-- Carry out one call at a reading of the clock. -/
def StoreCommand.run {σ : Type} [Store σ] (now : Instant) (s : σ) :
    StoreCommand → StoreAnswer × σ
  | .enqueue owner expression work =>
    let (result, s) := Store.enqueue now owner expression work s
    (.ofResult .taskId result, s)
  | .claim lease =>
    let (result, s) := Store.claim now lease s
    (.ofResult .claimed result, s)
  | .complete id value =>
    let (result, s) := Store.complete now id value s
    (.ofResult (fun _ => .done) result, s)
  | .get id => (.ofResult .task (Store.get id s), s)
  | .list owner => (.ofResult .tasks (Store.list owner s), s)
  | .requeue at_ =>
    let (result, s) := Store.requeue at_ s
    (.ofResult .count result, s)
  | .createUser login passwordHash =>
    let (result, s) := Store.createUser login passwordHash s
    (.ofResult .userId result, s)
  | .findUser login => (.ofResult .user (Store.findUser login s), s)

/-- The failure of a claim whose lease would end outside the range of dates. -/
def StoreError.leaseOutOfRange (lease : Span) : StoreError :=
  .query ("claim_oldest_pending: lease " ++ lease.text ++ " out of range")

end ArithService
