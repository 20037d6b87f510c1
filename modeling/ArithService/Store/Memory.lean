import ArithService.Store.Store
import ArithService.Task.Identifier

/-!
# The store in memory

A store that lives as long as the process.

## Main Definitions

* `MemoryStore` — tasks, users and the two counters
* `MemoryStore.empty` — the store at the start

## Design Notes

Tasks are kept in the order of their identifiers, which is the order of creation.
-/

namespace ArithService

/-- A store in memory. -/
structure MemoryStore where
  /-- The tasks, in the order of their identifiers. -/
  tasks : List Task
  users : List User
  /-- The number of the latest user. -/
  lastUser : Int
  /-- The number of the latest task. -/
  lastNumber : Int
deriving DecidableEq, Repr

namespace MemoryStore

/-- The store at the start. -/
def empty : MemoryStore := ⟨[], [], 0, 0⟩

/-- Put a task at its place in the order; a task with the same identifier is replaced. -/
def insertTask (t : Task) : List Task → List Task
  | [] => [t]
  | u :: rest =>
    if t.id < u.id then t :: u :: rest
    else if t.id = u.id then t :: rest
    else u :: insertTask t rest

/-- Change the task with an identifier. -/
def updateTask (id : String) (change : Task → Task) (ts : List Task) : List Task :=
  ts.map fun t => if t.id = id then change t else t

/-- A task whose worker is taken to be gone, as it was before it was claimed. -/
def released (t : Task) : Task :=
  { t with status := .pending, startedAt := none, leaseExpiresAt := none }

/-- A task as it is handed out. -/
def claimed (now deadline : Instant) (t : Task) : Task :=
  { t with status := .inProgress, startedAt := some now, leaseExpiresAt := some deadline }

/-- A task with its result. -/
def completed (now : Instant) (result : Binary64) (t : Task) : Task :=
  { t with status := .completed, result := some result, completedAt := some now,
           leaseExpiresAt := none }

/-- Record a new task under the next number. -/
def enqueue (now : Instant) (owner : Int) (expression : String) (work : Work) (s : MemoryStore) :
    Except StoreError String × MemoryStore :=
  match nextNumber s.lastNumber now with
  | none => (.error .brokenOff, s)
  | some number =>
    let t := Task.fresh (taskId number) owner expression work (.ofNanoseconds number)
    (.ok t.id, { s with tasks := insertTask t s.tasks, lastNumber := number })

/-- Take back expired leases, and count them. -/
def requeue (at_ : Instant) (s : MemoryStore) : Nat × MemoryStore :=
  ((s.tasks.filter fun t => t.hasEndedLease at_).length,
    { s with tasks := s.tasks.map fun t => if t.hasEndedLease at_ then released t else t })

/-- The oldest pending task. -/
def oldestPending (s : MemoryStore) : Option Task := s.tasks.find? (·.status = .pending)

/-- Hand out the oldest pending task. A lease that would end outside the range of dates is
refused before anything changes. -/
def claim (now : Instant) (lease : Span) (s : MemoryStore) :
    Except StoreError (Option Task) × MemoryStore :=
  match now.add? lease with
  | none => (.error (.leaseOutOfRange lease), s)
  | some deadline =>
    let s := (s.requeue now).2
    match s.oldestPending with
    | none => (.ok none, s)
    | some t =>
      (.ok (some (claimed now deadline t)),
        { s with tasks := updateTask t.id (claimed now deadline) s.tasks })

/-- The task with an identifier. -/
def get (id : String) (s : MemoryStore) : Except StoreError Task :=
  match s.tasks.find? (·.id = id) with
  | some t => .ok t
  | none => .error (.noTask id)

/-- Record a result. -/
def complete (now : Instant) (id : String) (result : Binary64) (s : MemoryStore) :
    Except StoreError Unit × MemoryStore :=
  match s.get id with
  | .error e => (.error e, s)
  | .ok _ => (.ok (), { s with tasks := updateTask id (completed now result) s.tasks })

/-- The tasks of a user, newest first. -/
def list (owner : Int) (s : MemoryStore) : List Task := s.tasks.reverse.filter (·.owner = owner)

/-- The user with a login. -/
def findUser (login : String) (s : MemoryStore) : Option User := s.users.find? (·.login = login)

/-- Register a login. -/
def createUser (login passwordHash : String) (s : MemoryStore) :
    Except StoreError Int × MemoryStore :=
  match s.findUser login with
  | some _ => (.error (.loginTaken login), s)
  | none =>
    let id := s.lastUser + 1
    (.ok id, { s with users := s.users ++ [⟨id, login, passwordHash⟩], lastUser := id })

instance : Store MemoryStore where
  enqueue now owner expression work s := s.enqueue now owner expression work
  claim now lease s := s.claim now lease
  complete now id result s := s.complete now id result
  get id s := s.get id
  list owner s := .ok (s.list owner)
  requeue at_ s :=
    let (count, s) := s.requeue at_
    (.ok count, s)
  createUser login passwordHash s := s.createUser login passwordHash
  findUser login s := .ok (s.findUser login)
  prepare s := (.ok (), s)

end MemoryStore

end ArithService
