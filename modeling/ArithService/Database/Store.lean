import ArithService.Database.Migration
import ArithService.Database.Query
import ArithService.Task.Identifier

/-!
# The store on a database

A store whose tasks and users outlive the process.

## Main Definitions

* `DatabaseStore` — an open database and the latest number
* `DatabaseStore.open_` — opening a database
* `DatabaseStore.claim`, and the other operations of a store

## Design Notes

Every operation is a few statements, and each statement takes effect by itself.
-/

namespace ArithService

/-- An open database. -/
structure DatabaseStore where
  database : Database
  /-- The number of the latest task. -/
  lastNumber : Int
deriving DecidableEq, Repr

/-- The failure of a statement in an operation. -/
def queryFault (operation : String) (f : SqlFault) : StoreError :=
  .query (operation ++ ": " ++ f.message)

namespace DatabaseStore

/-- Open a database: bring it up to date and continue after its greatest identifier. The
database is returned as it is afterwards, also on a failure. -/
def open_ (db : Database) : Except StoreError DatabaseStore × Database :=
  match db.upgrade with
  | (.error e, db) => (.error e, db)
  | (.ok (), db) =>
    match db.newestId with
    | .error f => (.error (queryFault "last_task_id" f), db)
    | .ok newest => (.ok ⟨db, ArithService.lastNumber newest⟩, db)

/-- A store on a new database. -/
def empty : DatabaseStore :=
  match open_ {} with
  | (.ok s, _) => s
  | (.error _, db) => ⟨db, 0⟩

/-- Record a new task under the next number. The number is used up even where the task cannot
be stored. -/
def enqueue (now : Instant) (owner : Int) (expression : String) (work : Work)
    (s : DatabaseStore) : Except StoreError String × DatabaseStore :=
  match nextNumber s.lastNumber now with
  | none => (.error .brokenOff, s)
  | some number =>
    let s := { s with lastNumber := number }
    let t := Task.fresh (taskId number) owner expression work (.ofNanoseconds number)
    match s.database.insertTask TaskColumn.ofNewTask (.ofTask t) with
    | .ok db => (.ok t.id, { s with database := db })
    | .error f => (.error (queryFault "enqueue" f), s)

/-- The columns that taking back a lease names. -/
def requeueColumns : List TaskColumn := [.status, .startedAt, .leaseExpiresAt]

/-- Take back expired leases, and count them. -/
def requeue (at_ : Instant) (s : DatabaseStore) : Except StoreError Nat × DatabaseStore :=
  match s.database.updateTasks requeueColumns (·.hasEndedLease at_.text) TaskRow.released with
  | .ok (changed, db) => (.ok changed.length, { s with database := db })
  | .error f => (.error (queryFault "requeue_expired" f), s)

/-- The older of two rows. -/
def older (a b : TaskRow) : TaskRow := if b.before a then b else a

/-- The oldest pending row. -/
def oldestPending (rows : List TaskRow) : Option TaskRow :=
  match rows.filter (·.status = TaskStatus.pending.text) with
  | [] => none
  | r :: rest => some (rest.foldl older r)

/-- The rows of the tasks, if there are any. -/
def rows (db : Database) : List TaskRow :=
  match db.tasks with
  | .table _ rows => rows
  | _ => []

/-- Whether a row is the one to be handed out: the oldest pending row, found by its
identifier. -/
def isNext (db : Database) (r : TaskRow) : Bool :=
  match oldestPending (rows db) with
  | some oldest =>
    r.id.isSome && r.id = oldest.id && r.status = TaskStatus.pending.text
  | none => false

/-- The columns that handing out a task names. -/
def claimColumns : List TaskColumn :=
  [.status, .startedAt, .leaseExpiresAt, .id, .status, .createdAt] ++ TaskColumn.all

/-- Hand out the oldest pending task. A lease that would end outside the range of dates is
refused before anything changes. -/
def claim (now : Instant) (lease : Span) (s : DatabaseStore) :
    Except StoreError (Option Task) × DatabaseStore :=
  match now.add? lease with
  | none => (.error (.leaseOutOfRange lease), s)
  | some deadline =>
    match s.requeue now with
    | (.error e, s) => (.error e, s)
    | (.ok _, s) =>
      match s.database.updateTasks claimColumns (isNext s.database)
          (.claimed now.text deadline.text) with
      | .error f => (.error (queryFault "claim_oldest_pending" f), s)
      | .ok ([], db) => (.ok none, { s with database := db })
      | .ok (r :: _, db) =>
        match r.toTask with
        | .ok t => (.ok (some t), { s with database := db })
        | .error f => (.error (.query ("row_to_task: " ++ f.message)), { s with database := db })

/-- The columns that recording a result names. -/
def completeColumns : List TaskColumn := [.status, .result, .completedAt, .leaseExpiresAt, .id]

/-- Record a result. -/
def complete (now : Instant) (id : String) (result : Binary64) (s : DatabaseStore) :
    Except StoreError Unit × DatabaseStore :=
  match s.database.updateTasks completeColumns (·.id = some id)
      (.completed now.text result) with
  | .error f => (.error (queryFault "complete_task" f), s)
  | .ok ([], db) => (.error (.noTask id), { s with database := db })
  | .ok (_ :: _, db) => (.ok (), { s with database := db })

/-- The task with an identifier. -/
def get (id : String) (s : DatabaseStore) : Except StoreError Task :=
  match s.database.readTasks TaskColumn.all with
  | .error f => .error (queryFault "get_task" f)
  | .ok rows =>
    match rows.find? (·.id = some id) with
    | none => .error (.noTask id)
    | some r =>
      match r.toTask with
      | .ok t => .ok t
      | .error f => .error (.query ("row_to_task: " ++ f.message))

/-- The tasks of a user, newest first. Rows that make no sense are left out. -/
def list (owner : Int) (s : DatabaseStore) : Except StoreError (List Task) :=
  match s.database.readTasks TaskColumn.all with
  | .error f => .error (queryFault "list_tasks_for_owner" f)
  | .ok rows =>
    let newestFirst := (rows.filter (·.owner = owner)).mergeSort fun a b => !a.before b
    .ok (newestFirst.filterMap fun r => r.toTask.toOption)

/-- Register a login. -/
def createUser (login passwordHash : String) (s : DatabaseStore) :
    Except StoreError Int × DatabaseStore :=
  match s.database.insertUser login passwordHash with
  | .error (.notUnique _) => (.error (.loginTaken login), s)
  | .error f => (.error (queryFault "create_user" f), s)
  | .ok (none, db) =>
    (.error (.query "create_user: insert returned no id"), { s with database := db })
  | .ok (some none, db) =>
    (.error (.query ("create_user row parse: " ++ RowFault.null.message)),
      { s with database := db })
  | .ok (some (some id), db) => (.ok id, { s with database := db })

/-- The user with a login. -/
def findUser (login : String) (s : DatabaseStore) : Except StoreError (Option User) :=
  match s.database.findLogin login with
  | .error f => .error (queryFault "find_user_by_login" f)
  | .ok none => .ok none
  | .ok (some ⟨some id, some login, some passwordHash⟩) =>
    .ok (some ⟨id, textRead login, textRead passwordHash⟩)
  | .ok (some _) =>
    .error (.query ("find_user_by_login row parse: " ++ RowFault.null.message))

/-- Bring the schema up to date. -/
def prepare (s : DatabaseStore) : Except StoreError Unit × DatabaseStore :=
  let (result, db) := s.database.upgrade
  (result, { s with database := db })

instance : Store DatabaseStore where
  enqueue now owner expression work s := s.enqueue now owner expression work
  claim now lease s := s.claim now lease
  complete now id result s := s.complete now id result
  get id s := s.get id
  list owner s := s.list owner
  requeue at_ s := s.requeue at_
  createUser login passwordHash s := s.createUser login passwordHash
  findUser login s := s.findUser login
  prepare s := s.prepare

end DatabaseStore

end ArithService
