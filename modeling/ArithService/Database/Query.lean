import ArithService.Database.Schema

/-!
# Queries

The statements that read and change tasks and users.

## Main Definitions

* `Database.readTasks`, `Database.insertTask`, `Database.updateTasks` — on tasks
* `Database.newestId` — the greatest identifier of a task
* `Database.findLogin`, `Database.insertUser` — on users

## Design Notes

A statement is checked before it runs: the table has to be there, then every column that the
statement names, in the order in which it names them.
-/

namespace ArithService

namespace Database

/-! ### Tasks -/

/-- The rows of the tasks, for a query that names the given columns. -/
def readTasks (db : Database) (columns : List TaskColumn) : Except SqlFault (List TaskRow) :=
  match db.tasks with
  | .absent => .error (.noTable TableName.tasks.text)
  | .brokenView =>
    match columns.find? (· ≠ .id) with
    | some c => .error (.noColumn c.name)
    | none => .error .integerOverflow
  | .table existing rows =>
    match columns.find? (!existing.contains ·) with
    | some c => .error (.noColumn c.name)
    | none => .ok rows

/-- Whether there is a user with a number, and a table to look it up in. -/
def isUser (db : Database) (id : Int) : Except SqlFault Bool :=
  match db.users with
  | none => .error (.noTable ("main." ++ TableName.users.text))
  | some (.numbered _ rows) => .ok (rows.any (·.id = id))
  | some (.loose rows) => .ok (rows.any (·.id = some id))

/-- Insert a row that gives values to the given columns. Identifiers are unique, and the owner
has to be a user. -/
def insertTask (db : Database) (columns : List TaskColumn) (r : TaskRow) :
    Except SqlFault Database :=
  match db.tasks with
  | .absent => .error (.noTable TableName.tasks.text)
  | .brokenView => .error (.readOnlyView TableName.tasks.text)
  | .table existing rows =>
    match columns.find? (!existing.contains ·) with
    | some c => .error (.noTargetColumn TableName.tasks.text c.name)
    | none =>
      match db.isUser r.owner with
      | .error f => .error f
      | .ok known =>
        match db.triggered .tasks .insert with
        | some .abort => .error .refused
        | some .ignore => .ok db
        | none =>
          if r.id.isSome && rows.any (·.id = r.id) then .error (.notUnique "tasks.id")
          else if !known then .error .foreignKey
          else .ok { db with tasks := .table existing (rows ++ [r]) }

/-- Change the rows that match, in a statement that names the given columns, and return the
changed rows. -/
def updateTasks (db : Database) (columns : List TaskColumn) (matching : TaskRow → Bool)
    (change : TaskRow → TaskRow) : Except SqlFault (List TaskRow × Database) :=
  match db.tasks with
  | .absent => .error (.noTable TableName.tasks.text)
  | .brokenView => .error (.readOnlyView TableName.tasks.text)
  | .table existing rows =>
    match columns.find? (!existing.contains ·) with
    | some c => .error (.noColumn c.name)
    | none =>
      let changed := (rows.filter matching).map change
      match changed, db.triggered .tasks .update with
      | [], _ => .ok ([], db)
      | _ :: _, some .abort => .error .refused
      | _ :: _, some .ignore => .ok ([], db)
      | _ :: _, none =>
        .ok (changed,
          { db with
            tasks := .table existing (rows.map fun r => if matching r then change r else r) })

/-- The greatest identifier, as it is read back. -/
def newestId (db : Database) : Except SqlFault (Option String) :=
  match db.readTasks [.id] with
  | .error f => .error f
  | .ok rows =>
    let ids := rows.filterMap (·.id)
    .ok ((ids.foldl (fun newest id =>
      match newest with
      | none => some id
      | some n => if n < id then some id else some n) none).map textRead)

/-! ### Users -/

/-- Insert a user and return the number, if the row was inserted and has one. -/
def insertUser (db : Database) (login passwordHash : String) :
    Except SqlFault (Option (Option Int) × Database) :=
  match db.users with
  | none => .error (.noTable TableName.users.text)
  | some table =>
    match db.triggered .users .insert with
    | some .abort => .error .refused
    | some .ignore => .ok (none, db)
    | none =>
      match table with
      | .numbered lastId rows =>
        if rows.any (·.login = login) then .error (.notUnique "users.login")
        else
          let id := lastId + 1
          .ok (some (some id),
            { db with users := some (.numbered id (rows ++ [⟨id, login, passwordHash⟩])) })
      | .loose rows =>
        .ok (some none,
          { db with users := some (.loose (rows ++ [⟨none, some login, some passwordHash⟩])) })

/-- The first user with a login. -/
def findLogin (db : Database) (login : String) : Except SqlFault (Option LooseUser) :=
  match db.users with
  | none => .error (.noTable TableName.users.text)
  | some (.numbered _ rows) =>
    .ok ((rows.find? (·.login = login)).map fun u => ⟨some u.id, some u.login, some u.passwordHash⟩)
  | some (.loose rows) => .ok (rows.find? (·.login = some login))

end Database

end ArithService
