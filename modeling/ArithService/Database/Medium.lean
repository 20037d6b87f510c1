import ArithService.Database.Store

/-!
# Where databases are kept

## Main Definitions

* `Medium` — what is found where a database should be
* `Medium.open_` — opening a store there

## Design Notes

A path names a file, in a directory or in the directory of the process. A missing directory is
created, and so is a missing database.
-/

namespace ArithService

/-- What is found where a database should be. -/
inductive Medium where
  | nothing
  | database (db : Database)
  /-- A file with some other content. -/
  | otherFile
  /-- A directory under the name of the file. -/
  | directory
  /-- A file under the name of the directory. -/
  | blocked
deriving DecidableEq, Repr

/-- The failure to open a file. -/
def cannotOpen (path : String) : StoreError :=
  .pool ("Failed to create connection: Failed to connect to database: \x60" ++
    "Unable to open connection to local database " ++ path ++ ": 14\x60")

namespace Medium

/-- Open a store, and what is found there afterwards. A failed upgrade keeps the steps before
the failure. -/
def open_ (path : String) : Medium → Except StoreError DatabaseStore × Medium
  | nothing =>
    let (result, db) := DatabaseStore.open_ {}
    (result, database db)
  | database db =>
    let (result, db) := DatabaseStore.open_ db
    (result, database db)
  | otherFile =>
    (.error (.migration ("Failed to create _migrations table: " ++ SqlFault.notADatabase.message)),
      otherFile)
  | directory => (.error (cannotOpen path), directory)
  | blocked =>
    if path.toList.contains '/' then
      (.error (.pool "Failed to create database directory: File exists (os error 17)"), blocked)
    else (.error (cannotOpen path), blocked)

end Medium

end ArithService
