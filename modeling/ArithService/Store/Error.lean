/-!
# Storage errors

## Main Definitions

* `StoreError` — the ways a store can refuse or fail
* `StoreError.message` — its text

## Design Notes

A call that is broken off is none of the errors that a caller can react to: whoever waits for it
gets nothing. It is listed with them, so that a run goes on behind it as it does behind an error.
-/

namespace ArithService

/-- Why a store operation had no success. -/
inductive StoreError where
  /-- The database could not be reached. -/
  | pool (detail : String)
  /-- A statement failed, or a stored row makes no sense. -/
  | query (detail : String)
  | notFound (entity id : String)
  | conflict (detail : String)
  /-- The schema could not be brought up to date. -/
  | migration (detail : String)
  /-- The call was broken off and has no answer at all: a sum left the range of its type. -/
  | brokenOff
deriving DecidableEq, Repr

/-- The text of a storage error. -/
def StoreError.message : StoreError → String
  | .pool detail => "Connection pool error: " ++ detail
  | .query detail => "Query failed: " ++ detail
  | .notFound entity id => "Entity not found: " ++ entity ++ " with id " ++ id
  | .conflict detail => "Conflict: " ++ detail
  | .migration detail => "Migration failed: " ++ detail
  | .brokenOff => "attempt to add with overflow"

/-- A task that does not exist. -/
def StoreError.noTask (id : String) : StoreError := .notFound "task" id

/-- A login that is taken. -/
def StoreError.loginTaken (login : String) : StoreError :=
  .conflict ("user '" ++ login ++ "' already exists")

end ArithService
