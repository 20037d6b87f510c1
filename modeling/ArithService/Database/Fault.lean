/-!
# Statement failures

## Main Definitions

* `SqlFault` — why a statement failed
* `SqlFault.message` — its text
* `RowFault` — why a stored row makes no sense
-/

namespace ArithService

/-- Why a statement failed. -/
inductive SqlFault where
  | noTable (name : String)
  | noColumn (name : String)
  /-- A column named in an insertion does not exist. -/
  | noTargetColumn (table column : String)
  | duplicateColumn (name : String)
  /-- A value that has to be unique is there already; columns are named with their table. -/
  | notUnique (column : String)
  | missingValue (column : String)
  /-- A row refers to a row that does not exist, or a row that is referred to would go. -/
  | foreignKey
  /-- A trigger stopped the statement. -/
  | refused
  /-- The value of a view could not be computed. -/
  | integerOverflow
  | readOnlyView (name : String)
  | viewIndex
  | viewColumn
  | noIndex (name : String)
  /-- A column that is part of a key or of an index cannot be dropped. -/
  | neededColumn (name : String)
  | notADatabase
deriving DecidableEq, Repr

/-- The reason for a failure. -/
def SqlFault.text : SqlFault → String
  | .noTable name => "no such table: " ++ name
  | .noColumn name => "no such column: " ++ name
  | .noTargetColumn table column => "table " ++ table ++ " has no column named " ++ column
  | .duplicateColumn name => "duplicate column name: " ++ name
  | .notUnique column => "UNIQUE constraint failed: " ++ column
  | .missingValue column => "NOT NULL constraint failed: " ++ column
  | .foreignKey => "FOREIGN KEY constraint failed"
  | .refused => "refused"
  | .integerOverflow => "integer overflow"
  | .readOnlyView name => "cannot modify " ++ name ++ " because it is a view"
  | .viewIndex => "views may not be indexed"
  | .viewColumn => "Cannot add a column to a view"
  | .noIndex name => "no such index: " ++ name
  | .neededColumn name => "cannot drop column: " ++ name
  | .notADatabase => "file is not a database"

/-- The text of a failure. -/
def SqlFault.message (f : SqlFault) : String := "SQLite failure: `" ++ f.text ++ "`"

/-- Why a stored row makes no sense. -/
inductive RowFault where
  /-- A value that has to be there is not. -/
  | null
  | unknownStatus (message : String)
deriving DecidableEq, Repr

/-- The text of a row failure. -/
def RowFault.message : RowFault → String
  | .null => "Null value"
  | .unknownStatus message => message

end ArithService
