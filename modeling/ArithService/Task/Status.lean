/-!
# Task status

## Main Definitions

* `TaskStatus` — the three stages of a task
* `TaskStatus.text`, `TaskStatus.ofText?` — their words
-/

namespace ArithService

/-- The stage a task is in. -/
inductive TaskStatus where
  /-- Waiting for a worker. -/
  | pending
  /-- Handed to one worker. -/
  | inProgress
  /-- A result has been recorded. -/
  | completed
deriving DecidableEq, Repr

namespace TaskStatus

/-- The word for a status. -/
def text : TaskStatus → String
  | .pending => "pending"
  | .inProgress => "in_progress"
  | .completed => "completed"

/-- The status a word stands for. -/
def ofText? (word : String) : Option TaskStatus :=
  if word = "pending" then some .pending
  else if word = "in_progress" then some .inProgress
  else if word = "completed" then some .completed
  else none

/-- What is said about a word that is no status. -/
def unknownMessage (word : String) : String := "unknown task status: " ++ word

end TaskStatus

end ArithService
