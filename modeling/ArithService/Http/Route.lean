import ArithService.Text.Bytes

/-!
# Routes

Which paths are served, and for which methods.

## Main Definitions

* `Route`, `Route.ofPath?` — a path that is served
* `Route.methods` — the methods of a route
* `Route.isProtected` — whether a route is for known callers only
* `percentDecoded?` — the text of a part of a path

## Design Notes

Paths are compared as they were sent. Only the identifier of a task is decoded, after the route
is known.
-/

namespace ArithService

/-- A path that is served. -/
inductive Route where
  | health
  | register
  | login
  | calculate
  | tasks
  /-- A single task, named by the last part of the path as it was sent. -/
  | task (part : List Char)
deriving DecidableEq, Repr

namespace Route

/-- The path of the tasks. -/
def tasksPath : String := "/api/v1/tasks"

/-- The last part of a path below the tasks. -/
def taskPart? (path : List Char) : Option (List Char) :=
  let above := tasksPath.toList ++ ['/']
  let part := path.drop above.length
  if path.take above.length = above ∧ part ≠ [] ∧ '/' ∉ part then some part else none

/-- The route of a path. -/
def ofPath? (path : String) : Option Route :=
  if path = "/health" then some health
  else if path = "/api/v1/register" then some register
  else if path = "/api/v1/login" then some login
  else if path = "/api/v1/calculate" then some calculate
  else if path = tasksPath then some tasks
  else (taskPart? path.toList).map task

/-- The methods of a route. Where `GET` is served, `HEAD` is. -/
def methods : Route → List String
  | health | task _ => ["GET", "HEAD"]
  | register | login | calculate => ["POST"]
  | tasks => ["POST", "GET", "HEAD"]

/-- Whether a route is for known callers only. -/
def isProtected : Route → Bool
  | health | register | login => false
  | calculate | tasks | task _ => true

end Route

/-! ### Percent signs -/

/-- The value of a hexadecimal digit of either case. -/
def hexDigitValue? (b : UInt8) : Option UInt8 :=
  if 48 ≤ b ∧ b ≤ 57 then some (b - 48)
  else if 65 ≤ b ∧ b ≤ 70 then some (b - 55)
  else if 97 ≤ b ∧ b ≤ 102 then some (b - 87)
  else none

/-- Bytes with every percent sign and two digits after it replaced by the byte they stand for. A
percent sign without two digits stands for itself. -/
def percentDecoded : Bytes → Bytes
  | [] => []
  | 37 :: a :: b :: rest =>
    match hexDigitValue? a, hexDigitValue? b with
    | some high, some low => (16 * high + low) :: percentDecoded rest
    | _, _ => 37 :: percentDecoded (a :: b :: rest)
  | b :: rest => b :: percentDecoded rest

/-- The text of a part of a path, if it is well-formed. -/
def percentDecoded? (part : List Char) : Option String :=
  textOfBytes? (percentDecoded (textBytes (String.ofList part)))

end ArithService
