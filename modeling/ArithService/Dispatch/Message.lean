import ArithService.Task.Task
import ArithService.Wire.Message

/-!
# Messages between dispatcher and worker

## Main Definitions

* `AssignmentRequest`, `Assignment` — asking for a task, and the answer
* `ResultReport`, `Acknowledgement` — handing in a result, and the answer
* `ResultReport.received` — what arrives of a result
* `Assignment.ofTask` — what a worker is told about a task
* `Assignment.compute` — what a worker makes of it

## Design Notes

Fields with their default value are not sent, so the assignment of "nothing to do" is the
empty message. Both zeros are the default number, so a zero arrives without its sign.
-/

namespace ArithService

/-- A request for the next task. It has no fields. -/
structure AssignmentRequest where
deriving DecidableEq, Repr

/-- A task handed to a worker; all empty when nothing is pending. -/
structure Assignment where
  id : String := ""
  arg1 : String := ""
  arg2 : String := ""
  operation : String := ""
  /-- The whole expression, where there is no single operation. -/
  expression : String := ""
deriving DecidableEq, Repr

/-- The result of a task. -/
structure ResultReport where
  id : String
  result : Binary64
deriving DecidableEq, Repr

/-- The answer to a result. -/
structure Acknowledgement where
  success : Bool
deriving DecidableEq, Repr

/-! ### Encoding -/

/-- A text field, left out when empty. -/
def encodeText (number : Nat) (text : String) : Bytes :=
  if text = "" then [] else (⟨number, .bytes (textBytes text)⟩ : Field).encode

/-- A number field, left out when it is a zero. -/
def encodeDouble (number : Nat) (x : Binary64) : Bytes :=
  if x.isZero then [] else (⟨number, .fixed64 x.toBits⟩ : Field).encode

/-- A truth value, left out when false. -/
def encodeBool (number : Nat) (b : Bool) : Bytes :=
  if b then (⟨number, .varint 1⟩ : Field).encode else []

/-- The bytes of a task request. -/
def AssignmentRequest.encode (_ : AssignmentRequest) : Bytes := []

/-- The bytes of an assignment. -/
def Assignment.encode (m : Assignment) : Bytes :=
  encodeText 1 m.id ++ encodeText 2 m.arg1 ++ encodeText 3 m.arg2 ++
    encodeText 4 m.operation ++ encodeText 5 m.expression

/-- The bytes of a result. -/
def ResultReport.encode (m : ResultReport) : Bytes := encodeText 1 m.id ++ encodeDouble 2 m.result

/-- The bytes of an acknowledgement. -/
def Acknowledgement.encode (m : Acknowledgement) : Bytes := encodeBool 1 m.success

/-! ### Decoding -/

/-- The text in a payload. -/
def Payload.text? : Payload → Option String
  | .bytes content => textOfBytes? content
  | _ => none

/-- The double in a payload. -/
def Payload.double? : Payload → Option Binary64
  | .fixed64 bits => some (Binary64.ofBits bits)
  | _ => none

/-- The truth value in a payload: every number but zero is true. -/
def Payload.bool? : Payload → Option Bool
  | .varint value => some (value != 0)
  | _ => none

/-- How task requests are read. -/
def AssignmentRequest.format : MessageFormat AssignmentRequest where
  blank := {}
  store? _ := none

/-- How assignments are read. -/
def Assignment.format : MessageFormat Assignment where
  blank := {}
  store? number :=
    match number with
    | 1 => some fun p m => p.text?.map fun text => { m with id := text }
    | 2 => some fun p m => p.text?.map fun text => { m with arg1 := text }
    | 3 => some fun p m => p.text?.map fun text => { m with arg2 := text }
    | 4 => some fun p m => p.text?.map fun text => { m with operation := text }
    | 5 => some fun p m => p.text?.map fun text => { m with expression := text }
    | _ => none

/-- How results are read. -/
def ResultReport.format : MessageFormat ResultReport where
  blank := ⟨"", Binary64.zero⟩
  store? number :=
    match number with
    | 1 => some fun p m => p.text?.map fun text => { m with id := text }
    | 2 => some fun p m => p.double?.map fun x => { m with result := x }
    | _ => none

/-- How acknowledgements are read. -/
def Acknowledgement.format : MessageFormat Acknowledgement where
  blank := ⟨false⟩
  store? number :=
    match number with
    | 1 => some fun p m => p.bool?.map fun b => { m with success := b }
    | _ => none

/-! ### Content -/

/-- What arrives of a result: a zero loses its sign on the way. -/
def ResultReport.received (m : ResultReport) : ResultReport :=
  if m.result.isZero then { m with result := Binary64.zero } else m

/-- What a worker is told about a task: the operation and its operands, or the expression. -/
def Assignment.ofTask (t : Task) : Assignment :=
  if t.operation = "" then { id := t.id, expression := t.expression }
  else { id := t.id, arg1 := t.arg1, arg2 := t.arg2, operation := t.operation }

/-- The value a worker computes for an assignment. -/
def Assignment.compute (m : Assignment) : Except ExpressionError Binary64 :=
  if m.operation = "" then evaluate m.expression
  else evaluateBinary m.arg1 m.operation m.arg2

end ArithService
