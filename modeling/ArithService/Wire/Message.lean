import ArithService.Wire.Field

/-!
# Binary messages

Giving meaning to a sequence of fields.

## Main Definitions

* `MessageFormat` — which field numbers a message type declares and how they are stored
* `MessageFormat.decode` — reading a message

## Design Notes

Declared fields are stored in the order in which they come, so the last value wins. Undeclared
fields are skipped, and so is everything inside an undeclared group. Groups may be nested up
to a limit, and every group has to be closed under the number that opened it.
-/

namespace ArithService

/-- How to read messages of one type. -/
structure MessageFormat (Message : Type) where
  /-- The message without any field. -/
  blank : Message
  /-- How the field with a number is stored; nothing for numbers that are not declared.
  A payload of the wrong kind is refused. -/
  store? : Nat → Option (Payload → Message → Option Message)

/-- How deep undeclared groups may be nested. -/
def groupLimit : Nat := 100

namespace MessageFormat

variable {Message : Type}

/-- Skip one undeclared field inside the groups that are open, innermost first. -/
def skip (open_ : List Nat) (f : Field) : Option (List Nat) :=
  match f.payload with
  | .groupEnd =>
    match open_ with
    | number :: outer => if number = f.number then some outer else none
    | [] => none
  | .groupStart => if open_.length < groupLimit then some (f.number :: open_) else none
  | _ => if open_.length < groupLimit then some open_ else none

/-- Take one field into account, given the groups that are open. -/
def merge (format : MessageFormat Message) (state : List Nat × Message) (f : Field) :
    Option (List Nat × Message) :=
  match state.1, format.store? f.number with
  | [], some store => (store f.payload state.2).map fun m => ([], m)
  | open_, _ => (skip open_ f).map fun open_ => (open_, state.2)

/-- The message with the given fields. -/
def ofFields (format : MessageFormat Message) (fields : List Field) : Option Message :=
  match fields.foldlM format.merge ([], format.blank) with
  | some ([], m) => some m
  | _ => none

/-- Read a message. -/
def decode (format : MessageFormat Message) (bs : Bytes) : Option Message :=
  match readFields bs with
  | some fields => format.ofFields fields
  | none => none

end MessageFormat

end ArithService
