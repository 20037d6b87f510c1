import Mathlib
import ArithService.Proofs.Wire.Field

/-!
# Fields end where they end

What a field is does not depend on what comes behind it. So bytes that are a sequence of fields
can be continued by any other bytes, which are then read as if they stood alone.

## Main Definitions

* `TakesPiece` — a reader that takes a piece off the front, whatever is behind the piece

## Design Notes

Every reader takes a piece: it is enough to look at the bytes before the rest that it returns.
The bound on the number of fields is the length of the bytes, and any greater bound gives the
same fields (`readFieldsOnto_eq`); after that `readFields` has one equation for each field.
-/

namespace ArithService

/-! ### Pieces -/

/-- A reader takes a piece off the front, and takes the same piece whatever is behind it. -/
def TakesPiece {α : Type} (read : Bytes → Option (α × Bytes)) : Prop :=
  ∀ ⦃bs : Bytes⦄ ⦃x : α⦄ ⦃rest : Bytes⦄, read bs = some (x, rest) →
    ∃ piece, bs = piece ++ rest ∧ ∀ behind, read (piece ++ behind) = some (x, behind)

namespace TakesPiece

variable {α β : Type} {read : Bytes → Option (α × Bytes)}

/-- Giving a meaning to what was read takes the same piece. -/
theorem map (h : TakesPiece read) (f : α → β) :
    TakesPiece fun bs => (read bs).map fun (x, rest) => (f x, rest) := by
  intro bs y rest hread
  obtain ⟨⟨x, rest'⟩, hx, hsame⟩ := Option.map_eq_some_iff.1 hread
  obtain ⟨rfl, rfl⟩ := Prod.mk.inj hsame
  obtain ⟨piece, rfl, hpiece⟩ := h hx
  exact ⟨piece, rfl, fun behind => by simp [hpiece]⟩

/-- Reading on takes the two pieces together. With this a reader that is put together from others
takes a piece because they do. -/
theorem andThen (h : TakesPiece read) {next : α → Bytes → Option (β × Bytes)}
    (hnext : ∀ x, TakesPiece (next x)) :
    TakesPiece fun bs => (read bs).bind fun (x, rest) => next x rest := by
  intro bs y rest hread
  obtain ⟨⟨x, middle⟩, hx, hy⟩ := Option.bind_eq_some_iff.1 hread
  obtain ⟨first, rfl, hfirst⟩ := h hx
  obtain ⟨second, rfl, hsecond⟩ := hnext x hy
  exact ⟨first ++ second, by simp, fun behind => by simp [hfirst, hsecond]⟩

end TakesPiece

/-! ### Fields -/

theorem takesPiece_readGroups (more : Nat) : TakesPiece (readGroups more) := by
  induction more with
  | zero =>
    intro bs n rest hread
    cases bs with
    | nil => simp [readGroups] at hread
    | cons b bs =>
      simp only [readGroups] at hread
      split_ifs at hread with hlast
      obtain ⟨rfl, rfl⟩ := Prod.mk.inj (Option.some.inj hread)
      exact ⟨[b], rfl, fun behind => by simp [readGroups, hlast]⟩
  | succ more ih =>
    intro bs n rest hread
    cases bs with
    | nil => simp [readGroups] at hread
    | cons b bs =>
      simp only [readGroups] at hread
      split_ifs at hread with hlast
      · obtain ⟨rfl, rfl⟩ := Prod.mk.inj (Option.some.inj hread)
        exact ⟨[b], rfl, fun behind => by simp [readGroups, hlast]⟩
      · cases hhigh : readGroups more bs with
        | none => simp [hhigh] at hread
        | some result =>
          obtain ⟨high, rest'⟩ := result
          simp only [hhigh, Option.some.injEq, Prod.mk.injEq] at hread
          obtain ⟨rfl, rfl⟩ := hread
          obtain ⟨piece, rfl, hpiece⟩ := ih hhigh
          exact ⟨b :: piece, rfl, fun behind => by simp [readGroups, hlast, hpiece]⟩

theorem takesPiece_readVarint : TakesPiece readVarint := takesPiece_readGroups 9

/-- Bytes that are counted off are the same whatever follows; where there are too few, nothing is
read at all. -/
theorem takesPiece_readBytes (count : Nat) : TakesPiece (readBytes count) := by
  intro bs content rest hread
  simp only [readBytes] at hread
  split_ifs at hread with hlength
  obtain ⟨rfl, rfl⟩ := Prod.mk.inj (Option.some.inj hread)
  refine ⟨bs.take count, (List.take_append_drop _ _).symm, fun behind => ?_⟩
  have hpiece := readBytes_append (bs.take count) behind
  rwa [hlength] at hpiece

/-- Bytes are read behind their number. -/
theorem readPayload_two : readPayload 2 = fun bs => (readVarint bs).bind fun (count, rest) =>
    (readBytes count rest).map fun (b, rest) => (Payload.bytes b, rest) := by
  funext bs
  rw [readPayload]
  cases readVarint bs <;> rfl

theorem takesPiece_readPayload (wireType : Nat) : TakesPiece (readPayload wireType) := by
  have hmarker : ∀ p : Payload, TakesPiece fun bs => some (p, bs) := by
    intro p bs q rest hread
    obtain ⟨rfl, rfl⟩ := Prod.mk.inj (Option.some.inj hread)
    exact ⟨[], rfl, fun behind => rfl⟩
  match wireType with
  | 0 => exact takesPiece_readVarint.map fun n => Payload.varint (UInt64.ofNat n)
  | 1 =>
    exact (takesPiece_readBytes 8).map fun b => Payload.fixed64 (UInt64.ofNat (ofLittleEndian b))
  | 2 =>
    rw [readPayload_two]
    exact takesPiece_readVarint.andThen fun count => (takesPiece_readBytes count).map Payload.bytes
  | 3 => exact hmarker .groupStart
  | 4 => exact hmarker .groupEnd
  | 5 =>
    exact (takesPiece_readBytes 4).map fun b => Payload.fixed32 (UInt32.ofNat (ofLittleEndian b))
  | _ + 6 =>
    intro bs p rest hread
    simp [readPayload] at hread

/-- **A field is the same field whatever is behind it.** The number and the type of a field are in
front of it, and a text is announced by its length, so no reader ever looks ahead. -/
theorem takesPiece_readField : TakesPiece readField := by
  intro bs f rest hread
  rw [readField] at hread
  cases hkey : readVarint bs with
  | none => simp [hkey] at hread
  | some result =>
    obtain ⟨key, afterKey⟩ := result
    simp only [hkey] at hread
    split_ifs at hread with hvalid
    obtain ⟨first, rfl, hfirst⟩ := takesPiece_readVarint hkey
    obtain ⟨second, rfl, hsecond⟩ :=
      (takesPiece_readPayload (key % 8)).map (fun p => (⟨key / 8, p⟩ : Field)) hread
    refine ⟨first ++ second, by simp, fun behind => ?_⟩
    rw [readField, List.append_assoc, hfirst]
    simp only [if_pos hvalid, hsecond]

theorem readField_nil : readField [] = none := rfl

/-- What is left behind a field is shorter. So as many fields as bytes are enough to read them
all. -/
theorem length_lt_of_readField {bs rest : Bytes} {f : Field} (h : readField bs = some (f, rest)) :
    rest.length < bs.length := by
  obtain ⟨piece, rfl, hpiece⟩ := takesPiece_readField h
  cases piece with
  | nil =>
    have hempty := hpiece []
    simp [readField_nil] at hempty
  | cons b piece =>
    simp only [List.cons_append, List.length_cons, List.length_append]
    omega

/-! ### Sequences of fields -/

theorem readFieldsOnto_nil (fuel : Nat) (before : List Field) :
    readFieldsOnto fuel [] before = some before.reverse := by
  cases fuel <;> rfl

theorem readFieldsOnto_cons (fuel : Nat) (b : UInt8) (bs : Bytes) (before : List Field) :
    readFieldsOnto (fuel + 1) (b :: bs) before =
      match readField (b :: bs) with
      | some (f, rest) => readFieldsOnto fuel rest (f :: before)
      | none => none := rfl

/-- Fields that were read before only stand in front, which frees every induction from them. -/
theorem readFieldsOnto_reverse (fuel : Nat) (bs : Bytes) (before : List Field) :
    readFieldsOnto fuel bs before = (readFieldsOnto fuel bs []).map (before.reverse ++ ·) := by
  induction fuel generalizing bs before with
  | zero => cases bs <;> simp [readFieldsOnto]
  | succ fuel ih =>
    cases bs with
    | nil => simp [readFieldsOnto]
    | cons b bs =>
      simp only [readFieldsOnto_cons]
      cases readField (b :: bs) with
      | none => rfl
      | some result =>
        obtain ⟨f, rest⟩ := result
        dsimp only
        rw [ih rest (f :: before), ih rest [f], Option.map_map]
        congr 1
        funext fields
        simp

/-- Every bound that is at least the length gives the same fields. From here on no bound is
mentioned any more. -/
theorem readFieldsOnto_eq {fuel : Nat} {bs : Bytes} (h : bs.length ≤ fuel) :
    readFieldsOnto fuel bs [] = readFields bs := by
  suffices hall : ∀ fuel fuel' (bs : Bytes), bs.length ≤ fuel → bs.length ≤ fuel' →
      readFieldsOnto fuel bs [] = readFieldsOnto fuel' bs [] from hall fuel _ bs h le_rfl
  clear h
  intro fuel
  induction fuel with
  | zero =>
    intro fuel' bs h _
    obtain rfl : bs = [] := List.eq_nil_of_length_eq_zero (Nat.le_zero.1 h)
    rw [readFieldsOnto_nil, readFieldsOnto_nil]
  | succ fuel ih =>
    intro fuel' bs h h'
    cases bs with
    | nil => rw [readFieldsOnto_nil, readFieldsOnto_nil]
    | cons b bs =>
      cases fuel' with
      | zero => simp at h'
      | succ fuel' =>
        simp only [readFieldsOnto_cons]
        cases hfield : readField (b :: bs) with
        | none => rfl
        | some result =>
          obtain ⟨f, rest⟩ := result
          have hrest := length_lt_of_readField hfield
          dsimp only
          rw [readFieldsOnto_reverse fuel, readFieldsOnto_reverse fuel',
            ih fuel' rest (by omega) (by omega)]

theorem readFields_nil : readFields [] = some [] := rfl

/-- Reading fields is reading one field and then the others. -/
theorem readFields_of_readField {bs rest : Bytes} {f : Field}
    (h : readField bs = some (f, rest)) :
    readFields bs = (readFields rest).map (f :: ·) := by
  have hrest := length_lt_of_readField h
  cases bs with
  | nil => simp [readField_nil] at h
  | cons b bs =>
    rw [List.length_cons] at hrest
    rw [readFields, List.length_cons, readFieldsOnto_cons, h]
    dsimp only
    rw [readFieldsOnto_reverse, readFieldsOnto_eq (by omega)]
    rfl

/-- Bytes that are no field are no sequence of fields, unless there are none: nothing is skipped in
search of the next field. -/
theorem readFields_eq_none {b : UInt8} {bs : Bytes} (h : readField (b :: bs) = none) :
    readFields (b :: bs) = none := by
  rw [readFields, List.length_cons, readFieldsOnto_cons, h]

theorem eq_nil_of_readFields {bs : Bytes} (h : readFields bs = some []) : bs = [] := by
  cases bs with
  | nil => rfl
  | cons b bs =>
    cases hfield : readField (b :: bs) with
    | none => simp [readFields_eq_none hfield] at h
    | some result => simp [readFields_of_readField hfield] at h

/-- The first field of a sequence is a piece of the bytes, and the bytes behind it are the other
fields. Inductions on fields take bytes apart with this. -/
theorem exists_piece {bs : Bytes} {f : Field} {fields : List Field}
    (h : readFields bs = some (f :: fields)) :
    ∃ piece rest, bs = piece ++ rest ∧ readFields rest = some fields ∧
      ∀ behind, readField (piece ++ behind) = some (f, behind) := by
  cases bs with
  | nil => simp [readFields_nil] at h
  | cons b bs =>
    cases hfield : readField (b :: bs) with
    | none => simp [readFields_eq_none hfield] at h
    | some result =>
      obtain ⟨g, rest⟩ := result
      obtain ⟨piece, hpiece, hbehind⟩ := takesPiece_readField hfield
      rw [readFields_of_readField hfield] at h
      obtain ⟨others, hothers, hsame⟩ := Option.map_eq_some_iff.1 h
      obtain ⟨rfl, rfl⟩ := List.cons.inj hsame
      exact ⟨piece, rest, hpiece, hothers, hbehind⟩

/-- **Reading stops between fields.** Behind a sequence of fields everything is read as if it stood
alone. It is this that lets messages be extended. -/
theorem readFields_append {a : Bytes} {fields : List Field} (h : readFields a = some fields)
    (b : Bytes) : readFields (a ++ b) = (readFields b).map (fields ++ ·) := by
  induction fields generalizing a with
  | nil =>
    rw [eq_nil_of_readFields h]
    simp
  | cons f fields ih =>
    obtain ⟨piece, rest, rfl, hrest, hpiece⟩ := exists_piece h
    rw [List.append_assoc, readFields_of_readField (hpiece (rest ++ b)), ih hrest, Option.map_map]
    rfl

end ArithService
