import Mathlib
import ArithService.Dispatch.Message
import ArithService.Proofs.Text.Bytes
import ArithService.Proofs.Wire.Field

/-!
# Assignments arrive as they are sent

## Main Definitions

* `FitsMessage` — texts of a length that can be announced
* `textFields` — a text as a field, or as none

## Design Notes

An empty text is no field at all. It arrives because it is also what the message has for this
text before any field is stored (`foldlM_merge_textFields`).
-/

namespace ArithService

/-! ### Texts -/

/-- A text of less than `2 ^ 64` bytes, as every text of a machine with 64 bits is. -/
def FitsMessage (text : String) : Prop := (textBytes text).length < 2 ^ 64

/-- A part of a text is no longer than the text. -/
theorem FitsMessage.of_sublist {part text : String} (h : FitsMessage text)
    (hpart : part.toList.Sublist text.toList) : FitsMessage part := by
  rw [FitsMessage, length_textBytes] at h ⊢
  exact (String.utf8Len_le_of_sublist hpart).trans_lt h

/-- The fields in which a text is sent. -/
def textFields (number : Nat) (text : String) : List Field :=
  if text = "" then [] else [⟨number, .bytes (textBytes text)⟩]

theorem encodeText_eq (number : Nat) (text : String) :
    encodeText number text = (textFields number text).flatMap Field.encode := by
  rw [encodeText, textFields]
  split_ifs
  · rfl
  · simp

theorem fits_textFields {number : Nat} (hpositive : 0 < number) (hsmall : number < 2 ^ 29)
    {text : String} (h : FitsMessage text) : ∀ f ∈ textFields number text, f.Fits := by
  rw [textFields]
  split_ifs
  · simp
  · exact List.forall_mem_singleton.2 ⟨hpositive, hsmall, h⟩

/-! ### Messages -/

namespace MessageFormat

variable {Message : Type} {format : MessageFormat Message}

/-- A message is decoded to what its fields make of the blank one. -/
theorem decode_encode {fields : List Field} (h : ∀ f ∈ fields, f.Fits) :
    format.decode (fields.flatMap Field.encode) = format.ofFields fields := by
  rw [decode, readFields_encode h]

/-- A declared field is stored. -/
theorem foldlM_merge_cons {f : Field} {rest : List Field} {m stored : Message}
    {store : Payload → Message → Option Message} (hstore : format.store? f.number = some store)
    (hstored : store f.payload m = some stored) :
    (f :: rest).foldlM format.merge ([], m) = rest.foldlM format.merge ([], stored) := by
  simp [merge, hstore, hstored]

/-- **A declared text is stored**, also where it is empty and no field carries it. -/
theorem foldlM_merge_textFields {number : Nat} {text : String} {m : Message}
    {rest : List Field} {set : String → Message → Message}
    (hstore : format.store? number = some fun p m => p.text?.map fun text => set text m)
    (hblank : set "" m = m) :
    (textFields number text ++ rest).foldlM format.merge ([], m) =
      rest.foldlM format.merge ([], set text m) := by
  rw [textFields]
  split_ifs with hempty
  · rw [hempty, hblank]
    rfl
  · exact foldlM_merge_cons hstore (by simp [Payload.text?])

end MessageFormat

namespace Assignment

/-- The texts of an assignment can all be announced. -/
structure Fits (m : Assignment) : Prop where
  id : FitsMessage m.id
  arg1 : FitsMessage m.arg1
  arg2 : FitsMessage m.arg2
  operation : FitsMessage m.operation
  expression : FitsMessage m.expression

/-- The fields in which an assignment is sent. -/
def fields (m : Assignment) : List Field :=
  textFields 1 m.id ++ textFields 2 m.arg1 ++ textFields 3 m.arg2 ++ textFields 4 m.operation ++
    textFields 5 m.expression

theorem encode_eq (m : Assignment) : m.encode = m.fields.flatMap Field.encode := by
  simp only [encode, fields, encodeText_eq, List.flatMap_append]

theorem ofFields_fields (m : Assignment) : format.ofFields m.fields = some m := by
  have hfold : (m.fields ++ []).foldlM format.merge ([], {}) = some ([], m) := by
    simp only [fields, List.append_assoc]
    exact (MessageFormat.foldlM_merge_textFields rfl rfl).trans <|
      (MessageFormat.foldlM_merge_textFields rfl rfl).trans <|
      (MessageFormat.foldlM_merge_textFields rfl rfl).trans <|
      (MessageFormat.foldlM_merge_textFields rfl rfl).trans <|
      (MessageFormat.foldlM_merge_textFields rfl rfl).trans rfl
  rw [List.append_nil] at hfold
  rw [MessageFormat.ofFields, show format.blank = {} from rfl, hfold]

theorem fits_fields {m : Assignment} (h : m.Fits) : ∀ f ∈ m.fields, f.Fits := by
  simp only [fields, List.forall_mem_append]
  exact ⟨⟨⟨⟨fits_textFields (by decide) (by decide) h.id,
    fits_textFields (by decide) (by decide) h.arg1⟩,
    fits_textFields (by decide) (by decide) h.arg2⟩,
    fits_textFields (by decide) (by decide) h.operation⟩,
    fits_textFields (by decide) (by decide) h.expression⟩

/-- **An assignment arrives as it was sent.** -/
theorem decode_encode {m : Assignment} (h : m.Fits) : format.decode m.encode = some m := by
  rw [encode_eq, MessageFormat.decode_encode (fits_fields h), ofFields_fields]

end Assignment

end ArithService
