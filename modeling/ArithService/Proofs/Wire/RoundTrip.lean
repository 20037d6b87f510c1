import Mathlib
import ArithService.Proofs.Number.Binary64
import ArithService.Proofs.Wire.Message

/-!
# Messages arrive as they are sent

A message is read back from its bytes, and different messages have different bytes. All that is
lost is the sign of a zero: fields with their default value are not sent, and both zeros are the
default number.

## Main Definitions

* `MessageFormat.Carries` — what sending does to the messages of a type
* `MessageFormat.Sends` — an encoder that writes the fields of a message

## Design Notes

Encoders write sequences of fields, so that `readFields_encode` settles everything about bytes.
What is left for each type of messages is what their fields make of the blank message, and that
what gets lost on the way was in no field (`Sends.fields_received`).
-/

namespace ArithService

/-! ### Messages as fields -/

namespace MessageFormat

variable {Message : Type} {format : MessageFormat Message} {encode : Message → Bytes}
  {fields : Message → List Field} {Fits : Message → Prop} {received : Message → Message}

/-- What sending does to the messages of a type. -/
structure Carries (format : MessageFormat Message) (encode : Message → Bytes)
    (Fits : Message → Prop) (received : Message → Message) : Prop where
  /-- A message arrives, if its texts can be announced. -/
  decode_encode : ∀ m, Fits m → format.decode (encode m) = some (received m)
  /-- Messages are sent alike only if they arrive alike. -/
  encode_eq_iff : ∀ m n, Fits m → Fits n → (encode m = encode n ↔ received m = received n)
  /-- Nothing is sent just for what arrives as the blank message. -/
  encode_eq_nil_iff : ∀ m, encode m = [] ↔ received m = format.blank

/-- An encoder writes fields that make up what arrives of a message. -/
structure Sends (format : MessageFormat Message) (encode : Message → Bytes)
    (fields : Message → List Field) (Fits : Message → Prop) (received : Message → Message) :
    Prop where
  encode_eq : ∀ m, encode m = (fields m).flatMap Field.encode
  fits : ∀ m, Fits m → ∀ f ∈ fields m, f.Fits
  ofFields_fields : ∀ m, format.ofFields (fields m) = some (received m)
  fields_received : ∀ m, fields (received m) = fields m
  fields_blank : fields format.blank = []

namespace Sends

variable (h : format.Sends encode fields Fits received)

include h

theorem encode_received (m : Message) : encode (received m) = encode m := by
  rw [h.encode_eq, h.fields_received, ← h.encode_eq]

/-- A message without bytes has no fields, since no field is without bytes. -/
theorem fields_eq_nil {m : Message} (hnil : encode m = []) : fields m = [] := by
  rw [h.encode_eq, List.flatMap_eq_nil_iff] at hnil
  exact List.eq_nil_iff_forall_not_mem.2 fun f hf => f.encode_ne_nil (hnil f hf)

/-- **What is sent as fields arrives.** All four types of messages are instances. -/
theorem carries : format.Carries encode Fits received where
  decode_encode m hm := by
    rw [h.encode_eq, MessageFormat.decode_encode (h.fits m hm), h.ofFields_fields]
  encode_eq_iff m n hm hn := by
    constructor
    · intro hsame
      have hdecoded := congrArg format.decode hsame
      rw [h.encode_eq, h.encode_eq, MessageFormat.decode_encode (h.fits m hm),
        MessageFormat.decode_encode (h.fits n hn), h.ofFields_fields, h.ofFields_fields] at hdecoded
      exact Option.some.inj hdecoded
    · intro hsame
      rw [← h.encode_received m, hsame, h.encode_received]
  encode_eq_nil_iff m := by
    constructor
    · intro hnil
      have hfields := h.ofFields_fields m
      rw [h.fields_eq_nil hnil] at hfields
      exact (Option.some.inj hfields).symm
    · intro hblank
      rw [← h.encode_received, hblank, h.encode_eq, h.fields_blank, List.flatMap_nil]

end Sends

end MessageFormat

/-! ### The messages -/

theorem sends_request :
    AssignmentRequest.format.Sends AssignmentRequest.encode (fun _ => []) (fun _ => True) id where
  encode_eq _ := rfl
  fits := by simp
  ofFields_fields _ := rfl
  fields_received _ := rfl
  fields_blank := rfl

theorem sends_assignment :
    Assignment.format.Sends Assignment.encode Assignment.fields Assignment.Fits id where
  encode_eq := Assignment.encode_eq
  fits _ := Assignment.fits_fields
  ofFields_fields := Assignment.ofFields_fields
  fields_received _ := rfl
  fields_blank := rfl

namespace ResultReport

/-- The text of a result can be announced. -/
def Fits (m : ResultReport) : Prop := FitsMessage m.id

/-- The fields in which a result is sent. -/
def fields (m : ResultReport) : List Field :=
  textFields 1 m.id ++ if m.result.isZero then [] else [⟨2, .fixed64 m.result.toBits⟩]

theorem encode_eq (m : ResultReport) : m.encode = m.fields.flatMap Field.encode := by
  rw [encode, fields, List.flatMap_append, ← encodeText_eq, encodeDouble]
  split_ifs
  · rfl
  · simp

theorem fits_fields {m : ResultReport} (h : m.Fits) : ∀ f ∈ m.fields, f.Fits := by
  rw [fields, List.forall_mem_append]
  refine ⟨fits_textFields (by decide) (by decide) h, ?_⟩
  split_ifs
  · simp
  · exact List.forall_mem_singleton.2 ⟨Nat.zero_lt_two, by norm_num, trivial⟩

theorem ofFields_fields (m : ResultReport) : format.ofFields m.fields = some m.received := by
  have hfold : m.fields.foldlM format.merge ([], ⟨"", .zero⟩) = some ([], m.received) := by
    rw [fields, received]
    refine (MessageFormat.foldlM_merge_textFields rfl rfl).trans ?_
    split_ifs with hzero
    · rfl
    · exact MessageFormat.foldlM_merge_cons rfl (by simp [Payload.double?])
  rw [MessageFormat.ofFields, show format.blank = ⟨"", .zero⟩ from rfl, hfold]

theorem fields_received (m : ResultReport) : m.received.fields = m.fields := by
  unfold received
  split_ifs with hzero
  · simp [fields, hzero]
  · rfl

/-- Only a negative zero arrives as another number. So every statement about results that does not
tell zeros apart holds after the way as well. -/
theorem received_eq (m : ResultReport) :
    m.received = { m with result := if m.result = .negativeZero then .zero else m.result } := by
  unfold received
  split_ifs with hzero hnegative hnegative
  · rfl
  · rw [(Binary64.isZero_iff.1 hzero).resolve_right hnegative]
  · exact absurd (Binary64.isZero_iff.2 (.inr hnegative)) hzero
  · rfl

end ResultReport

theorem sends_result :
    ResultReport.format.Sends ResultReport.encode ResultReport.fields ResultReport.Fits
      ResultReport.received where
  encode_eq := ResultReport.encode_eq
  fits _ := ResultReport.fits_fields
  ofFields_fields := ResultReport.ofFields_fields
  fields_received := ResultReport.fields_received
  fields_blank := rfl

namespace Acknowledgement

/-- The fields in which an acknowledgement is sent. -/
def fields (m : Acknowledgement) : List Field := if m.success then [⟨1, .varint 1⟩] else []

theorem encode_eq (m : Acknowledgement) : m.encode = m.fields.flatMap Field.encode := by
  rw [encode, fields, encodeBool]
  split_ifs
  · simp
  · rfl

end Acknowledgement

/-- Acknowledgements are sent as nothing if they are negative, and as one if they are not. -/
theorem sends_acknowledgement :
    Acknowledgement.format.Sends Acknowledgement.encode Acknowledgement.fields (fun _ => True)
      id where
  encode_eq := Acknowledgement.encode_eq
  fits m _ := by
    rw [Acknowledgement.fields]
    split_ifs
    · exact List.forall_mem_singleton.2 ⟨Nat.zero_lt_one, by norm_num, trivial⟩
    · simp
  ofFields_fields m := by
    obtain ⟨success⟩ := m
    cases success <;> rfl
  fields_received _ := rfl
  fields_blank := rfl

/-- **Messages arrive as they are sent**, all but for the sign of a zero. Whatever texts a message
has (of less than `2 ^ 64` bytes) and whatever number, its bytes are read back as the message,
messages that are sent alike are the same, and only the blank message has no bytes; for results
this is up to a negative zero, which arrives as zero. -/
theorem messages_arrive :
    AssignmentRequest.format.Carries AssignmentRequest.encode (fun _ => True) id ∧
      Assignment.format.Carries Assignment.encode Assignment.Fits id ∧
      ResultReport.format.Carries ResultReport.encode ResultReport.Fits ResultReport.received ∧
      Acknowledgement.format.Carries Acknowledgement.encode (fun _ => True) id ∧
      ∀ m : ResultReport, m.received =
        { m with result := if m.result = .negativeZero then .zero else m.result } :=
  ⟨sends_request.carries, sends_assignment.carries, sends_result.carries,
    sends_acknowledgement.carries, ResultReport.received_eq⟩

/-- One and a half arrives, for a task with a name of letters of two bytes. -/
theorem messages_arrive_oneAndAHalf :
    ResultReport.Fits ⟨"задача", .ofCode false 0x3ff8000000000000⟩ ∧
      ResultReport.format.decode
          (ResultReport.encode ⟨"задача", .ofCode false 0x3ff8000000000000⟩) =
        some ⟨"задача", .ofCode false 0x3ff8000000000000⟩ := by
  have hfits : ResultReport.Fits ⟨"задача", .ofCode false 0x3ff8000000000000⟩ := by
    simp [ResultReport.Fits, FitsMessage, length_textBytes, Char.utf8Size]
  obtain ⟨-, -, hresults, -, hreceived⟩ := messages_arrive
  refine ⟨hfits, (hresults.decode_encode _ hfits).trans ?_⟩
  rw [hreceived]
  decide

/-- A negative zero has no bytes, like the blank result, and is read back as zero. -/
theorem negative_zero_is_not_sent :
    ResultReport.encode ⟨"", .ofBits 0x8000000000000000⟩ = [] ∧
      ResultReport.encode ResultReport.format.blank = [] ∧
      (⟨"", .ofBits 0x8000000000000000⟩ : ResultReport) ≠ ResultReport.format.blank ∧
      ResultReport.format.decode (ResultReport.encode ⟨"", .ofBits 0x8000000000000000⟩) ≠
        some ⟨"", .ofBits 0x8000000000000000⟩ := by
  decide

end ArithService
