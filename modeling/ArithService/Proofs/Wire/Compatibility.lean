import Mathlib
import ArithService.Proofs.Wire.Boundary
import ArithService.Proofs.Wire.RoundTrip

/-!
# Messages can be extended

What is appended to a message only replaces the fields that occur in it, and what a reader does
not know it skips. So fields can be added to a type of messages without changing what older
readers find in them.

## Main Definitions

* `occursIn` — whether bytes have a field with a number outside of groups
* `Skippable` — fields that are not declared, and well-formed groups
* `MessageFormat.restrict` — a reader that declares only some of the fields
* `MessageFormat.IsCompatible` — how a type of messages can be extended
* `MessageFormat.StoresApart` — a format whose fields are independent of each other

## Design Notes

Bytes are read as fields before they have a meaning, so everything is shown about sequences of
fields and carried over by `readFields_append`. The state of a reader is the groups that are open
and the message so far. Two readers with the same open groups stay together: their messages differ
in the fields that have not come yet (`StoresApart.foldlM_merge`), or in those that only one of
them declares (`StoresApart.foldlM_restrict`).

A message with some of its fields taken from another one is written `replace p new m`, where `p`
says which numbers are taken.
-/

namespace ArithService

/-! ### Fields outside of groups -/

/-- Whether a payload opens or closes a group. -/
def Payload.isMarker : Payload → Bool
  | .groupStart => true
  | .groupEnd => true
  | _ => false

/-- How many groups are open behind a payload. -/
def Payload.depthAfter (depth : Nat) : Payload → Nat
  | .groupStart => depth + 1
  | .groupEnd => depth - 1
  | _ => depth

theorem Payload.depthAfter_of_not_isMarker {p : Payload} (h : p.isMarker = false) (depth : Nat) :
    p.depthAfter depth = depth := by
  cases p <;> first | rfl | simp [isMarker] at h

/-- How many groups are open behind a sequence of fields. -/
def openGroups (fields : List Field) : Nat :=
  fields.foldl (fun depth f => f.payload.depthAfter depth) 0

/-- The numbers of the fields outside of groups, where `depth` groups are open before them. -/
def outerNumbers : Nat → List Field → List Nat
  | _, [] => []
  | depth, f :: rest =>
    let numbers := outerNumbers (f.payload.depthAfter depth) rest
    if depth = 0 ∧ f.payload.isMarker = false then f.number :: numbers else numbers

/-- Whether bytes have a field with a number outside of groups. -/
def occursIn (bs : Bytes) (number : Nat) : Bool :=
  match readFields bs with
  | some fields => (outerNumbers 0 fields).contains number
  | none => false

/-- Sequences of fields that are skipped where `room` more groups may be open: fields that are not
declared, and groups of anything under numbers that are not declared. -/
inductive Skippable : (declared : Nat → Bool) → (room : Nat) → List Field → Prop
  | nil {declared : Nat → Bool} {room : Nat} : Skippable declared room []
  | field {declared : Nat → Bool} {room : Nat} {f : Field} {rest : List Field}
      (hmarker : f.payload.isMarker = false) (hnumber : declared f.number = false)
      (hrest : Skippable declared (room + 1) rest) : Skippable declared (room + 1) (f :: rest)
  | group {declared : Nat → Bool} {room number : Nat} {content rest : List Field}
      (hnumber : declared number = false) (hcontent : Skippable (fun _ => false) room content)
      (hrest : Skippable declared (room + 1) rest) :
      Skippable declared (room + 1)
        (⟨number, .groupStart⟩ :: (content ++ ⟨number, .groupEnd⟩ :: rest))

namespace MessageFormat

variable {Message : Type}

/-! ### Extending messages -/

/-- Whether a number is declared. -/
def declares (format : MessageFormat Message) (number : Nat) : Bool := (format.store? number).isSome

/-- A reader that declares only some of the fields. -/
def restrict (format : MessageFormat Message) (keep : Nat → Bool) : MessageFormat Message where
  blank := format.blank
  store? number := if keep number then format.store? number else none

/-- How a type of messages can be extended. -/
structure IsCompatible (format : MessageFormat Message) (encode : Message → Bytes)
    (Fits : Message → Prop) (received : Message → Message)
    (replace : (Nat → Bool) → Message → Message → Message) : Prop where
  /-- Behind a message, bytes are a message exactly if they are one alone, and then the fields that
  occur in them replace the earlier ones. -/
  append : ∀ a b m, format.decode a = some m →
    format.decode (a ++ b) = (format.decode b).map fun new => replace (occursIn b) new m
  /-- Between any two fields, what is not declared and groups can be inserted, as deep as groups
  may be nested; in an open group nothing is declared. -/
  insert : ∀ a u b before inserted, readFields a = some before → readFields u = some inserted →
    Skippable (fun number => openGroups before = 0 && format.declares number)
      (groupLimit - openGroups before) inserted →
    format.decode (a ++ u ++ b) = format.decode (a ++ b)
  /-- A reader of some of the fields finds these as they are, and the others as in the blank
  message. -/
  restrict : ∀ keep bs m, format.decode bs = some m →
    (format.restrict keep).decode bs = some (replace keep m format.blank)
  /-- So it does in every message that was sent. -/
  restrict_encode : ∀ keep m, Fits m →
    (format.restrict keep).decode (encode m) = some (replace keep (received m) format.blank)

/-- A format whose fields are independent of each other, where `replace` takes some of them from
another message. -/
structure StoresApart (format : MessageFormat Message)
    (replace : (Nat → Bool) → Message → Message → Message) : Prop where
  /-- A field is stored in the same way whatever the other fields are. -/
  store_eq : ∀ {number store}, format.store? number = some store → ∀ p m,
    store p m = (store p format.blank).map fun new => replace (· == number) new m
  /-- No declared field is a group. -/
  store_marker : ∀ {number store}, format.store? number = some store → ∀ {p : Payload},
    p.isMarker = true → store p format.blank = none
  replace_none : ∀ new m, replace (fun _ => false) new m = m
  replace_self : ∀ p m, replace p m m = m
  /-- Only declared numbers count. -/
  replace_congr : ∀ {p q : Nat → Bool}, (∀ number, format.declares number = true →
    p number = q number) → ∀ new m, replace p new m = replace q new m
  replace_replace : ∀ p q newer new m, replace q newer (replace p new m) =
    replace (fun number => p number || q number) (replace q newer new) m
  replace_disjoint : ∀ {p q : Nat → Bool}, (∀ number, q number = true → p number = false) →
    ∀ newer new m, replace p (replace q newer new) m = replace p new m

/-! ### Single fields -/

variable {format : MessageFormat Message} {open_ outer : List Nat} {m : Message} {f : Field}
  {fields rest : List Field}

theorem merge_declared {store : Payload → Message → Option Message}
    (hstore : format.store? f.number = some store) :
    format.merge ([], m) f = (store f.payload m).map fun m => ([], m) := by
  simp [merge, hstore]

/-- A field that is not declared is skipped, and so is every field in a group. The message stays as
it is. -/
theorem merge_skipped (h : open_ = [] → format.store? f.number = none) :
    format.merge (open_, m) f = (skip open_ f).map fun outer => (outer, m) := by
  cases open_ with
  | nil => simp [merge, h rfl]
  | cons number open_ => rfl

/-- A field is stored or skipped: stored if it is declared and no group is open. Every induction
over fields splits here. -/
theorem declared_or_skipped (format : MessageFormat Message) (open_ : List Nat) (f : Field) :
    (open_ = [] ∧ ∃ store, format.store? f.number = some store) ∨
      (open_ = [] → format.store? f.number = none) := by
  cases hstore : format.store? f.number with
  | none => exact .inr fun _ => rfl
  | some store =>
    by_cases hopen : open_ = []
    · exact .inl ⟨hopen, store, rfl⟩
    · exact .inr fun h => absurd h hopen

/-- Skipping a field opens or closes the group that it is a marker of. Which group it is matters for
refusals alone, and how many are open is all that two readers have to agree on. -/
theorem length_of_skip (h : skip open_ f = some outer) :
    outer.length = f.payload.depthAfter open_.length := by
  obtain ⟨number, payload⟩ := f
  cases payload with
  | groupEnd =>
    cases open_ with
    | nil => simp [skip] at h
    | cons last open_ =>
      simp only [skip] at h
      split_ifs at h
      obtain rfl := Option.some.inj h
      simp [Payload.depthAfter]
  | groupStart =>
    simp only [skip] at h
    split_ifs at h
    obtain rfl := Option.some.inj h
    simp [Payload.depthAfter]
  | varint _ | fixed64 _ | bytes _ | fixed32 _ =>
    simp only [skip] at h
    split_ifs at h
    obtain rfl := Option.some.inj h
    rfl

theorem skip_field (hmarker : f.payload.isMarker = false) (hroom : open_.length < groupLimit) :
    skip open_ f = some open_ := by
  obtain ⟨number, payload⟩ := f
  cases payload <;> first | exact if_pos hroom | simp [Payload.isMarker] at hmarker

/-- What is decoded is a sequence of fields with all groups closed. This carries statements about
fields over to bytes. -/
theorem decode_eq_some_iff {bs : Bytes} :
    format.decode bs = some m ↔ ∃ fields, readFields bs = some fields ∧
      fields.foldlM format.merge ([], format.blank) = some ([], m) := by
  rw [decode]
  cases readFields bs with
  | none => simp
  | some fields =>
    simp only [ofFields, Option.some.injEq, exists_eq_left']
    cases fields.foldlM format.merge ([], format.blank) with
    | none => simp
    | some state =>
      obtain ⟨open_, n⟩ := state
      cases open_ <;> simp

/-! ### Skipping -/

/-- **What is skippable is skipped**, and leaves the state of a reader as it was. The induction is
on how the sequence is built, and has to be for all that follows, since a group is read up to its
end before the rest is. -/
theorem foldlM_merge_skippable {declared : Nat → Bool} {room : Nat} {inserted : List Field}
    (h : Skippable declared room inserted) (hroom : room ≤ groupLimit - open_.length)
    (hdeclared : open_ = [] → ∀ number, declared number = false → format.store? number = none) :
    (inserted ++ rest).foldlM format.merge (open_, m) = rest.foldlM format.merge (open_, m) := by
  induction h generalizing open_ rest with
  | nil => rfl
  | field hmarker hnumber _ ih =>
    rw [List.cons_append, List.foldlM_cons,
      merge_skipped fun hopen => hdeclared hopen _ hnumber,
      skip_field hmarker (by omega)]
    exact ih hroom hdeclared
  | @group _ _ number content others hnumber _ _ ihContent ihRest =>
    have hstart : skip open_ ⟨number, .groupStart⟩ = some (number :: open_) := by
      simp only [skip]
      rw [if_pos (by omega)]
    have hend : skip (number :: open_) ⟨number, .groupEnd⟩ = some open_ := by simp [skip]
    rw [List.cons_append, List.append_assoc, List.cons_append, List.foldlM_cons,
      merge_skipped fun hopen => hdeclared hopen _ hnumber, hstart]
    show (content ++ ⟨number, .groupEnd⟩ :: (others ++ rest)).foldlM format.merge
      (number :: open_, m) = _
    rw [ihContent (by simp only [List.length_cons]; omega) (by simp), List.foldlM_cons,
      merge_skipped (by simp), hend]
    exact ihRest hroom hdeclared

namespace StoresApart

variable {replace : (Nat → Bool) → Message → Message → Message} {m' : Message}
  (h : format.StoresApart replace)

include h

/-- Storing a declared field, seen from the blank message. So what is stored can be compared between
messages. -/
theorem merge_eq {store : Payload → Message → Option Message}
    (hstore : format.store? f.number = some store) (m : Message) :
    format.merge ([], m) f =
      (store f.payload format.blank).map fun new => ([], replace (· == f.number) new m) := by
  rw [merge_declared hstore, h.store_eq hstore, Option.map_map]
  rfl

theorem isMarker_eq_false {store : Payload → Message → Option Message} {new : Message}
    (hstore : format.store? f.number = some store)
    (hnew : store f.payload format.blank = some new) : f.payload.isMarker = false := by
  by_contra hmarker
  rw [h.store_marker hstore (by simpa using hmarker)] at hnew
  exact Option.some_ne_none _ hnew.symm

/-- The groups that a reader has open are those that the fields leave open. -/
theorem length_of_merge (hmerge : format.merge (open_, m) f = some (outer, m')) :
    outer.length = f.payload.depthAfter open_.length := by
  rcases declared_or_skipped format open_ f with ⟨rfl, store, hstore⟩ | hskipped
  · rw [h.merge_eq hstore] at hmerge
    obtain ⟨new, hnew, hstate⟩ := Option.map_eq_some_iff.1 hmerge
    rw [Payload.depthAfter_of_not_isMarker (h.isMarker_eq_false hstore hnew),
      ← (Prod.mk.inj hstate).1]
  · rw [merge_skipped hskipped] at hmerge
    obtain ⟨outer', hskip, hstate⟩ := Option.map_eq_some_iff.1 hmerge
    rw [← (Prod.mk.inj hstate).1]
    exact length_of_skip hskip

/-- So are they after a sequence of fields, which lets `outerNumbers` count groups without a
reader. -/
theorem length_of_foldlM_merge
    (hfold : fields.foldlM format.merge (open_, m) = some (outer, m')) :
    outer.length = fields.foldl (fun depth f => f.payload.depthAfter depth) open_.length := by
  induction fields generalizing open_ m with
  | nil =>
    obtain ⟨rfl, -⟩ := Prod.mk.inj (Option.some.inj hfold)
    rfl
  | cons f fields ih =>
    rw [List.foldlM_cons] at hfold
    obtain ⟨⟨next, n⟩, hmerge, hrest⟩ := Option.bind_eq_some_iff.1 hfold
    rw [ih hrest, h.length_of_merge hmerge, List.foldl_cons]

/-! ### Appending -/

/-- **Readers that start from different messages stay together**: the message in which fields were
replaced goes on with the later ones replaced as well. -/
theorem foldlM_merge (fields : List Field) (open_ : List Nat) (p : Nat → Bool) (new m : Message) :
    fields.foldlM format.merge (open_, replace p new m) =
      (fields.foldlM format.merge (open_, new)).map fun state =>
        (state.1, replace (fun number => p number ||
          (outerNumbers open_.length fields).contains number) state.2 m) := by
  induction fields generalizing open_ p new with
  | nil => simp [outerNumbers]
  | cons f fields ih =>
    rw [List.foldlM_cons, List.foldlM_cons]
    rcases declared_or_skipped format open_ f with ⟨rfl, store, hstore⟩ | hskipped
    · rw [h.merge_eq hstore, h.merge_eq hstore]
      cases hnew : store f.payload format.blank with
      | none => rfl
      | some newer =>
        have hmarker := h.isMarker_eq_false hstore hnew
        show fields.foldlM format.merge ([], replace _ newer (replace p new m)) =
          (fields.foldlM format.merge ([], replace _ newer new)).map _
        rw [h.replace_replace, ih]
        simp only [outerNumbers, List.length_nil, hmarker, and_self, if_true,
          Payload.depthAfter_of_not_isMarker hmarker, List.contains_cons, Bool.or_assoc]
    · rw [merge_skipped hskipped, merge_skipped hskipped]
      cases hskip : skip open_ f with
      | none => rfl
      | some outer =>
        show fields.foldlM format.merge (outer, replace p new m) =
          (fields.foldlM format.merge (outer, new)).map _
        rw [ih]
        congr 1
        funext state
        -- The number of a field that is skipped counts only where it is not declared.
        rw [h.replace_congr fun number hdeclared => ?_]
        rw [length_of_skip hskip, outerNumbers]
        split_ifs with houter
        · have hnumber : number ≠ f.number := by
            rintro rfl
            have hopen : open_ = [] := List.eq_nil_of_length_eq_zero houter.1
            simp [declares, hskipped hopen] at hdeclared
          simp [hnumber]
        · rfl

/-- Bytes behind a message are read as a message of their own, whose fields take the place of the
earlier ones. -/
theorem decode_append {a : Bytes} (ha : format.decode a = some m) (b : Bytes) :
    format.decode (a ++ b) = (format.decode b).map fun new => replace (occursIn b) new m := by
  obtain ⟨before, hbefore, hfold⟩ := decode_eq_some_iff.1 ha
  rw [decode, readFields_append hbefore, decode]
  cases hbehind : readFields b with
  | none => rfl
  | some behind =>
    have hsplit := h.foldlM_merge behind [] (fun _ => false) format.blank m
    rw [h.replace_none] at hsplit
    simp only [Option.map_some, ofFields, List.foldlM_append, hfold, Option.bind_eq_bind,
      Option.bind_some, hsplit]
    cases behind.foldlM format.merge ([], format.blank) with
    | none => rfl
    | some state =>
      obtain ⟨open_, new⟩ := state
      have hoccurs : occursIn b = fun number => (outerNumbers 0 behind).contains number := by
        funext number
        rw [occursIn, hbehind]
      cases open_ with
      | nil => simp [hoccurs]
      | cons number open_ => rfl

/-! ### Inserting -/

/-- What is skippable between two fields makes no difference, since the reader is in the same state
behind it. -/
theorem decode_insert {a u : Bytes} {before inserted : List Field}
    (hbefore : readFields a = some before) (hinserted : readFields u = some inserted)
    (hskippable : Skippable (fun number => openGroups before = 0 && format.declares number)
      (groupLimit - openGroups before) inserted) (b : Bytes) :
    format.decode (a ++ u ++ b) = format.decode (a ++ b) := by
  have htogether : readFields (a ++ u) = some (before ++ inserted) := by
    rw [readFields_append hbefore, hinserted, Option.map_some]
  rw [decode, decode, readFields_append htogether, readFields_append hbefore]
  cases readFields b with
  | none => rfl
  | some behind =>
    have hfold : (before ++ inserted ++ behind).foldlM format.merge ([], format.blank) =
        (before ++ behind).foldlM format.merge ([], format.blank) := by
      rw [List.append_assoc, List.foldlM_append, List.foldlM_append]
      cases hstate : before.foldlM format.merge ([], format.blank) with
      | none => rfl
      | some state =>
        have hdepth : state.1.length = openGroups before := h.length_of_foldlM_merge hstate
        refine foldlM_merge_skippable hskippable (by rw [hdepth]) fun hopen number hnumber => ?_
        rw [hopen] at hdepth
        simpa [← hdepth, declares] using hnumber
    simp only [Option.map_some, ofFields, hfold]

/-! ### Declaring less -/

/-- **A reader of some of the fields stays together** with one of all fields. -/
theorem foldlM_restrict (keep : Nat → Bool)
    (hfold : fields.foldlM format.merge (open_, m) = some (outer, m')) :
    fields.foldlM (format.restrict keep).merge (open_, replace keep m format.blank) =
      some (outer, replace keep m' format.blank) := by
  induction fields generalizing open_ m with
  | nil =>
    obtain ⟨rfl, rfl⟩ := Prod.mk.inj (Option.some.inj hfold)
    rfl
  | cons f fields ih =>
    rw [List.foldlM_cons] at hfold ⊢
    obtain ⟨⟨next, n⟩, hmerge, hrest⟩ := Option.bind_eq_some_iff.1 hfold
    suffices hstep : (format.restrict keep).merge (open_, replace keep m format.blank) f =
        some (next, replace keep n format.blank) by
      rw [hstep]
      exact ih hrest
    rcases declared_or_skipped format open_ f with ⟨rfl, store, hstore⟩ | hskipped
    · rw [h.merge_eq hstore] at hmerge
      obtain ⟨newer, hnewer, hstate⟩ := Option.map_eq_some_iff.1 hmerge
      obtain ⟨rfl, rfl⟩ := Prod.mk.inj hstate
      cases hkeep : keep f.number with
      | true =>
        -- Both readers store the field.
        have hstored : (format.restrict keep).store? f.number = some store := by
          simp [restrict, hkeep, hstore]
        rw [merge_declared hstored, h.store_eq hstore, hnewer, Option.map_some, Option.map_some,
          h.replace_replace, h.replace_congr fun number _ => ?_]
        by_cases hnumber : number = f.number <;> simp [hnumber, hkeep]
      | false =>
        -- Only one of them does, and what it stores is not taken from it.
        rw [merge_skipped fun _ => by simp [restrict, hkeep],
          skip_field (h.isMarker_eq_false hstore hnewer) (by decide), Option.map_some,
          h.replace_disjoint fun number hnumber => ?_]
        rw [beq_iff_eq.1 hnumber, hkeep]
    · rw [merge_skipped hskipped] at hmerge
      obtain ⟨outer', hskip, hstate⟩ := Option.map_eq_some_iff.1 hmerge
      obtain ⟨rfl, rfl⟩ := Prod.mk.inj hstate
      rw [merge_skipped fun hopen => by simp [restrict, hskipped hopen], hskip, Option.map_some]

theorem decode_restrict {bs : Bytes} (hdecode : format.decode bs = some m)
    (keep : Nat → Bool) :
    (format.restrict keep).decode bs = some (replace keep m format.blank) := by
  obtain ⟨fields, hfields, hfold⟩ := decode_eq_some_iff.1 hdecode
  have hrestricted := h.foldlM_restrict keep hfold
  rw [h.replace_self] at hrestricted
  exact decode_eq_some_iff.2 ⟨fields, hfields, hrestricted⟩

/-- **Independent fields can be extended.** All four types of messages are instances, with nothing
but their fields to look at. -/
theorem isCompatible {encode : Message → Bytes} {Fits : Message → Prop}
    {received : Message → Message} (hcarries : format.Carries encode Fits received) :
    format.IsCompatible encode Fits received replace where
  append _ b _ ha := h.decode_append ha b
  insert _ _ b _ _ hbefore hinserted hskippable := h.decode_insert hbefore hinserted hskippable b
  restrict keep _ _ hdecode := h.decode_restrict hdecode keep
  restrict_encode keep m hfits := h.decode_restrict (hcarries.decode_encode m hfits) keep

end StoresApart

end MessageFormat

/-! ### The messages -/

/-- Task requests have no fields to be taken from another one. -/
def AssignmentRequest.replace (_ : Nat → Bool) (_ m : AssignmentRequest) : AssignmentRequest := m

/-- An assignment with some texts taken from another one. -/
def Assignment.replace (p : Nat → Bool) (new m : Assignment) : Assignment where
  id := if p 1 then new.id else m.id
  arg1 := if p 2 then new.arg1 else m.arg1
  arg2 := if p 3 then new.arg2 else m.arg2
  operation := if p 4 then new.operation else m.operation
  expression := if p 5 then new.expression else m.expression

/-- A result with some fields taken from another one. -/
def ResultReport.replace (p : Nat → Bool) (new m : ResultReport) : ResultReport where
  id := if p 1 then new.id else m.id
  result := if p 2 then new.result else m.result

/-- An acknowledgement with some fields taken from another one. -/
def Acknowledgement.replace (p : Nat → Bool) (new m : Acknowledgement) : Acknowledgement where
  success := if p 1 then new.success else m.success

theorem AssignmentRequest.storesApart : format.StoresApart replace where
  store_eq h := by simp [format] at h
  store_marker h := by simp [format] at h
  replace_none _ _ := rfl
  replace_self _ _ := rfl
  replace_congr _ _ _ := rfl
  replace_replace _ _ _ _ _ := rfl
  replace_disjoint _ _ _ _ := rfl

/-- What reads neither marker of a group reads no marker. Every declared type is read so, as none of
them is a group. -/
theorem Payload.eq_none_of_isMarker {α : Type} (read : Payload → Option α)
    (hstart : read .groupStart = none) (hend : read .groupEnd = none) {p : Payload}
    (h : p.isMarker = true) : read p = none := by
  cases p with
  | groupStart => exact hstart
  | groupEnd => exact hend
  | _ => cases h

/-- Taking a field twice is taking it once, from the later message if it is there. One field of any
type suffices, as every field is replaced in the same way. -/
theorem ite_replace_replace {α : Type} (p q : Bool) (newer new old : α) :
    (if q then newer else if p then new else old) =
      if p || q then (if q then newer else new) else old := by
  cases p <;> cases q <;> rfl

/-- What was put into a field does not count where another one is taken. -/
theorem ite_replace_disjoint {α : Type} {p q : Bool} (h : q = true → p = false)
    (newer new old : α) :
    (if p then (if q then newer else new) else old) = if p then new else old := by
  cases q with
  | false => rfl
  | true => rw [h rfl]; rfl

theorem Assignment.storesApart : format.StoresApart replace where
  store_eq h p m := by
    simp only [format] at h
    split at h <;> cases h <;> rw [Option.map_map] <;> rfl
  store_marker h _ hmarker := by
    simp only [format] at h
    split at h <;> cases h <;> simp [Payload.eq_none_of_isMarker Payload.text? rfl rfl hmarker]
  replace_none _ _ := rfl
  replace_self _ _ := by simp [replace]
  replace_congr h _ _ := by
    simp only [replace, h 1 rfl, h 2 rfl, h 3 rfl, h 4 rfl, h 5 rfl]
  replace_replace p q newer new m := by
    simp only [replace, mk.injEq]
    refine ⟨?_, ?_, ?_, ?_, ?_⟩ <;> exact ite_replace_replace _ _ _ _ _
  replace_disjoint h newer new m := by
    simp only [replace, mk.injEq]
    refine ⟨?_, ?_, ?_, ?_, ?_⟩ <;> exact ite_replace_disjoint (h _) _ _ _

/-- So are the identifier and the number of a result, which are of different types on the wire. -/
theorem ResultReport.storesApart : format.StoresApart replace where
  store_eq h p m := by
    simp only [format] at h
    split at h <;> cases h <;> rw [Option.map_map] <;> rfl
  store_marker h _ hmarker := by
    simp only [format] at h
    split at h <;> cases h
    · simp [Payload.eq_none_of_isMarker Payload.text? rfl rfl hmarker]
    · simp [Payload.eq_none_of_isMarker Payload.double? rfl rfl hmarker]
  replace_none _ _ := rfl
  replace_self _ _ := by simp [replace]
  replace_congr h _ _ := by simp only [replace, h 1 rfl, h 2 rfl]
  replace_replace p q newer new m := by
    simp only [replace, mk.injEq]
    refine ⟨?_, ?_⟩ <;> exact ite_replace_replace _ _ _ _ _
  replace_disjoint h newer new m := by
    simp only [replace, mk.injEq]
    refine ⟨?_, ?_⟩ <;> exact ite_replace_disjoint (h _) _ _ _

theorem Acknowledgement.storesApart : format.StoresApart replace where
  store_eq h p m := by
    simp only [format] at h
    split at h <;> cases h
    rw [Option.map_map]
    rfl
  store_marker h _ hmarker := by
    simp only [format] at h
    split at h <;> cases h
    simp [Payload.eq_none_of_isMarker Payload.bool? rfl rfl hmarker]
  replace_none _ _ := rfl
  replace_self _ _ := by simp [replace]
  replace_congr h _ _ := by simp only [replace, h 1 rfl]
  replace_replace p q newer new m := by
    simp only [replace, mk.injEq]
    exact ite_replace_replace _ _ _ _ _
  replace_disjoint h newer new m := by
    simp only [replace, mk.injEq]
    exact ite_replace_disjoint (h _) _ _ _

/-- **All types of messages can be extended.** What is appended to a message is read as if it stood
alone and replaces the fields that occur in it; fields that are not declared and groups can be
inserted between any two fields; and a reader that declares only some of the fields finds these as
they are. -/
theorem messages_are_compatible :
    AssignmentRequest.format.IsCompatible AssignmentRequest.encode (fun _ => True) id
        AssignmentRequest.replace ∧
      Assignment.format.IsCompatible Assignment.encode Assignment.Fits id Assignment.replace ∧
      ResultReport.format.IsCompatible ResultReport.encode ResultReport.Fits ResultReport.received
        ResultReport.replace ∧
      Acknowledgement.format.IsCompatible Acknowledgement.encode (fun _ => True) id
        Acknowledgement.replace :=
  ⟨AssignmentRequest.storesApart.isCompatible sends_request.carries,
    Assignment.storesApart.isCompatible sends_assignment.carries,
    ResultReport.storesApart.isCompatible sends_result.carries,
    Acknowledgement.storesApart.isCompatible sends_acknowledgement.carries⟩

/-- An assignment of a whole expression. -/
def wholeAssignment : Assignment := { id := "task_1", expression := "1+2*3" }

/-- A reader that does not know of whole expressions finds the rest of an assignment. A group that
nobody knows changes nothing, and an empty text behind it takes the place of the earlier one. -/
theorem messages_are_compatible_olderReader :
    wholeAssignment.Fits ∧
      (Assignment.format.restrict (· != 5)).decode wholeAssignment.encode =
        some { id := "task_1" } ∧
      readFields [0x3b, 0x0a, 0x00, 0x3c] =
        some [⟨7, .groupStart⟩, ⟨1, .bytes []⟩, ⟨7, .groupEnd⟩] ∧
      Assignment.format.decode
          (wholeAssignment.encode ++ [0x3b, 0x0a, 0x00, 0x3c] ++ [0x0a, 0x00]) =
        some { wholeAssignment with id := "" } := by
  have hassignments := messages_are_compatible.2.1
  have hfits : wholeAssignment.Fits := by
    refine ⟨?_, ?_, ?_, ?_, ?_⟩ <;>
      simp [wholeAssignment, FitsMessage, length_textBytes, Char.utf8Size]
  have hgroup : readFields [0x3b, 0x0a, 0x00, 0x3c] =
      some [⟨7, .groupStart⟩, ⟨1, .bytes []⟩, ⟨7, .groupEnd⟩] := by decide
  have hskippable : Skippable (fun number => openGroups wholeAssignment.fields = 0 &&
      Assignment.format.declares number) (groupLimit - openGroups wholeAssignment.fields)
      [⟨7, .groupStart⟩, ⟨1, .bytes []⟩, ⟨7, .groupEnd⟩] :=
    @Skippable.group _ _ _ [⟨1, .bytes []⟩] [] rfl (.field rfl rfl .nil) .nil
  have hfields : readFields wholeAssignment.encode = some wholeAssignment.fields := by
    rw [Assignment.encode_eq, readFields_encode (Assignment.fits_fields hfits)]
  refine ⟨hfits, hassignments.restrict_encode _ _ hfits, hgroup, ?_⟩
  rw [hassignments.insert _ _ _ _ _ hfields hgroup hskippable,
    hassignments.append _ _ _ (Assignment.decode_encode hfits)]
  decide

end ArithService
