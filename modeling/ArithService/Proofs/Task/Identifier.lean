import Mathlib
import ArithService.Proofs.Text.Integers
import ArithService.Task.Identifier

/-!
# The order of task identifiers

Identifiers of 19 digits are ordered as their numbers, and every new number is greater than
the numbers before it.

## Main Definitions

* `IsTaskNumber` — a number of 19 digits that fits 64 bits

## Design Notes

A counter gives out the number that is due, or breaks off at the end of 64 bits. So what is said of
a number that was given out is said of the number that is due, and whether one is given out depends
on the last number only (`nextNumber_eq_some_iff`).
-/

namespace ArithService

/-- A number of 19 digits that fits 64 bits. -/
def IsTaskNumber (n : Int) : Prop := 10 ^ 18 ≤ n ∧ n < 2 ^ 63

instance (n : Int) : Decidable (IsTaskNumber n) := inferInstanceAs (Decidable (_ ∧ _))

/-! ### Texts -/

/-- An identifier is its stem and 19 digits. Numbers of other lengths are left out, and have to be:
their texts are in another order. -/
theorem toList_taskId {n : Int} (h : IsTaskNumber n) :
    (taskId n).toList = taskIdStem.toList ++ fixedDigits 19 n.toNat := by
  obtain ⟨k, rfl⟩ := Int.eq_ofNat_of_zero_le (show 0 ≤ n by have := h.1; omega)
  have hlow : 10 ^ (19 - 1) ≤ k := by have := h.1; norm_num at this ⊢; omega
  have hhigh : k < 10 ^ 19 := by have := h.2; norm_num at this ⊢; omega
  have htext : (toString (k : Int)).toList = Nat.toDigits 10 k := by
    show (Nat.repr k).toList = _
    exact Nat.toList_repr
  rw [taskId, String.toList_append, htext, toDigits_eq_fixedDigits (by decide) hhigh hlow]
  rfl

/-- **Identifiers are ordered as their numbers.** A table compares texts, and this is what makes it
compare times of creation. -/
theorem taskId_lt_iff {m n : Int} (hm : IsTaskNumber m) (hn : IsTaskNumber n) :
    taskId m < taskId n ↔ m < n := by
  have hmfits : m.toNat < 10 ^ 19 := by have := hm.2; norm_num at this ⊢; omega
  have hnfits : n.toNat < 10 ^ 19 := by have := hn.2; norm_num at this ⊢; omega
  have hlow := hm.1
  have hlow' := hn.1
  rw [String.lt_iff_toList_lt, toList_taskId hm, toList_taskId hn, append_lt_append_iff rfl,
    fixedDigits_lt_iff hmfits hnfits]
  simp only [List.lt_irrefl, true_and, false_or]
  omega

theorem isZeroFree_taskId (n : Int) : IsZeroFree (taskId n) := by
  have hstem : IsZeroFree taskIdStem := by simp [IsZeroFree, taskIdStem]
  exact hstem.append (isZeroFree_toString n)

theorem IsTaskNumber.isInt64 {n : Int} (h : IsTaskNumber n) : IsInt64 n := by
  have hlow := h.1
  exact ⟨by omega, h.2⟩

/-- **The number of an identifier is read back**, whatever number of 64 bits it is. -/
theorem taskNumber_taskId {n : Int} (h : IsInt64 n) : taskNumber (taskId n) = some n := by
  have htext : (taskId n).toList = taskIdStem.toList ++ (toString n).toList :=
    String.toList_append
  simp only [taskNumber, htext, List.take_left, List.drop_left, if_true, String.ofList_toList,
    readInt64_toString h, Except.toOption]

/-- Different numbers have different identifiers, also where they are of different lengths. -/
theorem taskId_inj {m n : Int} (hm : IsInt64 m) (hn : IsInt64 n) : taskId m = taskId n ↔ m = n := by
  constructor
  · intro h
    have hnumber := taskNumber_taskId hm
    rw [h, taskNumber_taskId hn] at hnumber
    exact (Option.some.inj hnumber).symm
  · rintro rfl
    rfl

/-- The number last given out is one of 64 bits, whatever text it is read from. -/
theorem isInt64_lastNumber (newest : Option String) : IsInt64 (lastNumber newest) := by
  have hzero : IsInt64 0 := by decide
  unfold lastNumber
  cases newest with
  | none => exact hzero
  | some id =>
    rw [Option.bind_some, taskNumber]
    split_ifs
    · cases hread : readInt64 (String.ofList (id.toList.drop taskIdStem.toList.length)) with
      | error e => exact hzero
      | ok n => exact isInt64_of_readInt64 hread
    · exact hzero

/-! ### The counter -/

/-- The clock is a number of 64 bits, also where its reading is out of range. -/
theorem isInt64_clockNumber (now : Instant) : IsInt64 (clockNumber now) := by
  unfold IsInt64 clockNumber
  dsimp only
  split_ifs <;> omega

/-- The number that is due is greater than the last one. It is this alone that makes identifiers
new; the clock only makes them tell the time. -/
theorem lt_numberDue (last : Int) (now : Instant) : last < numberDue last now := by
  have : last + 1 ≤ numberDue last now := le_max_right _ _
  omega

/-- **A counter gives out the number that is due**, unless it stands at the end of 64 bits. The
clock has no part in whether it does. -/
theorem nextNumber_eq_some_iff {last n : Int} {now : Instant} :
    nextNumber last now = some n ↔ last + 1 < 2 ^ 63 ∧ n = numberDue last now := by
  unfold nextNumber
  split_ifs with hfits
  · rw [Option.some_inj, eq_comm]
    exact ⟨fun h => ⟨by omega, h⟩, And.right⟩
  · simp only [false_iff, not_and]
    omega

/-- There is a next number as long as one more than the last has 64 bits, which is how callers know
of it. -/
theorem nextNumber_of_room {last : Int} (hroom : last + 1 < 2 ^ 63) (now : Instant) :
    nextNumber last now = some (numberDue last now) :=
  nextNumber_eq_some_iff.2 ⟨hroom, rfl⟩

/-- A counter breaks off at the end of 64 bits, and nowhere else. -/
theorem nextNumber_eq_none_iff {last : Int} {now : Instant} :
    nextNumber last now = none ↔ ¬ last + 1 < 2 ^ 63 := by
  rw [Option.eq_none_iff_forall_ne_some]
  constructor
  · intro hnone hroom
    exact hnone _ (nextNumber_of_room hroom now)
  · intro hend n hn
    exact hend (nextNumber_eq_some_iff.1 hn).1

/-- Where the number that is due is a task number, there is room for it in 64 bits. -/
theorem nextNumber_eq {last : Int} {now : Instant} (hdue : IsTaskNumber (numberDue last now)) :
    nextNumber last now = some (numberDue last now) := by
  have hlast := lt_numberDue last now
  have hhigh := hdue.2
  exact nextNumber_of_room (by omega) now

/-- What a counter gives out has 64 bits, wherever it started. -/
theorem isInt64_of_nextNumber {last n : Int} {now : Instant} (h : nextNumber last now = some n) :
    IsInt64 n := by
  obtain ⟨hfits, rfl⟩ := nextNumber_eq_some_iff.1 h
  have hclock := isInt64_clockNumber now
  unfold IsInt64 at hclock ⊢
  unfold numberDue
  omega

end ArithService
