import Mathlib
import ArithService.Proofs.Task.Identifier

/-!
# How long a counter lasts

A counter adds one to its last number at every call, in 64 bits. It may start anywhere in this
range, since the number it goes on from is read from a stored text, and the clock may move it
to the end of the range at once.

## Main Definitions

* `answersFrom` — what a counter answers at readings of the clock
* `answersAfter` — the same for a counter that goes on from the number in an identifier
* `LeavesRoom` — a start and readings behind which there is a number for every call to come

## Design Notes

A call is broken off only where the last number is the largest one, whatever the clock shows, and
the counter then stays where it is. So a counter gives out increasing numbers for some time and
nothing from then on, and `LeavesRoom` says of which calls it does not come to that. The induction
over the calls carries that the last number has 64 bits, as no other start can be recovered from a
text.
-/

namespace ArithService

/-- What a counter answers at readings of the clock, one after the other. A call that is broken off
leaves the counter where it was. -/
def answersFrom (last : Int) : List Instant → List (Option Int)
  | [] => []
  | now :: later => nextNumber last now :: answersFrom ((nextNumber last now).getD last) later

/-- What a counter answers that goes on from the number in an identifier. -/
def answersAfter (id : String) (clocks : List Instant) : List (Option Int) :=
  answersFrom (lastNumber (some id)) clocks

/-- From the start on, and from each reading on, there is a number for every call to come. -/
structure LeavesRoom (last : Int) (clocks : List Instant) : Prop where
  start : last + clocks.length < 2 ^ 63
  readings : ∀ now later, now :: later <:+ clocks → clockNumber now + later.length < 2 ^ 63

section Counter

variable {last : Int} {now : Instant} {clocks : List Instant}

/-! ### Room -/

theorem leavesRoom_nil (hlast : IsInt64 last) : LeavesRoom last [] where
  start := by simpa using hlast.2
  readings now later h := by simp at h

/-- A call uses up one number, and all numbers up to the reading of the clock. -/
theorem leavesRoom_cons : LeavesRoom last (now :: clocks) ↔
    last + 1 < 2 ^ 63 ∧ LeavesRoom (numberDue last now) clocks := by
  constructor
  · rintro ⟨hstart, hreadings⟩
    rw [List.length_cons] at hstart
    push_cast at hstart
    have hclock := hreadings now clocks List.suffix_rfl
    refine ⟨by omega, ?start, fun d later hlater => hreadings d later (hlater.trans ?suffix)⟩
    case start =>
      unfold numberDue
      omega
    case suffix => exact List.suffix_cons now clocks
  · rintro ⟨-, hstart, hreadings⟩
    unfold numberDue at hstart
    refine ⟨?start, fun d later hlater => ?reading⟩
    case start =>
      rw [List.length_cons]
      push_cast
      omega
    case reading =>
      rcases List.suffix_cons_iff.1 hlater with hsame | hrest
      · obtain ⟨rfl, rfl⟩ := List.cons.inj hsame
        omega
      · exact hreadings d later hrest

/-- There is room where neither the start nor a reading is nearer to the end of the range than there
are calls. -/
theorem leavesRoom_of_le {bound : Int} (hstart : last ≤ bound)
    (hclocks : ∀ now ∈ clocks, clockNumber now ≤ bound) (hroom : bound + clocks.length < 2 ^ 63) :
    LeavesRoom last clocks where
  start := by omega
  readings now later hlater := by
    have hclock := hclocks now (hlater.subset List.mem_cons_self)
    have hlength : later.length + 1 ≤ clocks.length := hlater.length_le
    omega

/-! ### Calls -/

/-- A counter at the end of its range never gives out a number again, as a call that is broken off
does not move it. -/
theorem answersFrom_of_end (hend : ¬ last + 1 < 2 ^ 63) (clocks : List Instant) :
    answersFrom last clocks = List.replicate clocks.length none := by
  induction clocks with
  | nil => rfl
  | cons now later ih =>
    rw [answersFrom, nextNumber_eq_none_iff.2 hend, Option.getD_none, ih, List.length_cons,
      List.replicate_succ]

/-- **A counter gives out increasing numbers, and then nothing**, and it does not come to that
exactly if there is room for all calls. -/
theorem exists_answersFrom (hlast : IsInt64 last) (clocks : List Instant) :
    ∃ numbers broken, answersFrom last clocks = numbers.map some ++ List.replicate broken none ∧
      (∀ n ∈ numbers, IsInt64 n) ∧ (last :: numbers).IsChain (· < ·) ∧
      (broken = 0 ↔ LeavesRoom last clocks) := by
  induction clocks generalizing last with
  | nil => exact ⟨[], 0, rfl, by simp, by simp, by simp [leavesRoom_nil hlast]⟩
  | cons now later ih =>
    cases hnext : nextNumber last now with
    | none =>
      have hend := nextNumber_eq_none_iff.1 hnext
      refine ⟨[], (now :: later).length, answersFrom_of_end hend _, by simp, by simp, ?_⟩
      rw [leavesRoom_cons]
      exact iff_of_false (Nat.succ_ne_zero _) fun hroom => hend hroom.1
    | some number =>
      obtain ⟨hfits, rfl⟩ := nextNumber_eq_some_iff.1 hnext
      have hnumber := isInt64_of_nextNumber hnext
      obtain ⟨numbers, broken, hanswers, hbits, hchain, hroom⟩ := ih hnumber
      refine ⟨numberDue last now :: numbers, broken, ?answers, ?bits, ?chain, ?room⟩
      case answers => rw [answersFrom, hnext, Option.getD_some, hanswers, List.map_cons,
        List.cons_append]
      case bits => exact List.forall_mem_cons.2 ⟨hnumber, hbits⟩
      case chain => exact List.isChain_cons_cons.2 ⟨lt_numberDue last now, hchain⟩
      case room => rw [hroom, leavesRoom_cons, and_iff_right hfits]

end Counter

/-- **How long a counter lasts.** A counter that goes on from any text gives out numbers of 64
bits at any readings of the clock, each greater than the start and all numbers before it, until a
sum leaves the range; that call and all calls behind it are broken off. No call is broken off exactly
if there is room for all of them. -/
theorem counter_increases_while_room (id : String) (clocks : List Instant) :
    ∃ numbers broken,
      answersAfter id clocks = numbers.map some ++ List.replicate broken none ∧
      (∀ n ∈ numbers, IsInt64 n) ∧
      (lastNumber (some id) :: numbers).Pairwise (· < ·) ∧
      (broken = 0 ↔ LeavesRoom (lastNumber (some id)) clocks) := by
  obtain ⟨numbers, broken, hanswers, hbits, hchain, hroom⟩ :=
    exists_answersFrom (isInt64_lastNumber (some id)) clocks
  exact ⟨numbers, broken, hanswers, hbits, List.isChain_iff_pairwise.1 hchain, hroom⟩

/-- Ten numbers before the end there is room for three calls, at a clock that stalls and steps back. -/
theorem counter_increases_while_room_future :
    LeavesRoom (lastNumber (some "task_9223372036854775797"))
        [⟨1780000000, 0⟩, ⟨1780000000, 0⟩, ⟨1770000000, 0⟩] ∧
      ∃ numbers, answersAfter "task_9223372036854775797"
          [⟨1780000000, 0⟩, ⟨1780000000, 0⟩, ⟨1770000000, 0⟩] = numbers.map some ∧
        (9223372036854775797 :: numbers).Pairwise (· < ·) := by
  have hroom : LeavesRoom (lastNumber (some "task_9223372036854775797"))
      [⟨1780000000, 0⟩, ⟨1780000000, 0⟩, ⟨1770000000, 0⟩] :=
    leavesRoom_of_le (show _ ≤ (9223372036854775797 : Int) by decide +kernel)
      (by decide +kernel) (by decide +kernel)
  obtain ⟨numbers, broken, hanswers, -, horder, hwhole⟩ :=
    counter_increases_while_room "task_9223372036854775797"
      [⟨1780000000, 0⟩, ⟨1780000000, 0⟩, ⟨1770000000, 0⟩]
  have hstart : lastNumber (some "task_9223372036854775797") = 9223372036854775797 := by
    decide +kernel
  obtain rfl := hwhole.2 hroom
  rw [hstart] at horder
  exact ⟨hroom, numbers, by simpa using hanswers, horder⟩

/-- A counter that goes on from the largest number but one has room for one call, and a counter
whose clock is past the range has room for two. The next call is broken off, since its sum leaves
the range, although the clock shows a smaller number. -/
theorem counter_runs_out :
    answersAfter "task_9223372036854775806" [⟨1780000000, 0⟩, ⟨1780000000, 0⟩] =
        [some 9223372036854775807, none] ∧
      answersAfter "" [⟨9300000000, 0⟩, ⟨9300000000, 0⟩, ⟨9300000000, 0⟩] =
        [some 9223372036854775806, some 9223372036854775807, none] := by
  decide +kernel

end ArithService
