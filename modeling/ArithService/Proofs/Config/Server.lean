import Mathlib
import ArithService.Config.Server

/-!
# Settings within bounds

Whatever the variables are, the settings that are read from them are within their bounds, and a
refusal names the variable that is wrong.

## Main Definitions

* `Meets` — what holds of a result, and what holds of an error
* `Span.IsUpTo` — a whole number of seconds, from one on
* `ServerSettings.IsBounded` — settings within their bounds
* `SettingError.IsDefect` — an error that a wrong value of a variable can cause

## Design Notes

Each way to read a setting has one lemma, about results and errors at once. The lemmas are joined
by `Meets.bind`, in the order in which the settings are read.
-/

namespace ArithService

/-! ### Results and errors -/

/-- What holds of a result, and what holds of an error. -/
def Meets {ε α : Type} (result : α → Prop) (error : ε → Prop) : Except ε α → Prop
  | .ok a => result a
  | .error e => error e

section Meets

variable {ε α β : Type} {P : α → Prop} {Q : β → Prop} {E : ε → Prop} {x : Except ε α}

/-- What holds of two steps holds of one after the other: settings are read by steps, any of which
may refuse. -/
theorem Meets.bind {f : α → Except ε β} (hx : Meets P E x) (hf : ∀ a, P a → Meets Q E (f a)) :
    Meets Q E (x >>= f) := by
  cases x with
  | ok a => exact hf a hx
  | error e => exact hx

theorem Meets.of_eq_ok {a : α} (h : Meets P E x) (hx : x = .ok a) : P a := by
  rwa [hx] at h

theorem Meets.of_eq_error {e : ε} (h : Meets P E x) (hx : x = .error e) : E e := by
  rwa [hx] at h

end Meets

/-! ### Single settings -/

/-- A whole number of seconds, at least one and at most `most`. -/
def Span.IsUpTo (most : Nat) (d : Span) : Prop :=
  ∃ k : Int, 1 ≤ k ∧ k ≤ most ∧ d = .ofSeconds k

theorem Span.IsUpTo.mono {d : Span} {few many : Nat} (h : d.IsUpTo few) (hle : few ≤ many) :
    d.IsUpTo many := by
  obtain ⟨k, hlow, hhigh, rfl⟩ := h
  exact ⟨k, hlow, hhigh.trans (by exact_mod_cast hle), rfl⟩

/-- An error that a wrong value of one of the given variables can cause. -/
structure SettingError.IsDefect (keys : List String) (e : SettingError) : Prop where
  key : e.key ∈ keys
  fault : e.fault ≠ .outOfRange

section Settings

variable {keys : List String} {key : String} (hkey : key ∈ keys)

include hkey

theorem meets_readListenAddress (resolve : Resolver) (vars : Variables) (default : SocketAddress) :
    Meets (fun _ => True) (SettingError.IsDefect keys)
      (readListenAddress resolve vars key default) := by
  unfold readListenAddress
  split
  · trivial
  · split
    · trivial
    · exact ⟨hkey, by simp⟩

/-- A number that cannot be read is blamed on its variable, with what is wrong about its text. -/
theorem meets_readNumber (reader : String → Except IntegerError Int) (vars : Variables)
    (default : Int) :
    Meets (fun _ => True) (SettingError.IsDefect keys) (readNumber reader vars key default) := by
  unfold readNumber
  split
  · trivial
  · split
    · trivial
    · exact ⟨hkey, by simp⟩

/-- A number that passes the check of its bounds is within them. -/
theorem meets_checkBounds (low high : Nat) (n : Int) :
    Meets (fun _ => low ≤ n ∧ n ≤ high) (SettingError.IsDefect keys)
      (checkBounds key low high n) := by
  unfold checkBounds
  split_ifs with hbounds
  · exact hbounds
  · exact ⟨hkey, by simp⟩

/-- **A bounded number of units is always a span of time**: the bounds are narrower than what a span
can hold. So the one refusal that no variable could explain never comes up. -/
theorem meets_boundedSpan {seconds high : Nat} (hunit : 1 ≤ seconds)
    (hfits : high * seconds ≤ 10 ^ 15) (n : Int) :
    Meets (·.IsUpTo (high * seconds)) (SettingError.IsDefect keys)
      (boundedSpan key seconds high n) := by
  have hcheck := meets_checkBounds hkey 1 high n
  unfold boundedSpan
  cases hbounds : checkBounds key 1 high n with
  | error e => exact hcheck.of_eq_error hbounds
  | ok _ =>
    obtain ⟨hlow, hhigh⟩ := hcheck.of_eq_ok hbounds
    have hleast : 1 ≤ n * seconds :=
      one_le_mul_of_one_le_of_one_le (by exact_mod_cast hlow) (by exact_mod_cast hunit)
    have hmost : n * seconds ≤ (high * seconds : Nat) := by
      push_cast
      exact mul_le_mul_of_nonneg_right hhigh (by positivity)
    have hlongest : (Span.ofSeconds (n * seconds)).nanoseconds.natAbs ≤
        Span.longest.nanoseconds.natAbs := by
      have hall : n * seconds ≤ 10 ^ 15 := hmost.trans (by exact_mod_cast hfits)
      simp only [Span.ofSeconds, Span.longest]
      omega
    simp only [Span.ofUnits?, if_pos hlongest]
    exact ⟨n * seconds, hleast, hmost, rfl⟩

end Settings

/-! ### All settings -/

namespace ServerSettings

/-- Settings within their bounds. -/
structure IsBounded (s : ServerSettings) : Prop where
  tokenLifetime : s.tokenLifetime.IsUpTo (mostTokenHours * 3600)
  taskLease : s.taskLease.IsUpTo mostIntervalSeconds
  sweepSeconds : 1 ≤ s.sweepSeconds ∧ s.sweepSeconds ≤ mostIntervalSeconds
  hashCost : 4 ≤ s.hashCost ∧ s.hashCost ≤ 31

/-- **Settings are within their bounds**, and a refusal names one of the variables. Nothing is asked
of the resolver: addresses are all that comes from it, and no bound is about them. -/
theorem meets_read (resolve : Resolver) (vars : Variables) :
    Meets IsBounded (SettingError.IsDefect variableNames) (read resolve vars) := by
  unfold read
  refine (meets_readListenAddress (by simp [variableNames]) resolve vars _).bind fun http _ => ?_
  refine (meets_readListenAddress (by simp [variableNames]) resolve vars _).bind
    fun dispatch _ => ?_
  refine (meets_readNumber (by simp [variableNames]) _ vars _).bind fun hours _ => ?_
  refine (meets_readNumber (by simp [variableNames]) _ vars _).bind fun leaseSeconds _ => ?_
  refine (meets_readNumber (by simp [variableNames]) _ vars _).bind fun sweep _ => ?_
  refine (meets_readNumber (by simp [variableNames]) _ vars _).bind fun cost _ => ?_
  refine (meets_boundedSpan (by simp [variableNames]) (by decide) (by decide) hours).bind
    fun lifetime hlifetime => ?_
  refine (meets_boundedSpan (by simp [variableNames]) (by decide) (by decide) leaseSeconds).bind
    fun lease hlease => ?_
  refine (meets_checkBounds (by simp [variableNames]) 1 _ sweep).bind fun _ hsweep => ?_
  refine (meets_checkBounds (by simp [variableNames]) 4 31 cost).bind fun _ hcost => ?_
  refine ⟨hlifetime, by simpa using hlease, ?_, ?_⟩
  · simp only
    omega
  · simp only
    omega

end ServerSettings

end ArithService
