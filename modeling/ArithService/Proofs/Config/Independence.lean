import Mathlib
import ArithService.Config.Worker
import ArithService.Proofs.Config.Server

/-!
# Variables are checked apart

What is said about a variable does not depend on any other variable: settings are read from a source
exactly if they are read from each of its variables alone, every setting is then what its own
variable gives, and a refusal is the refusal that the named variable gets alone.

## Main Definitions

* `Variables.only` — a source that keeps one variable of another one
* `SettingField` — a field of settings, with the variable that it is read from
* `ReadsFields` — settings that are put together from fields
* `ChecksApart` — what holds of settings whose variables are checked apart

## Design Notes

Numbers are read before any bound is checked, so a variable is looked at twice, with others in
between. A field joins both looks. Which of several wrong variables is reported depends on the order
of the looks, and nothing here does: settings only have to report some field that is wrong
(`ReadsFields.meets`).
-/

namespace ArithService

/-! ### Results and errors -/

section Except

variable {ε α β : Type} {x : Except ε α} {f : α → Except ε β}

theorem bind_eq_error {e : ε} (h : x = .error e) : (x >>= f) = .error e := by
  rw [h]
  rfl

theorem bind_eq_of_ok {a : α} (h : x = .ok a) : (x >>= f) = f a := by
  rw [h]
  rfl

/-- Every result is itself, and every error has to be accounted for. This turns a computation
without a description into one. -/
theorem Meets.self {E : ε → Prop} (h : ∀ e, x = .error e → E e) : Meets (x = .ok ·) E x := by
  cases x with
  | ok a => exact rfl
  | error e => exact h e rfl

end Except

/-! ### Single variables -/

namespace Variables

variable {vars : Variables} {key name : String}

/-- The source that keeps one variable of another one. -/
def only (vars : Variables) (key : String) : Variables :=
  fun name => if name = key then vars name else none

@[simp] theorem only_self : vars.only key key = vars key := if_pos rfl

theorem only_of_ne (h : name ≠ key) : vars.only key name = none := if_neg h

/-- Nothing is left of a source without the variable that is kept, so its settings are the default
ones. -/
theorem only_of_unset (h : vars key = none) : vars.only key = fun _ => none := by
  funext name
  unfold only
  split_ifs with hname
  · rw [hname, h]
  · rfl

end Variables

/-- A setting that is read from one variable: nothing else counts, an unset variable means the
default, and nothing else is blamed. -/
structure ReadsVariable {α : Type} (key : String) (default : α)
    (reader : Variables → Except SettingError α) : Prop where
  congr : ∀ {vars others : Variables}, vars key = others key → reader vars = reader others
  unset : ∀ {vars : Variables}, vars key = none → reader vars = .ok default
  blames : ∀ {vars : Variables} {e : SettingError}, reader vars = .error e → e.key = key

section Readers

variable {α β : Type} {key : String}

/-- A value that is made of a variable without a check. It is never blamed. -/
theorem readsVariable_value (value : Option String → α) :
    ReadsVariable key (value none) fun vars => .ok (value (vars key)) where
  congr h := by rw [h]
  unset h := by rw [h]
  blames h := nomatch h

theorem readsVariable_readNumber (reader : String → Except IntegerError Int) (key : String)
    (default : Int) : ReadsVariable key default fun vars => readNumber reader vars key default where
  congr h := by simp only [readNumber, h]
  unset h := by simp only [readNumber, h]
  blames {vars _} h := by
    have hdefect := (meets_readNumber (List.mem_singleton_self key) reader vars default)
    exact List.mem_singleton.1 (hdefect.of_eq_error h).key

/-- What is read may be checked further, as long as the default passes the check. That it does is
where an unset variable could otherwise be refused. -/
theorem ReadsVariable.andThen {default : α} {reader : Variables → Except SettingError α}
    (h : ReadsVariable key default reader) {check : α → Except SettingError β} {checked : β}
    (hdefault : check default = .ok checked)
    (hkey : ∀ {a e}, check a = .error e → e.key = key) :
    ReadsVariable key checked fun vars => reader vars >>= check where
  congr hsame := by rw [h.congr hsame]
  unset hunset := by
    rw [h.unset hunset]
    exact hdefault
  blames {vars e} herror := by
    cases hread : reader vars with
    | error first =>
      rw [hread] at herror
      obtain rfl : first = e := Except.error.inj herror
      exact h.blames hread
    | ok a =>
      rw [hread] at herror
      exact hkey herror

theorem key_of_checkBounds {low high : Nat} {n : Int} {e : SettingError}
    (h : checkBounds key low high n = .error e) : e.key = key := by
  have hdefect := meets_checkBounds (List.mem_singleton_self key) low high n
  exact List.mem_singleton.1 (hdefect.of_eq_error h).key

/-- A number of units, where the default is a span within the bounds. -/
theorem readsVariable_boundedSpan (key : String) (seconds high : Nat) {default : Int} {span : Span}
    (hdefault : boundedSpan key seconds high default = .ok span) :
    ReadsVariable key span fun vars =>
      readNumber readInt64 vars key default >>= boundedSpan key seconds high := by
  refine (readsVariable_readNumber readInt64 key default).andThen hdefault fun {n e} h => ?_
  unfold boundedSpan at h
  split at h
  · next hbounds =>
    rw [← Except.error.inj h]
    exact key_of_checkBounds hbounds
  · split at h
    · cases h
    · rw [← Except.error.inj h]

/-- A natural number within bounds. -/
def checkedNumber (key : String) (low high : Nat) (n : Int) : Except SettingError Nat := do
  checkBounds key low high n
  return n.toNat

/-- A number, where the default is within the bounds. -/
theorem readsVariable_checkedNumber (bits : Nat) (key : String) (low high : Nat) {default : Int}
    {n : Nat} (hdefault : checkedNumber key low high default = .ok n) :
    ReadsVariable key n fun vars =>
      readNumber (readUnsigned bits) vars key default >>= checkedNumber key low high := by
  have hreads := readsVariable_readNumber (readUnsigned bits) key default
  refine hreads.andThen hdefault fun {n e} h => ?_
  cases hbounds : checkBounds key low high n with
  | ok _ =>
    rw [checkedNumber, bind_eq_of_ok hbounds] at h
    cases h
  | error _ =>
    rw [checkedNumber, bind_eq_error hbounds] at h
    rw [← Except.error.inj h]
    exact key_of_checkBounds hbounds

end Readers

/-! ### Settings of several fields -/

/-- A field of settings, the variable that governs it, and how it is read. -/
structure SettingField (σ : Type) where
  {α : Type}
  key : String
  get : σ → α
  default : α
  reader : Variables → Except SettingError α
  readsVariable : ReadsVariable key default reader

/-- Settings that are put together from fields with variables of their own. What is read holds the
value of every field, and is `sound` in what no variable governs; what is refused is refused for one
of the fields. -/
structure ReadsFields {ι σ : Type} (field : ι → SettingField σ) (sound : σ → Prop)
    (read : Variables → Except SettingError σ) : Prop where
  keys : Function.Injective fun i => (field i).key
  meets : ∀ vars, Meets (fun s => sound s ∧ ∀ i, (field i).reader vars = .ok ((field i).get s))
    (fun e => ∃ i, (field i).reader vars = .error e) (read vars)

/-- What holds of settings whose variables are checked apart, where `assemble` takes every field
from the settings of the variable that governs it. -/
structure ChecksApart {σ : Type} (read : Variables → Except SettingError σ) (default : σ)
    (assemble : (String → σ) → σ) : Prop where
  /-- Settings are accepted exactly if every variable alone is accepted. -/
  accepts_iff : ∀ vars : Variables, (∃ s, read vars = .ok s) ↔
    ∀ key, vars key ≠ none → ∃ s, read (vars.only key) = .ok s
  /-- Every field is what its variable gives alone, and the default where this is unset. -/
  assembles : ∀ {vars : Variables} {s : σ}, read vars = .ok s → ∃ single : String → σ,
    (∀ key, read (vars.only key) = .ok (single key)) ∧
    (∀ key, vars key = none → single key = default) ∧ s = assemble single
  /-- A refusal names a variable that is set, and this variable alone is refused in the same way. -/
  blames : ∀ {vars : Variables} {e : SettingError}, read vars = .error e →
    vars e.key ≠ none ∧ read (vars.only e.key) = .error e

namespace ReadsFields

variable {ι σ : Type} {field : ι → SettingField σ} {sound : σ → Prop}
  {read : Variables → Except SettingError σ} (h : ReadsFields field sound read)
  {vars : Variables} {key : String}
include h

/-- A variable alone is refused only for a field that it governs, which is then wrong as well in
every source with this variable. -/
theorem exists_of_only_eq_error {e : SettingError} (herror : read (vars.only key) = .error e) :
    ∃ i, (field i).key = key ∧ (field i).reader vars = .error e := by
  obtain ⟨i, hfield⟩ := (h.meets (vars.only key)).of_eq_error herror
  have hreads := (field i).readsVariable
  have hkey : (field i).key = key := by
    by_contra hother
    simp [hreads.unset (Variables.only_of_ne hother)] at hfield
  refine ⟨i, hkey, ?_⟩
  have hsame : vars (field i).key = vars.only key (field i).key := by
    rw [hkey, Variables.only_self]
  rw [hreads.congr hsame, hfield]

/-- Where settings are read, every variable alone is accepted: a field of an unset variable is the
default, which is never wrong. -/
theorem exists_only_eq_ok {s : σ} (hread : read vars = .ok s) (key : String) :
    ∃ t, read (vars.only key) = .ok t := by
  cases honly : read (vars.only key) with
  | ok t => exact ⟨t, rfl⟩
  | error e =>
    obtain ⟨i, -, hfield⟩ := h.exists_of_only_eq_error honly
    rw [((h.meets vars).of_eq_ok hread).2 i] at hfield
    cases hfield

/-- A refusal names a variable that is set, and that is refused alone in the same way. That the
error is the same one needs that no two fields share a variable. -/
theorem only_eq_error {e : SettingError} (herror : read vars = .error e) :
    vars e.key ≠ none ∧ read (vars.only e.key) = .error e := by
  obtain ⟨i, hfield⟩ := (h.meets vars).of_eq_error herror
  have hreads := (field i).readsVariable
  obtain hkey : e.key = (field i).key := hreads.blames hfield
  rw [hkey]
  constructor
  · intro hunset
    rw [hreads.unset hunset] at hfield
    cases hfield
  · have halone : (field i).reader (vars.only (field i).key) = .error e := by
      rw [hreads.congr Variables.only_self, hfield]
    cases honly : read (vars.only (field i).key) with
    | ok t =>
      rw [((h.meets _).of_eq_ok honly).2 i] at halone
      cases halone
    | error other =>
      -- Fields have variables of their own, so it is the same field that is wrong.
      obtain ⟨j, hsame, hother⟩ := h.exists_of_only_eq_error honly
      obtain rfl : j = i := h.keys hsame
      rw [hfield] at hother
      rw [Except.error.inj hother]

/-- **Settings that are put together from fields are checked apart.** What is left to show of
settings is that their reader reads all fields, in whatever order. -/
theorem checksApart {default : σ} {assemble : (String → σ) → σ}
    (hdefault : read (fun _ => none) = .ok default)
    (hassemble : ∀ {s single}, sound s →
      (∀ i, (field i).get s = (field i).get (single (field i).key)) → s = assemble single) :
    ChecksApart read default assemble where
  accepts_iff vars := by
    refine ⟨fun ⟨s, hread⟩ key _ => h.exists_only_eq_ok hread key, fun hall => ?_⟩
    cases hread : read vars with
    | ok s => exact ⟨s, rfl⟩
    | error e =>
      obtain ⟨hset, halone⟩ := h.only_eq_error hread
      obtain ⟨t, honly⟩ := hall e.key hset
      rw [halone] at honly
      cases honly
  assembles {vars s} hread := by
    choose single hsingle using h.exists_only_eq_ok hread
    refine ⟨single, hsingle, fun key hunset => ?_, ?_⟩
    · have hempty := hsingle key
      rw [Variables.only_of_unset hunset, hdefault] at hempty
      exact (Except.ok.inj hempty).symm
    · obtain ⟨hsound, hfields⟩ := (h.meets vars).of_eq_ok hread
      refine hassemble hsound fun i => ?_
      have halone := ((h.meets _).of_eq_ok (hsingle (field i).key)).2 i
      rw [(field i).readsVariable.congr Variables.only_self, hfields i] at halone
      exact Except.ok.inj halone
  blames := h.only_eq_error

end ReadsFields

/-! ### Settings of the server -/

theorem readsVariable_readListenAddress (resolve : Resolver) (key : String)
    (default : SocketAddress) :
    ReadsVariable key default fun vars => readListenAddress resolve vars key default where
  congr h := by simp only [readListenAddress, h]
  unset h := by simp only [readListenAddress, h]
  blames {vars _} h := by
    have hdefect := meets_readListenAddress (List.mem_singleton_self key) resolve vars default
    exact List.mem_singleton.1 (hdefect.of_eq_error h).key

namespace ServerSettings

/-- The settings of a server without any variables. -/
def default : ServerSettings where
  httpAddress := anyInterface 8080
  dispatchAddress := anyInterface 50051
  databasePath := "./calc.db"
  secret := defaultSecret
  tokenLifetime := .ofSeconds (24 * 3600)
  taskLease := .ofSeconds 60
  sweepSeconds := 30
  hashCost := 12

/-- Settings with every field from the settings that belong to its variable. -/
def assemble (single : String → ServerSettings) : ServerSettings where
  httpAddress := (single "SERVER_ADDRESS").httpAddress
  dispatchAddress := (single "GRPC_ADDRESS").dispatchAddress
  databasePath := (single "DB_PATH").databasePath
  secret := (single "JWT_SECRET").secret
  tokenLifetime := (single "JWT_TTL_HOURS").tokenLifetime
  taskLease := (single "TASK_LEASE_SECS").taskLease
  sweepSeconds := (single "LEASE_SWEEP_SECS").sweepSeconds
  hashCost := (single "BCRYPT_COST").hashCost

/-- The variables that a server reads, each named for the setting that it governs. -/
inductive Variable where
  | httpAddress
  | dispatchAddress
  | databasePath
  | secret
  | tokenLifetime
  | taskLease
  | sweepSeconds
  | hashCost

/-- The signing key that a value means: an empty one counts as unset. -/
def secretOf : Option String → String
  | some value => if value = "" then defaultSecret else value
  | none => defaultSecret

/-- The setting that a variable governs. -/
def field (resolve : Resolver) : Variable → SettingField ServerSettings
  | .httpAddress =>
    ⟨"SERVER_ADDRESS", httpAddress, _, _,
      readsVariable_readListenAddress resolve _ (anyInterface 8080)⟩
  | .dispatchAddress =>
    ⟨"GRPC_ADDRESS", dispatchAddress, _, _,
      readsVariable_readListenAddress resolve _ (anyInterface 50051)⟩
  | .databasePath =>
    ⟨"DB_PATH", databasePath, _, _, readsVariable_value (·.getD "./calc.db")⟩
  | .secret => ⟨"JWT_SECRET", secret, _, _, readsVariable_value secretOf⟩
  | .tokenLifetime =>
    ⟨"JWT_TTL_HOURS", tokenLifetime, .ofSeconds (24 * 3600), _,
      readsVariable_boundedSpan _ 3600 mostTokenHours (show boundedSpan _ _ _ 24 = _ by decide)⟩
  | .taskLease =>
    ⟨"TASK_LEASE_SECS", taskLease, .ofSeconds 60, _,
      readsVariable_boundedSpan _ 1 mostIntervalSeconds (show boundedSpan _ _ _ 60 = _ by decide)⟩
  | .sweepSeconds =>
    ⟨"LEASE_SWEEP_SECS", sweepSeconds, 30, _,
      readsVariable_checkedNumber 64 _ 1 mostIntervalSeconds
        (show checkedNumber _ _ _ 30 = _ by decide)⟩
  | .hashCost =>
    ⟨"BCRYPT_COST", hashCost, 12, _,
      readsVariable_checkedNumber 32 _ 4 31 (show checkedNumber _ _ _ 12 = _ by decide)⟩

variable (resolve : Resolver)

/-- What is read holds every field, and what is refused is refused for one of them. A field whose
number is read first and checked later is wrong at either look. -/
theorem meets_fields (vars : Variables) :
    Meets (fun s => True ∧ ∀ i, (field resolve i).reader vars = .ok ((field resolve i).get s))
      (fun e => ∃ i, (field resolve i).reader vars = .error e) (read resolve vars) := by
  unfold read
  refine (Meets.self fun e h => ⟨.httpAddress, h⟩).bind fun http hhttp => ?_
  refine (Meets.self fun e h => ⟨.dispatchAddress, h⟩).bind fun dispatch hdispatch => ?_
  refine (Meets.self fun e h => ⟨.tokenLifetime, bind_eq_error h⟩).bind fun hours hhours => ?_
  refine (Meets.self fun e h => ⟨.taskLease, bind_eq_error h⟩).bind fun seconds hseconds => ?_
  refine (Meets.self fun e h => ⟨.sweepSeconds, bind_eq_error h⟩).bind fun sweep hsweep => ?_
  refine (Meets.self fun e h => ⟨.hashCost, bind_eq_error h⟩).bind fun cost hcost => ?_
  -- From here on the fields are looked at for the second time.
  refine (Meets.self fun e h => ⟨.tokenLifetime, (bind_eq_of_ok hhours).trans h⟩).bind
    fun lifetime hlifetime => ?_
  refine (Meets.self fun e h => ⟨.taskLease, (bind_eq_of_ok hseconds).trans h⟩).bind
    fun lease hlease => ?_
  refine (Meets.self fun e h =>
    ⟨.sweepSeconds, (bind_eq_of_ok hsweep).trans (bind_eq_error h)⟩).bind fun _ hsweepBounds => ?_
  refine (Meets.self fun e h =>
    ⟨.hashCost, (bind_eq_of_ok hcost).trans (bind_eq_error h)⟩).bind fun _ hcostBounds => ?_
  refine ⟨trivial, fun i => ?_⟩
  cases i with
  | httpAddress => exact hhttp
  | dispatchAddress => exact hdispatch
  | databasePath => rfl
  | secret => rfl
  | tokenLifetime => exact (bind_eq_of_ok hhours).trans hlifetime
  | taskLease => exact (bind_eq_of_ok hseconds).trans hlease
  | sweepSeconds => exact (bind_eq_of_ok hsweep).trans (bind_eq_of_ok hsweepBounds)
  | hashCost => exact (bind_eq_of_ok hcost).trans (bind_eq_of_ok hcostBounds)

theorem readsFields_read : ReadsFields (field resolve) (fun _ => True) (read resolve) where
  keys a b h := by
    cases a <;> cases b <;> simp_all [field]
  meets := meets_fields resolve

/-- So the variables of a server are checked apart, and `assemble` puts every field where it
belongs. -/
theorem checksApart_read : ChecksApart (read resolve) default assemble := by
  refine (readsFields_read resolve).checksApart rfl fun {s single} _ h => ?_
  cases s
  simp only [assemble, mk.injEq]
  exact ⟨h .httpAddress, h .dispatchAddress, h .databasePath, h .secret, h .tokenLifetime,
    h .taskLease, h .sweepSeconds, h .hashCost⟩

end ServerSettings

/-! ### Settings of a worker -/

namespace WorkerSettings

/-- The settings of a worker without any variables. -/
def default : WorkerSettings where
  endpoint := "http://localhost:50051"
  connectMillis := 5000
  idleMillis := 1000
  retryMillis := 5000
  pauseMillis := 500

/-- Settings with every field from the settings that belong to its variable. The time to connect has
no variable. -/
def assemble (single : String → WorkerSettings) : WorkerSettings where
  endpoint := (single "ORCHESTRATOR_ADDRESS").endpoint
  connectMillis := default.connectMillis
  idleMillis := (single "AGENT_IDLE_MS").idleMillis
  retryMillis := (single "AGENT_RETRY_MS").retryMillis
  pauseMillis := (single "AGENT_PAUSE_MS").pauseMillis

/-- The variables that a worker reads, each named for the setting that it governs. -/
inductive Variable where
  | endpoint
  | idleMillis
  | retryMillis
  | pauseMillis

/-- A time in milliseconds, as it is read from a variable. -/
def readMillis (key : String) (default : Int) (vars : Variables) : Except SettingError Nat :=
  readNumber (readUnsigned 64) vars key default >>= fun n => .ok n.toNat

theorem readsVariable_readMillis (key : String) (default : Nat) :
    ReadsVariable key default (readMillis key default) :=
  (readsVariable_readNumber (readUnsigned 64) key default).andThen rfl fun h => nomatch h

/-- The endpoint that a value means: a blank one counts as unset. -/
def endpointFrom : Option String → String
  | some value => if isBlank value then default.endpoint else endpointOf (trim value)
  | none => default.endpoint

/-- The setting that a variable governs. -/
def field : Variable → SettingField WorkerSettings
  | .endpoint => ⟨"ORCHESTRATOR_ADDRESS", endpoint, _, _, readsVariable_value endpointFrom⟩
  | .idleMillis => ⟨"AGENT_IDLE_MS", idleMillis, _, _, readsVariable_readMillis _ 1000⟩
  | .retryMillis => ⟨"AGENT_RETRY_MS", retryMillis, _, _, readsVariable_readMillis _ 5000⟩
  | .pauseMillis => ⟨"AGENT_PAUSE_MS", pauseMillis, _, _, readsVariable_readMillis _ 500⟩

/-- What a worker reads holds every field and the fixed time to connect, and what is refused is
refused for one of them. -/
theorem meets_fields (vars : Variables) :
    Meets (fun s => s.connectMillis = default.connectMillis ∧
        ∀ i, (field i).reader vars = .ok ((field i).get s))
      (fun e => ∃ i, (field i).reader vars = .error e) (read vars) := by
  unfold read
  refine (Meets.self fun e h => ⟨.idleMillis, bind_eq_error h⟩).bind fun idle hidle => ?_
  refine (Meets.self fun e h => ⟨.retryMillis, bind_eq_error h⟩).bind fun retry hretry => ?_
  refine (Meets.self fun e h => ⟨.pauseMillis, bind_eq_error h⟩).bind fun pause hpause => ?_
  refine ⟨rfl, fun i => ?_⟩
  cases i with
  | endpoint => rfl
  | idleMillis => exact bind_eq_of_ok hidle
  | retryMillis => exact bind_eq_of_ok hretry
  | pauseMillis => exact bind_eq_of_ok hpause

theorem readsFields_read :
    ReadsFields field (·.connectMillis = default.connectMillis) read where
  keys a b h := by
    cases a <;> cases b <;> simp_all [field]
  meets := meets_fields

theorem checksApart_read : ChecksApart read default assemble := by
  refine readsFields_read.checksApart rfl fun {s single} hconnect h => ?_
  cases s
  simp only [assemble, mk.injEq]
  exact ⟨h .endpoint, hconnect, h .idleMillis, h .retryMillis, h .pauseMillis⟩

end WorkerSettings

/-- **Variables are checked apart**, by a server, in whatever way it resolves addresses, and by a
worker. -/
theorem variables_are_checked_apart :
    (∀ resolve : Resolver, ChecksApart (ServerSettings.read resolve) ServerSettings.default
      ServerSettings.assemble) ∧
    ChecksApart WorkerSettings.read WorkerSettings.default WorkerSettings.assemble :=
  ⟨ServerSettings.checksApart_read, WorkerSettings.checksApart_read⟩

end ArithService
