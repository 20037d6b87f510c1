import Mathlib
import ArithService.Auth.Password
import ArithService.Database.Store
import ArithService.Proofs.Auth.Token
import ArithService.Proofs.Config.Server
import ArithService.Store.Memory

/-!
# Accepted settings are safe

What the server does with its settings never leaves the range of dates or of numbers: settings
that are accepted grant leases that a store can keep and compare, tokens that last, sweeps that
have a pause between them, and passwords that can be hashed.

## Main Definitions

* `Instant.IsBeforeLastYear` — a clock reading with a year of four digits still to come
* `Instant.IsLease` — a deadline that is stored as it should be
* `LeaseRecords` — a store as a claim sees it
* `LeaseRecords.Grants` — what a claim under a lease does to a store
* `ServerSettings.IsSafe` — what the server relies on

## Design Notes

Both spans among the settings are whole numbers of seconds and last a year at most, which is all
that is used of them (`Instant.IsBeforeLastYear.exists_add`). Nothing is assumed about the state
of a store: a database may have other tables or triggers, and a claim on it may fail, but not
because of its lease.
-/

namespace ArithService

/-! ### Time -/

namespace Instant

variable {now deadline : Instant}

/-- A clock reading of the years 0 to 9998. -/
structure IsBeforeLastYear (now : Instant) : Prop where
  proper : now.IsProper
  year_nonneg : 0 ≤ now.date.year
  year_le : now.date.year ≤ 9998

theorem IsBeforeLastYear.isPlain (h : now.IsBeforeLastYear) : now.IsPlain :=
  ⟨h.proper, h.year_nonneg, h.year_le.trans (by decide)⟩

/-- The years 0 to 9998 in seconds. -/
theorem IsBeforeLastYear.seconds_mem (h : now.IsBeforeLastYear) :
    -62167219200 ≤ now.seconds ∧ now.seconds < 253370764800 := by
  have hbefore : (CivilDate.ofDayNumber (-719529)).year = -1 := by decide
  have hafter : (CivilDate.ofDayNumber 2932532).year = 9999 := by decide
  have hlow := h.year_nonneg
  have hhigh := h.year_le
  unfold date at hlow hhigh
  constructor
  · by_contra hearly
    have hyear := year_le_of_day_le (show now.seconds / 86400 ≤ -719529 by omega)
    omega
  · by_contra hlate
    have hyear := year_le_of_day_le (show 2932532 ≤ now.seconds / 86400 by omega)
    omega

/-- **A year at most can be added to a reading of the years 0 to 9998**, and leads to a year of four
digits. All bounds on settings come down to this one. -/
theorem IsBeforeLastYear.exists_add (h : now.IsBeforeLastYear) {d : Span}
    (hspan : d.IsUpTo (365 * 86400)) :
    ∃ deadline, now.add? d = some deadline ∧ now.seconds < deadline.seconds ∧
      deadline.IsPlain := by
  obtain ⟨k, hone, hyear, rfl⟩ := hspan
  have hseconds := TokenService.seconds_move_ofSeconds h.proper (show 0 ≤ k by omega)
  obtain ⟨hlow, hhigh⟩ := h.seconds_mem
  have hrange : earliest.seconds ≤ -62167219200 ∧ 253402300799 ≤ latest.seconds := by decide
  refine ⟨now.move (.ofSeconds k), ?_, by omega, ?_⟩
  · simp only [add?]
    rw [if_pos]
    simp only [inRange, Bool.and_eq_true, decide_eq_true_eq]
    omega
  · exact (h.proper.move _).isPlain (hasPlainYear_of_seconds (by omega) (by omega))

/-- A deadline that is stored as it should be: later than now, and with a text that says so. -/
structure IsLease (now deadline : Instant) : Prop where
  later : deadline.atMost now = false
  year : deadline.HasPlainYear
  text : now.text < deadline.text

theorem IsBeforeLastYear.isLease (h : now.IsBeforeLastYear)
    (hlater : now.seconds < deadline.seconds) (hplain : deadline.IsPlain) :
    now.IsLease deadline := by
  have hafter : deadline.atMost now = false := not_atMost_iff.2 (.inl hlater)
  refine ⟨hafter, hplain.hasPlainYear, not_le.1 ?_⟩
  rw [hplain.text_le_text_iff h.isPlain, hafter]
  decide

end Instant

/-! ### Claims -/

/-- A store as a claim sees it. -/
structure LeaseRecords (σ ρ : Type) where
  records : σ → List ρ
  /-- A record as it was before it was claimed. -/
  released : ρ → ρ
  /-- Whether a record was started at an instant under a lease until another one. -/
  IsLeased : Instant → Instant → ρ → Prop
  /-- Whether a record is read as a task. -/
  Reads : ρ → Task → Prop

/-- What a claim under a lease until a deadline does to a store. -/
structure LeaseRecords.Grants {σ ρ : Type} [Store σ] (R : LeaseRecords σ ρ)
    (now deadline : Instant) (lease : Span) (s : σ) : Prop where
  /-- It may fail, but not because of the lease. -/
  inRange : ∀ d, (Store.claim now lease s).1 ≠ .error (.leaseOutOfRange d)
  /-- A task that is handed out has the lease, and is there with it. -/
  handed : ∀ t, (Store.claim now lease s).1 = .ok (some t) →
    t.startedAt = some now ∧ t.leaseExpiresAt = some deadline ∧
      ∃ r ∈ R.records (Store.claim now lease s).2, R.IsLeased now deadline r ∧ R.Reads r t
  /-- No other lease is stored. -/
  stored : ∀ r ∈ R.records (Store.claim now lease s).2,
    r ∈ R.records s ∨ (∃ q ∈ R.records s, r = R.released q) ∨ R.IsLeased now deadline r

section Claims

variable {now deadline : Instant} {lease : Span}

namespace MemoryStore

/-- The tasks of a store in memory. -/
def leaseRecords : LeaseRecords MemoryStore Task where
  records := tasks
  released := released
  IsLeased now deadline t := t.startedAt = some now ∧ t.leaseExpiresAt = some deadline
  Reads t u := t = u

theorem mem_requeue {s : MemoryStore} {t : Task} (ht : t ∈ (s.requeue now).2.tasks) :
    t ∈ s.tasks ∨ ∃ u ∈ s.tasks, t = released u := by
  obtain ⟨u, hu, rfl⟩ := List.mem_map.1 ht
  split_ifs
  · exact .inr ⟨u, hu, rfl⟩
  · exact .inl hu

/-- A claim in memory grants the lease that its deadline says, whatever the store holds. -/
theorem grants (hadd : now.add? lease = some deadline) (s : MemoryStore) :
    leaseRecords.Grants now deadline lease s := by
  have hclaim : Store.claim now lease s = s.claim now lease := rfl
  unfold MemoryStore.claim at hclaim
  rw [hadd] at hclaim
  cases holdest : (s.requeue now).2.oldestPending with
  | none =>
    simp only [holdest] at hclaim
    refine ⟨by simp [hclaim], by simp [hclaim], ?_⟩
    rw [hclaim]
    intro r hr
    exact (mem_requeue hr).imp_right .inl
  | some t =>
    simp only [holdest] at hclaim
    refine ⟨by simp [hclaim], ?_, ?_⟩
    · rw [hclaim]
      intro u hu
      obtain rfl := Option.some.inj (Except.ok.inj hu)
      refine ⟨rfl, rfl, claimed now deadline t, ?_, ⟨rfl, rfl⟩, rfl⟩
      exact List.mem_map.2 ⟨t, List.mem_of_find?_eq_some holdest, if_pos rfl⟩
    · rw [hclaim]
      intro r hr
      obtain ⟨u, hu, rfl⟩ := List.mem_map.1 hr
      split_ifs
      · exact .inr (.inr ⟨rfl, rfl⟩)
      · exact (mem_requeue hu).imp_right .inl

end MemoryStore

namespace DatabaseStore

/-- The rows of a store on a database. -/
def leaseRecords : LeaseRecords DatabaseStore TaskRow where
  records s := rows s.database
  released := TaskRow.released
  IsLeased now deadline r :=
    r.startedAt = some now.text ∧ r.leaseExpiresAt = some deadline.text
  Reads r t := r.toTask = .ok t

/-- The rows after an update were there before, or are changed ones; the changed rows are there.
Triggers may skip or refuse changes, but they make no other ones. -/
theorem mem_updateTasks {db after : Database} {columns : List TaskColumn}
    {matching : TaskRow → Bool} {change : TaskRow → TaskRow} {changed : List TaskRow}
    (h : db.updateTasks columns matching change = .ok (changed, after)) :
    (∀ r ∈ changed, r ∈ rows after ∧ ∃ q ∈ rows db, r = change q) ∧
      ∀ r ∈ rows after, r ∈ rows db ∨ ∃ q ∈ rows db, r = change q := by
  unfold Database.updateTasks at h
  split at h
  · cases h
  · cases h
  next existing before htasks =>
    have hrows : rows db = before := by simp [rows, htasks]
    split at h
    · cases h
    · dsimp only at h
      split at h
      · obtain ⟨rfl, rfl⟩ := Prod.mk.inj (Except.ok.inj h)
        exact ⟨by simp, fun r hr => .inl hr⟩
      · cases h
      · obtain ⟨rfl, rfl⟩ := Prod.mk.inj (Except.ok.inj h)
        exact ⟨by simp, fun r hr => .inl hr⟩
      · obtain ⟨rfl, rfl⟩ := Prod.mk.inj (Except.ok.inj h)
        rw [hrows]
        constructor
        · intro r hr
          obtain ⟨q, hq, rfl⟩ := List.mem_map.1 hr
          obtain ⟨hbefore, hmatching⟩ := List.mem_filter.1 hq
          exact ⟨List.mem_map.2 ⟨q, hbefore, if_pos hmatching⟩, q, hbefore, rfl⟩
        · intro r hr
          obtain ⟨q, hq, rfl⟩ := List.mem_map.1 hr
          split_ifs
          · exact .inr ⟨q, hq, rfl⟩
          · exact .inl hq

/-- Taking back leases only releases rows, and fails as a statement that is no claim. -/
theorem requeue_spec (at_ : Instant) (s : DatabaseStore) :
    (∀ e, (s.requeue at_).1 = .error e → ∃ f, e = queryFault "requeue_expired" f) ∧
      ∀ r ∈ rows (s.requeue at_).2.database,
        r ∈ rows s.database ∨ ∃ q ∈ rows s.database, r = q.released := by
  unfold DatabaseStore.requeue
  split
  next changed db hupdate => exact ⟨by simp, (mem_updateTasks hupdate).2⟩
  next f hupdate => exact ⟨by simp, fun r hr => .inl hr⟩

/-! The texts of failures tell them apart. -/

section Texts

variable (d : Span)

/-- A statement that fails is not taken for a lease out of range: the two are told apart by their
texts. -/
theorem claimFault_ne_leaseOutOfRange (f : SqlFault) :
    queryFault "claim_oldest_pending" f ≠ .leaseOutOfRange d := by
  unfold queryFault StoreError.leaseOutOfRange SqlFault.message
  intro h
  have hchars := congrArg String.toList (StoreError.query.inj h)
  simp at hchars

theorem requeueFault_ne_leaseOutOfRange (f : SqlFault) :
    queryFault "requeue_expired" f ≠ .leaseOutOfRange d := by
  intro h
  have hchars := congrArg String.toList (StoreError.query.inj h)
  simp at hchars

theorem rowFault_ne_leaseOutOfRange (f : RowFault) :
    StoreError.query ("row_to_task: " ++ f.message) ≠ .leaseOutOfRange d := by
  intro h
  have hchars := congrArg String.toList (StoreError.query.inj h)
  simp at hchars

end Texts

/-- A row that was just handed out is read with the times that were written. Both are plain, so they
are read back as they are. -/
theorem task_of_claimed {r : TaskRow} {t : Task} (hnow : now.IsPlain) (hdeadline : deadline.IsPlain)
    (h : (r.claimed now.text deadline.text).toTask = .ok t) :
    t.startedAt = some now ∧ t.leaseExpiresAt = some deadline := by
  unfold TaskRow.toTask at h
  split at h
  · cases h
  · split at h
    · cases h
    · obtain rfl := Except.ok.inj h
      exact ⟨congrArg some hnow.timeRead_text, congrArg some hdeadline.timeRead_text⟩

/-- A claim on a database grants the lease that its deadline says, on any tables and under any
triggers. Its statement may fail, and then nothing is handed out. -/
theorem grants (hnow : now.IsPlain) (hdeadline : deadline.IsPlain)
    (hadd : now.add? lease = some deadline) (s : DatabaseStore) :
    leaseRecords.Grants now deadline lease s := by
  have hclaim : Store.claim now lease s = s.claim now lease := rfl
  unfold DatabaseStore.claim at hclaim
  simp only [hadd] at hclaim
  obtain ⟨hfault, hswept⟩ := requeue_spec now s
  generalize s.requeue now = swept at hclaim hfault hswept
  obtain ⟨count, swept⟩ := swept
  cases count with
  | error e =>
    obtain ⟨f, rfl⟩ := hfault e rfl
    refine ⟨?_, by simp [hclaim], ?_⟩
    · rw [hclaim]
      exact fun d h => requeueFault_ne_leaseOutOfRange d f (Except.error.inj h)
    · rw [hclaim]
      exact fun r hr => (hswept r hr).imp_right .inl
  | ok count =>
    dsimp only at hclaim
    cases hupdate : swept.database.updateTasks claimColumns (isNext swept.database)
        (.claimed now.text deadline.text) with
    | error f =>
      simp only [hupdate] at hclaim
      refine ⟨?_, by simp [hclaim], ?_⟩
      · rw [hclaim]
        exact fun d h => claimFault_ne_leaseOutOfRange d f (Except.error.inj h)
      · rw [hclaim]
        exact fun r hr => (hswept r hr).imp_right .inl
    | ok updated =>
      obtain ⟨changed, db⟩ := updated
      obtain ⟨hchanged, hrows⟩ := mem_updateTasks hupdate
      have hstored : ∀ r ∈ rows db, r ∈ rows s.database ∨
          (∃ q ∈ rows s.database, r = q.released) ∨ leaseRecords.IsLeased now deadline r := by
        intro r hr
        rcases hrows r hr with hbefore | ⟨q, -, rfl⟩
        · exact (hswept r hbefore).imp_right .inl
        · exact .inr (.inr ⟨rfl, rfl⟩)
      cases changed with
      | nil =>
        simp only [hupdate] at hclaim
        exact ⟨by simp [hclaim], by simp [hclaim], by rw [hclaim]; exact hstored⟩
      | cons r rest =>
        obtain ⟨hthere, q, -, rfl⟩ := hchanged r List.mem_cons_self
        cases htask : (q.claimed now.text deadline.text).toTask with
        | error f =>
          simp only [hupdate, htask] at hclaim
          refine ⟨?_, by simp [hclaim], by rw [hclaim]; exact hstored⟩
          rw [hclaim]
          exact fun d h => rowFault_ne_leaseOutOfRange d f (Except.error.inj h)
        | ok t =>
          simp only [hupdate, htask] at hclaim
          refine ⟨by simp [hclaim], ?_, by rw [hclaim]; exact hstored⟩
          rw [hclaim]
          intro u hu
          obtain rfl := Option.some.inj (Except.ok.inj hu)
          obtain ⟨hstarted, hlease⟩ := task_of_claimed hnow hdeadline htask
          exact ⟨hstarted, hlease, _, hthere, ⟨rfl, rfl⟩, htask⟩

end DatabaseStore

end Claims

/-! ### Settings -/

namespace ServerSettings

/-- The service of tokens with the settings. -/
def tokens (s : ServerSettings) : TokenService := ⟨s.secret, s.tokenLifetime⟩

/-- What the server relies on at every clock reading of the years 0 to 9998, and in every state of
its store. -/
structure IsSafe (s : ServerSettings) : Prop where
  /-- Claims have a deadline, and grant a lease that is stored as it should be. -/
  lease : ∀ now : Instant, now.IsBeforeLastYear →
    ∃ deadline, now.add? s.taskLease = some deadline ∧ now.IsLease deadline ∧
      (∀ m, MemoryStore.leaseRecords.Grants now deadline s.taskLease m) ∧
      ∀ d, DatabaseStore.leaseRecords.Grants now deadline s.taskLease d
  /-- Tokens end in the range of dates, and after they were issued. -/
  token : ∀ now : Instant, now.IsBeforeLastYear → (now.add? s.tokenLifetime).isSome ∧
    ∀ userId login,
      (s.tokens.claimsAt now userId login).issuedAt < (s.tokens.claimsAt now userId login).expiresAt
  sweep : 0 < s.sweepSeconds
  /-- Passwords can be hashed. -/
  hash : isHashCost s.hashCost = true ∧
    ∀ salt password, ∃ stored, hashPassword s.hashCost salt password = .ok stored

/-- Settings within bounds are safe. From here on bounds are all that has to be known of what was
read. -/
theorem IsBounded.isSafe {s : ServerSettings} (h : s.IsBounded) : s.IsSafe where
  lease now hnow := by
    obtain ⟨deadline, hadd, hlater, hplain⟩ := hnow.exists_add (h.taskLease.mono (by decide))
    exact ⟨deadline, hadd, hnow.isLease hlater hplain, MemoryStore.grants hadd,
      DatabaseStore.grants hnow.isPlain hplain hadd⟩
  token now hnow := by
    obtain ⟨deadline, hadd, hlater, -⟩ := hnow.exists_add (h.tokenLifetime.mono (by decide))
    refine ⟨by simp [hadd], fun userId login => ?_⟩
    simp only [Instant.add?] at hadd
    split_ifs at hadd
    obtain rfl := Option.some.inj hadd
    exact hlater
  sweep := h.sweepSeconds.1
  hash := by
    have hcost : isHashCost s.hashCost = true := by
      simpa [isHashCost] using h.hashCost
    exact ⟨hcost, fun salt password => ⟨_, if_pos hcost⟩⟩

end ServerSettings

/-- **Accepted settings are safe.** Whatever the variables are, and whichever addresses a machine
finds for a text, settings that are read from them keep all that the server does with them in range,
at every clock reading of the years 0 to 9998 and in every state of its store. Variables that are
refused are refused for one of them, and never because a number within its bounds is no span of
time. -/
theorem accepted_settings_are_safe (resolve : Resolver) (vars : Variables) :
    (∀ s, ServerSettings.read resolve vars = .ok s → s.IsSafe) ∧
      ∀ e, ServerSettings.read resolve vars = .error e →
        e.key ∈ ServerSettings.variableNames ∧ e.fault ≠ .outOfRange := by
  have hread := ServerSettings.meets_read resolve vars
  constructor
  · intro s hs
    exact (hread.of_eq_ok hs).isSafe
  · intro e he
    exact ⟨(hread.of_eq_error he).key, (hread.of_eq_error he).fault⟩

/-- A machine that knows itself under a name, with an address of each protocol. -/
def namedHosts (host : String) : Except String (List HostAddress) :=
  if host = "localhost" then .ok [.v4 [127, 0, 0, 1], .v6 [0, 0, 0, 0, 0, 0, 0, 1] 0]
  else numericHosts host

/-- Variables that name a host, and ask for as much time as there can be and for a lease of given
length. -/
def widestVariables (lease : String) : Variables := fun key =>
  (([("SERVER_ADDRESS", "localhost:8080"), ("JWT_TTL_HOURS", " +8760\n"),
    ("TASK_LEASE_SECS", lease), ("LEASE_SWEEP_SECS", "1"), ("BCRYPT_COST", "31")].find?
      fun entry => entry.1 = key).map (·.2))

/-- The settings with a lease of a week. -/
def widestSettings : ServerSettings where
  httpAddress := ⟨.v4 [127, 0, 0, 1], 8080⟩
  dispatchAddress := ServerSettings.anyInterface 50051
  databasePath := "./calc.db"
  secret := ServerSettings.defaultSecret
  tokenLifetime := .ofSeconds (8760 * 3600)
  taskLease := .ofSeconds 604800
  sweepSeconds := 1
  hashCost := 31

/-- The leap second at the end of the year 9998. -/
def endOf9998 : Instant := ⟨253370764799, 1500000000⟩

theorem endOf9998_isBeforeLastYear : endOf9998.IsBeforeLastYear where
  proper := .inr (by decide)
  year_nonneg := by decide
  year_le := by decide

/-- The longest spans of time are safe in the last second of the year 9998, on a machine that finds
the host by its name, and one second more is refused. -/
theorem accepted_settings_are_safe_widest :
    ServerSettings.read (.ofLookup namedHosts) (widestVariables "0604800") = .ok widestSettings ∧
      endOf9998.IsBeforeLastYear ∧
      (∃ deadline, endOf9998.add? widestSettings.taskLease = some deadline ∧
        endOf9998.IsLease deadline) ∧
      ServerSettings.read (.ofLookup namedHosts) (widestVariables "604801") =
        .error ⟨"TASK_LEASE_SECS", .outOfBounds 1 604800⟩ ∧
      "TASK_LEASE_SECS" ∈ ServerSettings.variableNames := by
  have hread : ServerSettings.read (.ofLookup namedHosts) (widestVariables "0604800") =
      .ok widestSettings := by
    decide +kernel
  have hrefused : ServerSettings.read (.ofLookup namedHosts) (widestVariables "604801") =
      .error ⟨"TASK_LEASE_SECS", .outOfBounds 1 604800⟩ := by
    decide +kernel
  obtain ⟨deadline, hadd, hlease, -⟩ :=
    ((accepted_settings_are_safe (.ofLookup namedHosts)
      (widestVariables "0604800")).1 widestSettings hread).lease endOf9998
        endOf9998_isBeforeLastYear
  have hkey := ((accepted_settings_are_safe (.ofLookup namedHosts)
    (widestVariables "604801")).2 _ hrefused).1
  exact ⟨hread, endOf9998_isBeforeLastYear, ⟨deadline, hadd, hlease⟩, hrefused, hkey⟩

end ArithService
