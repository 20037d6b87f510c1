import Mathlib
import ArithService.Proofs.Database.Leases
import ArithService.Proofs.Database.Upgrade

/-!
# Tasks from before there were leases

A task that was in progress when its database was brought up to the second version has no lease
that could end, so it is never taken back. All other tasks are.

## Main Definitions

* `TaskRow.isInProgress`, `TaskRow.isStranded` — rows in progress, and those of them without a lease
* `DatabaseStore.RowMove` — what a call does to a row
* `Call.reportsOn` — calls that record a result in a row

## Main Results

* `DatabaseStore.InOrder.run` — a call moves each row and may add one
* `filter_isStranded_runCalls` — a run strands no row, and only a result ends that
* `unfinished_tasks_without_lease_stay` — what is still in progress after a late requeue

## Design Notes

Nothing is asked of the rows: neither that their times make sense, nor that their identifiers are
different. A lease that ends in a year with a sign has ended by every plain instant, as its text
comes first, so only the leases of the years 0 to 9999 have to end before the requeue.
-/

namespace ArithService

/-! ### Rows -/

/-- Whether a row is in progress. -/
def TaskRow.isInProgress (r : TaskRow) : Bool := r.status = TaskStatus.inProgress.text

/-- Whether a row is in progress without a lease. -/
def TaskRow.isStranded (r : TaskRow) : Bool := r.isInProgress && r.leaseExpiresAt.isNone

/-- Whether a call records a result in a row. -/
def Call.reportsOn (c : Call) (r : TaskRow) : Bool :=
  match c.command with
  | .complete id _ => r.id = some id
  | _ => false

/-- Where related records are the same if they are kept, filters keep the same records. It is stated
of any relation, as rows are followed both through calls and through leases. -/
theorem filter_eq_of_forall₂ {α : Type} {R : α → α → Prop} {p q : α → Bool} {as bs : List α}
    (h : List.Forall₂ R as bs) (hkept : ∀ a b, R a b → q b = p a ∧ (p a = true → a = b)) :
    bs.filter q = as.filter p := by
  induction h with
  | nil => rfl
  | @cons a b as bs hfirst _ ih =>
    obtain ⟨hsame, heq⟩ := hkept a b hfirst
    by_cases hp : p a = true
    · rw [List.filter_cons_of_pos (hsame.trans hp), List.filter_cons_of_pos hp, ih, heq hp]
    · rw [List.filter_cons_of_neg (by rwa [hsame]), List.filter_cons_of_neg hp, ih]

namespace DatabaseStore

/-- What a call does to a row. -/
inductive RowMove (c : Call) : TaskRow → TaskRow → Prop
  | stays {r : TaskRow} (hother : c.reportsOn r = false) : RowMove c r r
  | released {r : TaskRow} {at_ : Instant} (htime : c.requeueTime = some at_)
      (hended : r.hasEndedLease at_.text = true) : RowMove c r r.released
  | handedOut {r : TaskRow} {deadline : Instant} (hdeadline : c.deadline? = some deadline)
      (hpending : (requeuedRow c.now r).status = TaskStatus.pending.text) :
      RowMove c r ((requeuedRow c.now r).claimed c.now.text deadline.text)
  | completed {r : TaskRow} {id : String} {x : Binary64} (hcommand : c.command = .complete id x)
      (hid : r.id = some id) : RowMove c r (r.completed c.now.text x)

/-- What a call does to the rows: it moves each of them, and may add a new one. -/
def RowMoves (c : Call) (before after : List TaskRow) : Prop :=
  ∃ moved, List.Forall₂ (RowMove c) before moved ∧
    (after = moved ∨ ∃ t : Task, after = moved ++ [.ofTask t] ∧ t.status = .pending)

variable {s : DatabaseStore} {c : Call}

/-- A call that moves each row by itself, as statements do that pick rows one by one. -/
theorem RowMoves.map {move : TaskRow → TaskRow} (h : ∀ r, RowMove c r (move r))
    (rows : List TaskRow) : RowMoves c rows (rows.map move) :=
  ⟨rows.map move, List.forall₂_map_right_iff.2 (List.forall₂_same.2 fun r _ => h r), .inl rfl⟩

/-- A call that records no result may leave all rows as they are. -/
theorem RowMoves.same (hother : ∀ r, c.reportsOn r = false) (rows : List TaskRow) :
    RowMoves c rows rows :=
  ⟨rows, List.forall₂_same.2 fun r _ => .stays (hother r), .inl rfl⟩

/-! ### Calls -/

/-- Taking back leases moves rows. -/
theorem rowMove_requeuedRow {at_ : Instant} (htime : c.requeueTime = some at_)
    (hother : ∀ r, c.reportsOn r = false) (r : TaskRow) : RowMove c r (requeuedRow at_ r) := by
  unfold requeuedRow
  split_ifs with hended
  · exact .released htime hended
  · exact .stays (hother r)

/-- A store is related to itself, with no sweep open. -/
theorem InOrder.trails (h : InOrder s) : Trails [] s s :=
  ⟨h, h, List.forall₂_same.2 fun r _ => .same r, rfl, rfl⟩

theorem InOrder.run_enqueue (h : InOrder s) (now : Instant) (owner : Int) (expression : String)
    (work : Work) :
    InOrder (s.enqueue now owner expression work).2 ∧
      RowMoves ⟨now, .enqueue owner expression work⟩ (rows s.database)
        (rows (s.enqueue now owner expression work).2.database) := by
  refine ⟨(h.trails.enqueue now owner expression work).2.left, ?_⟩
  have hsame := RowMoves.same (c := ⟨now, .enqueue owner expression work⟩) (fun _ => rfl)
    (rows s.database)
  simp only [DatabaseStore.enqueue]
  cases nextNumber s.lastNumber now with
  | none => exact hsame
  | some number =>
    dsimp only
    rw [Database.insertTask_eq h.table h.triggers]
    cases s.database.isUser (TaskRow.ofTask (.fresh (taskId number) owner expression work
        (.ofNanoseconds number))).owner with
    | error f => exact hsame
    | ok known =>
      dsimp only
      split_ifs
      · exact hsame
      · exact hsame
      · exact ⟨rows s.database, List.forall₂_same.2 fun r _ => .stays rfl, .inr ⟨_, rfl, rfl⟩⟩

theorem InOrder.run_claim (h : InOrder s) (now : Instant) (lease : Span) :
    InOrder (s.claim now lease).2 ∧
      RowMoves ⟨now, .claim lease⟩ (rows s.database) (rows (s.claim now lease).2.database) := by
  cases hdeadline : now.add? lease with
  | none =>
    simp only [DatabaseStore.claim, hdeadline]
    exact ⟨h, .same (fun _ => rfl) _⟩
  | some deadline =>
    rw [h.claim_eq hdeadline]
    refine ⟨(h.withRows _).withRows _, ?_⟩
    show RowMoves _ _ (((rows s.database).map (requeuedRow now)).map _)
    rw [List.map_map]
    refine .map (fun r => ?_) _
    simp only [Function.comp_apply]
    split_ifs with hnext
    · exact .handedOut hdeadline (status_of_isNext hnext)
    · exact rowMove_requeuedRow
        (Call.requeueTime_of_deadline? (c := ⟨now, .claim lease⟩) hdeadline) (fun _ => rfl) r

theorem InOrder.run_complete (h : InOrder s) (now : Instant) (id : String) (x : Binary64) :
    InOrder (s.complete now id x).2 ∧
      RowMoves ⟨now, .complete id x⟩ (rows s.database)
        (rows (s.complete now id x).2.database) := by
  rw [h.complete_eq]
  refine ⟨h.withRows _, .map (fun r => ?_) _⟩
  split_ifs with hid
  · exact .completed rfl hid
  · exact .stays (decide_eq_false hid)

/-- **A call moves each row and may add one.** All that is proved of runs here goes through this
lemma, and no statement is looked at again. -/
theorem InOrder.run (h : InOrder s) (c : Call) :
    InOrder (c.run s).2 ∧ RowMoves c (rows s.database) (rows (c.run s).2.database) := by
  obtain ⟨now, command⟩ := c
  cases command with
  | enqueue owner expression work => exact h.run_enqueue now owner expression work
  | claim lease => exact h.run_claim now lease
  | complete id x => exact h.run_complete now id x
  | requeue at_ =>
    show InOrder (s.requeue at_).2 ∧ RowMoves _ _ (rows (s.requeue at_).2.database)
    rw [requeue_eq h.table h.triggers]
    exact ⟨h.withRows _, .map (rowMove_requeuedRow rfl fun _ => rfl) _⟩
  | createUser login passwordHash =>
    show InOrder (s.createUser login passwordHash).2 ∧
      RowMoves _ _ (rows (s.createUser login passwordHash).2.database)
    rw [rows_createUser h]
    exact ⟨(h.trails.createUser login passwordHash).2.left, .same (fun _ => rfl) _⟩
  | get _ => exact ⟨h, .same (fun _ => rfl) _⟩
  | list _ => exact ⟨h, .same (fun _ => rfl) _⟩
  | findUser _ => exact ⟨h, .same (fun _ => rfl) _⟩

/-! ### Rows without a lease -/

/-- A row that is in progress without a lease has no lease that could have ended, so no requeue
takes it back. -/
theorem requeuedRow_of_isStranded {r : TaskRow} (h : r.isStranded = true) (at_ : Instant) :
    requeuedRow at_ r = r := by
  simp only [TaskRow.isStranded, Bool.and_eq_true, Option.isNone_iff_eq_none] at h
  rw [requeuedRow, if_neg (by simp [TaskRow.hasEndedLease, h.2])]

/-- A call neither moves a row that is in progress without a lease, unless it records a result in
it, nor makes a row one. -/
theorem RowMove.isStranded {q r : TaskRow} (h : RowMove c q r) :
    r.isStranded = (q.isStranded && !c.reportsOn q) ∧
      ((q.isStranded && !c.reportsOn q) = true → q = r) := by
  cases h with
  | stays hother => simp [hother]
  | released htime hended =>
    have hleased : q.isStranded = false := by
      simp only [TaskRow.hasEndedLease, Bool.and_eq_true] at hended
      cases hlease : q.leaseExpiresAt with
      | none => simp [hlease] at hended
      | some lease => simp [TaskRow.isStranded, hlease]
    rw [hleased]
    simp [TaskRow.isStranded, TaskRow.isInProgress, TaskRow.released, TaskStatus.text]
  | handedOut hdeadline hpending =>
    have hother : q.isStranded = false := by
      by_contra hstranded
      have hkept := requeuedRow_of_isStranded (Bool.eq_true_of_not_eq_false hstranded) c.now
      rw [hkept] at hpending
      simp [TaskRow.isStranded, TaskRow.isInProgress, hpending, TaskStatus.text] at hstranded
    rw [hother]
    simp [TaskRow.isStranded, TaskRow.claimed]
  | completed hcommand hid =>
    have hreports : c.reportsOn q = true := by simp [Call.reportsOn, hcommand, hid]
    simp [hreports, TaskRow.isStranded, TaskRow.isInProgress, TaskRow.completed, TaskStatus.text]

/-- So a call keeps the rows that are in progress without a lease, all but the one that it records a
result in. -/
theorem RowMoves.filter_isStranded {before after : List TaskRow} (h : RowMoves c before after) :
    after.filter TaskRow.isStranded =
      before.filter fun r => r.isStranded && !c.reportsOn r := by
  obtain ⟨moved, hmoved, hafter⟩ := h
  have hkept := filter_eq_of_forall₂ hmoved fun q r hmove => hmove.isStranded
  rcases hafter with rfl | ⟨t, rfl, hpending⟩
  · exact hkept
  · have hnew : (TaskRow.ofTask t).isStranded = false := by
      simp [TaskRow.isStranded, TaskRow.isInProgress, TaskRow.ofTask, hpending, TaskStatus.text]
    rw [List.filter_append, hkept, List.filter_cons_of_neg (by simp [hnew]), List.filter_nil,
      List.append_nil]

/-- **A run strands no row, and only a result ends that.** The rows are the same at the end, and not
only as many of them. -/
theorem filter_isStranded_runCalls (h : InOrder s) (calls : List Call) :
    InOrder (runCalls s calls) ∧
      (rows (runCalls s calls).database).filter TaskRow.isStranded =
        (rows s.database).filter fun r => r.isStranded && !calls.any (·.reportsOn r) := by
  induction calls generalizing s with
  | nil => exact ⟨h, by simp [runCalls]⟩
  | cons c rest ih =>
    obtain ⟨hnext, hmoves⟩ := h.run c
    obtain ⟨hlast, hrest⟩ := ih hnext
    refine ⟨hlast, ?_⟩
    let unreported (r : TaskRow) : Bool := !rest.any (·.reportsOn r)
    calc (rows (runCalls (c.run s).2 rest).database).filter TaskRow.isStranded
        = (rows (c.run s).2.database).filter (fun r => r.isStranded && unreported r) := hrest
      _ = ((rows (c.run s).2.database).filter TaskRow.isStranded).filter unreported := by
          rw [List.filter_filter]
          exact List.filter_congr fun r _ => Bool.and_comm _ _
      _ = ((rows s.database).filter fun r => r.isStranded && !c.reportsOn r).filter
            unreported := by rw [hmoves.filter_isStranded]
      _ = (rows s.database).filter fun r => r.isStranded && !(c :: rest).any (·.reportsOn r) := by
          rw [List.filter_filter]
          refine List.filter_congr fun r _ => ?_
          rw [List.any_cons, Bool.not_or, Bool.and_comm, Bool.and_assoc]

/-! ### Leases that end -/

/-- Whether all leases in rows have ended by an instant. -/
def LeasesEndBy (n : Instant) (rows : List TaskRow) : Prop :=
  ∀ r ∈ rows, ∀ lease, r.leaseExpiresAt = some lease → lease ≤ n.text

variable {n : Instant}

/-- A row has no other lease than it had, unless the call asks for one. -/
theorem RowMove.leaseEndsBy {q r : TaskRow} (h : RowMove c q r)
    (hasked : ∀ deadline, c.deadline? = some deadline → deadline.text ≤ n.text)
    (hbefore : ∀ lease, q.leaseExpiresAt = some lease → lease ≤ n.text) :
    ∀ lease, r.leaseExpiresAt = some lease → lease ≤ n.text := by
  cases h with
  | stays _ => exact hbefore
  | released _ _ => simp [TaskRow.released]
  | handedOut hdeadline _ =>
    intro lease hlease
    obtain rfl := Option.some.inj hlease
    exact hasked _ hdeadline
  | completed _ _ => simp [TaskRow.completed]

theorem RowMoves.leasesEndBy {before after : List TaskRow} (h : RowMoves c before after)
    (hasked : ∀ deadline, c.deadline? = some deadline → deadline.text ≤ n.text)
    (hbefore : LeasesEndBy n before) : LeasesEndBy n after := by
  obtain ⟨moved, hmoved, hafter⟩ := h
  have hkept : LeasesEndBy n moved := by
    intro r hr
    obtain ⟨q, hq, hmove⟩ := exists_of_mem_right hmoved hr
    exact hmove.leaseEndsBy hasked (hbefore q hq)
  rcases hafter with rfl | ⟨t, rfl, -⟩
  · exact hkept
  · intro r hr
    rcases List.mem_append.1 hr with hr | hr
    · exact hkept r hr
    · rw [List.mem_singleton.1 hr]
      simp [TaskRow.ofTask]

/-- **Leases that are asked for in a run are all that end later.** So a requeue can be late enough
for all of them. -/
theorem leasesEndBy_runCalls (h : InOrder s) (hbefore : LeasesEndBy n (rows s.database))
    {calls : List Call}
    (hasked : ∀ c ∈ calls, ∀ deadline, c.deadline? = some deadline → deadline.text ≤ n.text) :
    LeasesEndBy n (rows (runCalls s calls).database) := by
  induction calls generalizing s with
  | nil => exact hbefore
  | cons c rest ih =>
    obtain ⟨hnext, hmoves⟩ := h.run c
    exact ih hnext (hmoves.leasesEndBy (hasked c (by simp)) hbefore)
      fun d hd => hasked d (by simp [hd])

/-- Once all leases have ended, taking them back leaves in progress what has none. -/
theorem filter_isInProgress_requeue (h : InOrder s) (hended : LeasesEndBy n (rows s.database)) :
    (rows (s.requeue n).2.database).filter TaskRow.isInProgress =
      (rows s.database).filter TaskRow.isStranded := by
  rw [requeue_eq h.table h.triggers]
  have hmap : List.Forall₂ (fun q r => q ∈ rows s.database ∧ r = requeuedRow n q)
      (rows s.database) ((rows s.database).map (requeuedRow n)) := by
    rw [List.forall₂_map_right_iff, List.forall₂_same]
    exact fun r hr => ⟨hr, rfl⟩
  refine filter_eq_of_forall₂ hmap ?_
  rintro q r ⟨hq, rfl⟩
  refine ⟨?_, fun hstranded => (requeuedRow_of_isStranded hstranded n).symm⟩
  unfold requeuedRow TaskRow.isStranded
  cases hlease : q.leaseExpiresAt with
  | none => simp [TaskRow.hasEndedLease, hlease]
  | some lease =>
    have htext := hended q hq lease hlease
    by_cases hstatus : q.status = TaskStatus.inProgress.text
    · have hover : q.hasEndedLease n.text = true := by
        simpa [TaskRow.hasEndedLease, hlease, TaskStatus.text, htext] using hstatus
      rw [if_pos hover]
      simp [TaskRow.isInProgress, TaskRow.released, TaskStatus.text]
    · have hrunning : q.hasEndedLease n.text = false := by
        simpa [TaskRow.hasEndedLease, TaskStatus.text] using fun h => absurd h hstatus
      rw [if_neg (by simp [hrunning])]
      simp [TaskRow.isInProgress, hstatus]

/-- Without leases, taking back changes nothing. -/
theorem requeue_of_unleased (h : InOrder s)
    (hnone : ∀ r ∈ rows s.database, r.leaseExpiresAt = none) (at_ : Instant) :
    s.requeue at_ = (.ok 0, s) := by
  have hrunning : ∀ r ∈ rows s.database, r.hasEndedLease at_.text = false := by
    intro r hr
    simp [TaskRow.hasEndedLease, hnone r hr]
  have hfilter : (rows s.database).filter (·.hasEndedLease at_.text) = [] :=
    List.filter_eq_nil_iff.2 fun r hr => by simp [hrunning r hr]
  have hmap : (rows s.database).map (requeuedRow at_) = rows s.database := by
    refine (List.map_congr_left fun r hr => ?_).trans (List.map_id _)
    rw [requeuedRow, if_neg (by simp [hrunning r hr]), id]
  have hself : s.withRows (rows s.database) = s := by
    unfold withRows Database.withRows
    rw [← h.table]
  rw [requeue_eq h.table h.triggers, hfilter, hmap, hself, List.length_nil]

end DatabaseStore

/-! ### Upgrades from the first version -/

/-- A database of the first version is opened with the same tasks, none of them with a lease. -/
theorem Database.IsAtVersion.exists_inOrder {db : Database} (h : db.IsAtVersion 1) :
    ∃ s, DatabaseStore.open_ db = (.ok s, s.database) ∧ s.InOrder ∧
      DatabaseStore.rows s.database = db.taskRows ∧ ∀ r ∈ db.taskRows, r.leaseExpiresAt = none := by
  obtain ⟨s, -, hopen, hupgrades, -⟩ := h.exists_open
  have htasks := hupgrades.tasks
  rw [← h.taskRows_eq] at htasks
  have hrows : DatabaseStore.rows s.database = db.taskRows := by rw [DatabaseStore.rows, htasks]
  refine ⟨s, hopen, ⟨by rw [htasks, hrows], hupgrades.triggers⟩, hrows, fun r hr => ?_⟩
  rw [h.taskRows_eq, List.mem_map] at hr
  obtain ⟨q, -, rfl⟩ := hr
  rfl

/-- **Tasks that were in progress before there were leases stay so.** A database of the first
version is opened with its tasks, and a requeue takes back none of them, however late it is. Nor
does any later run: after a requeue at which all leases of the run have ended, just those tasks are
in progress that were so before the upgrade, and for which no result has come. -/
theorem unfinished_tasks_without_lease_stay {db : Database} (h : db.IsAtVersion 1)
    {calls : List Call} {n : Instant} (hplain : n.IsPlain)
    (hproper : ∀ c ∈ calls, c.now.IsProper)
    (hlate : ∀ c ∈ calls, ∀ deadline, c.deadline? = some deadline → deadline.HasPlainYear →
      deadline.atMost n = true) :
    ∃ s, DatabaseStore.open_ db = (.ok s, s.database) ∧
      DatabaseStore.rows s.database = db.taskRows ∧ (∀ at_, s.requeue at_ = (.ok 0, s)) ∧
      (DatabaseStore.rows ((runCalls s calls).requeue n).2.database).filter TaskRow.isInProgress =
        db.taskRows.filter fun r => r.isInProgress && !calls.any (·.reportsOn r) := by
  obtain ⟨s, hopen, horder, hrows, hnone⟩ := h.exists_inOrder
  rw [← hrows] at hnone ⊢
  refine ⟨s, hopen, rfl, DatabaseStore.requeue_of_unleased horder hnone, ?_⟩
  have hasked : ∀ c ∈ calls, ∀ deadline, c.deadline? = some deadline →
      deadline.text ≤ n.text := by
    intro c hc deadline hdeadline
    by_cases hyear : deadline.HasPlainYear
    · obtain ⟨lease, -, hadd⟩ := c.exists_lease hdeadline
      have hend : deadline.IsPlain := ((hproper c hc).of_add? hadd).isPlain hyear
      exact (hend.text_le_text_iff hplain).2 (hlate c hc deadline hdeadline hyear)
    · exact (Instant.text_lt_text_of_year hyear hplain).le
  have hbefore : DatabaseStore.LeasesEndBy n (DatabaseStore.rows s.database) := by
    intro r hr lease hlease
    simp [hnone r hr] at hlease
  obtain ⟨hafter, hstranded⟩ := DatabaseStore.filter_isStranded_runCalls horder calls
  rw [DatabaseStore.filter_isInProgress_requeue hafter
    (DatabaseStore.leasesEndBy_runCalls horder hbefore hasked), hstranded]
  refine List.filter_congr fun r hr => ?_
  rw [TaskRow.isStranded, hnone r hr, Option.isNone_none, Bool.and_true]

/-- A task that a worker was handed before there were leases. -/
def startedRow : TaskRow where
  id := some "1"
  owner := 1
  expression := "2+2"
  status := "in_progress"
  createdAt := "2024-01-01T00:00:00.000000000Z"
  startedAt := some "2024-01-01T00:00:01.000000000Z"

/-- A database of the first version with this task. -/
def startedFirstVersion : Database :=
  { firstVersion with tasks := .table firstTaskColumns [startedRow] }

/-- The task is still in progress at the end of the year 9999, although a worker has asked for
tasks. -/
theorem unfinished_tasks_without_lease_stay_claimed :
    startedFirstVersion.IsAtVersion 1 ∧ (⟨253402300799, 0⟩ : Instant).IsPlain ∧
      ∃ s, DatabaseStore.open_ startedFirstVersion = (.ok s, s.database) ∧
        (DatabaseStore.rows ((runCalls s [claimAt 1700000002]).requeue
          ⟨253402300799, 0⟩).2.database).filter TaskRow.isInProgress = [startedRow] := by
  have hversion : startedFirstVersion.IsAtVersion 1 := isAtVersion_firstVersion _
  have hplain : (⟨253402300799, 0⟩ : Instant).IsPlain := isPlain_of_seconds (by decide) le_rfl
  have hproper : ∀ c ∈ [claimAt 1700000002], c.now.IsProper := by decide
  have hlate : ∀ c ∈ [claimAt 1700000002], ∀ deadline, c.deadline? = some deadline →
      deadline.HasPlainYear → deadline.atMost ⟨253402300799, 0⟩ = true := by
    intro c hc deadline hdeadline _
    obtain rfl := List.mem_singleton.1 hc
    obtain rfl : (⟨1700000062, 0⟩ : Instant) = deadline := by
      have hasked : (claimAt 1700000002).deadline? = some ⟨1700000062, 0⟩ := by decide
      exact Option.some.inj (hasked.symm.trans hdeadline)
    decide
  obtain ⟨s, hopen, -, -, hstay⟩ :=
    unfinished_tasks_without_lease_stay hversion hplain hproper hlate
  exact ⟨hversion, hplain, s, hopen, hstay.trans (by decide)⟩

/-- After the upgrade of this database no requeue takes the task back and no claim hands it out,
whatever the time is. -/
theorem upgrade_strands_started_task :
    startedFirstVersion.IsAtVersion 1 ∧
      ∃ s, DatabaseStore.open_ startedFirstVersion = (.ok s, s.database) ∧
        ∀ at_, ∃ after, s.requeue at_ = (.ok 0, after) ∧
          DatabaseStore.rows after.database = [startedRow] ∧ startedRow.isInProgress = true ∧
          ∀ now lease deadline, now.add? lease = some deadline →
            (after.claim now lease).1 = .ok none := by
  have hversion : startedFirstVersion.IsAtVersion 1 := isAtVersion_firstVersion _
  obtain ⟨s, hopen, horder, hrows, hnone⟩ := hversion.exists_inOrder
  rw [← hrows] at hnone
  have hrequeue := DatabaseStore.requeue_of_unleased horder hnone
  have honly : startedFirstVersion.taskRows = [startedRow] := by decide
  rw [honly] at hrows
  have hpending : DatabaseStore.oldestPending [startedRow] = none := by decide
  refine ⟨hversion, s, hopen, fun at_ => ⟨s, hrequeue at_, hrows, by decide, ?_⟩⟩
  intro now lease deadline hdeadline
  have hswept : s.withRows ((DatabaseStore.rows s.database).map
      (DatabaseStore.requeuedRow now)) = s := by
    exact congrArg Prod.snd ((DatabaseStore.requeue_eq horder.table horder.triggers now).symm.trans
      (hrequeue now))
  rw [horder.claim_eq hdeadline, hswept, DatabaseStore.handOutNext]
  have hnext : DatabaseStore.isNext s.database = fun _ => false := by
    funext r
    rw [DatabaseStore.isNext, hrows, hpending]
  simp [hnext, DatabaseStore.changedAnswer]

end ArithService
