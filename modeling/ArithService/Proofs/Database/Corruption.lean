import Mathlib
import ArithService.Proofs.Database.Sweeps

/-!
# Corrupt rows stay isolated

A row whose status is no known word cannot be read as a task. Nothing but a look at this very task
notices it: workers, sweeps and lists work on the other rows as if it were not there.

## Main Definitions

* `TaskRow.isCorrupt` — rows that cannot be read
* `DatabaseStore.withoutCorrupt` — a store without them
* `Call.Avoids` — the calls of workers, sweeps and readers that leave corrupt rows aside
* `DatabaseStore.Changes` — a change of a store, and of the store without its corrupt rows

## Main Results

* `DatabaseStore.InOrder.change` — a change of rows that are not corrupt
* `DatabaseStore.InOrder.run_apart` — a call on both stores
* `corrupt_rows_stay_isolated` — all runs

## Design Notes

Statements compare whole texts, and reading stops at the first zero character. So it is the text
that is read of a status that tells whether a row is corrupt, and every row whose status a statement
looks for is not corrupt (`TaskRow.isCorrupt_of_status`).
-/

namespace ArithService

/-! ### Rows -/

namespace TaskRow

/-- Whether a row cannot be read, because its status is no known word. -/
def isCorrupt (r : TaskRow) : Bool := (TaskStatus.ofText? (textRead r.status)).isNone

/-- A row with one of the three words for its status is not corrupt. Every statement of a worker or
a sweep asks for one of them. -/
theorem isCorrupt_of_status {r : TaskRow} (status : TaskStatus) (h : r.status = status.text) :
    r.isCorrupt = false := by
  simp [isCorrupt, h, status.isZeroFree_text.textRead]

/-- Corrupt rows are not read. -/
theorem toTask_of_isCorrupt {r : TaskRow} (h : r.isCorrupt = true) :
    ∃ f, r.toTask = .error f := by
  rw [isCorrupt, Option.isNone_iff_eq_none] at h
  simp [toTask, h]

/-- All other rows with an identifier are. Times and texts that make no sense are read somehow, and
only the status and the identifier are not. -/
theorem exists_toTask {r : TaskRow} (hintact : r.isCorrupt = false) (hid : r.id.isSome) :
    ∃ t, r.toTask = .ok t := by
  obtain ⟨id, hid⟩ := Option.isSome_iff_exists.1 hid
  obtain ⟨status, hstatus⟩ : ∃ status, TaskStatus.ofText? (textRead r.status) = some status := by
    simpa [isCorrupt, ← Option.isSome_iff_exists] using hintact
  simp [toTask, hstatus, hid]

/-- The place of an identifier among all; that of none is the lowest. -/
def idPlace : Option String → WithBot String
  | none => ⊥
  | some id => id

/-- Identifiers are ordered by their places. The table lets a row have none, so there is a place
below all texts. -/
theorem idBefore_iff {a b : Option String} : idBefore a b = true ↔ idPlace a < idPlace b := by
  cases a <;> cases b <;> simp [idBefore, idPlace]

theorem idPlace_injective : Function.Injective idPlace := by
  intro a b h
  cases a <;> cases b <;> simp_all [idPlace]

/-- The age of a row. -/
def age (r : TaskRow) : String ×ₗ WithBot String := toLex (r.createdAt, idPlace r.id)

/-- Rows are ordered by age, which makes the order of lists and claims a linear one of pairs. -/
theorem before_iff_age {a b : TaskRow} : a.before b = true ↔ a.age < b.age := by
  rw [age, age, Prod.Lex.toLex_lt_toLex, before, Bool.or_eq_true, Bool.and_eq_true,
    decide_eq_true_eq, decide_eq_true_eq, idBefore_iff]

theorem not_before_iff {a b : TaskRow} : (!a.before b) = true ↔ b.age ≤ a.age := by
  rw [Bool.not_eq_true', Bool.eq_false_iff, Ne, before_iff_age, not_lt]

/-- Rows of the same age have the same identifier, so where identifiers differ no two rows are of
one age and there is one order only. -/
theorem id_eq_of_age {a b : TaskRow} (h : a.age = b.age) : a.id = b.id :=
  idPlace_injective (Prod.mk.inj (toLex.injective h)).2

end TaskRow

/-! ### Stores -/

namespace DatabaseStore

/-- The rows that cannot be read. -/
def corruptRows (s : DatabaseStore) : List TaskRow := (rows s.database).filter (·.isCorrupt)

/-- The other rows. -/
def intactRows (s : DatabaseStore) : List TaskRow := (rows s.database).filter (!·.isCorrupt)

/-- A store without its corrupt rows. -/
def withoutCorrupt (s : DatabaseStore) : DatabaseStore := s.withRows s.intactRows

/-- A store whose rows all have an identifier, each its own. -/
structure HasIds (s : DatabaseStore) : Prop where
  present : ∀ r ∈ rows s.database, r.id.isSome
  distinct : ((rows s.database).map (·.id)).Nodup

variable {s : DatabaseStore}

theorem HasIds.eq_of_id (h : HasIds s) {q r : TaskRow} (hq : q ∈ rows s.database)
    (hr : r ∈ rows s.database) (hid : q.id = r.id) : q = r :=
  List.inj_on_of_nodup_map h.distinct hq hr hid

/-- A change of a store leads to another one, and to the same without the corrupt rows. These are
as before. -/
structure Changes (s after part : DatabaseStore) : Prop where
  part : after.withoutCorrupt = part
  corrupt : after.corruptRows = s.corruptRows
  inOrder : InOrder after
  ids : HasIds after

theorem Changes.none (h : InOrder s) (hids : HasIds s) : Changes s s s.withoutCorrupt :=
  ⟨rfl, rfl, h, hids⟩

/-- One change after the other is a change. A claim is one of leases and one of the row that is
handed out. -/
theorem Changes.trans {first after part part₂ : DatabaseStore} (h : Changes s first part)
    (hnext : Changes first after part₂) : Changes s after part₂ :=
  ⟨hnext.part, hnext.corrupt.trans h.corrupt, hnext.inOrder, hnext.ids⟩

/-- **A change of rows that are not corrupt does not touch the others**, and leads to what it would
lead to without them. All that is asked of a statement is that it changes no corrupt row, makes no
row corrupt and keeps identifiers. Taking back leases, handing out and completing are instances, and
none of them has to look at rows of both kinds again. -/
theorem InOrder.change (h : InOrder s) (hids : HasIds s) (p : TaskRow → Prop) [DecidablePred p]
    {change : TaskRow → TaskRow} (hid : ∀ r, (change r).id = r.id)
    (hintact : ∀ r ∈ DatabaseStore.rows s.database, p r →
      r.isCorrupt = false ∧ (change r).isCorrupt = false) :
    Changes s
      (s.withRows ((DatabaseStore.rows s.database).map fun r => if p r then change r else r))
      (s.withRows (s.intactRows.map fun r => if p r then change r else r)) := by
  have hsame : ∀ r ∈ DatabaseStore.rows s.database,
      (if p r then change r else r).isCorrupt = r.isCorrupt := by
    intro r hr
    split_ifs with hp
    · rw [(hintact r hr hp).1, (hintact r hr hp).2]
    · rfl
  have hsameId : ∀ r, (if p r then change r else r).id = r.id := by
    intro r
    split_ifs
    · exact hid r
    · rfl
  refine ⟨?_, ?_, h.withRows _, ⟨?_, ?_⟩⟩
  · show s.withRows (((DatabaseStore.rows s.database).map _).filter _) = _
    rw [List.filter_map, intactRows]
    congr 2
    refine List.filter_congr fun r hr => ?_
    rw [Function.comp_apply, hsame r hr]
  · show ((DatabaseStore.rows s.database).map _).filter _ = (DatabaseStore.rows s.database).filter _
    have hselected : (DatabaseStore.rows s.database).filter
        ((·.isCorrupt) ∘ fun r => if p r then change r else r) =
          (DatabaseStore.rows s.database).filter (·.isCorrupt) :=
      List.filter_congr fun r hr => hsame r hr
    rw [List.filter_map, hselected]
    refine (List.map_congr_left fun r hr => if_neg fun hp => ?_).trans (List.map_id _)
    obtain ⟨hr, hcorrupt⟩ := List.mem_filter.1 hr
    simp [(hintact r hr hp).1] at hcorrupt
  · intro r hr
    obtain ⟨q, hq, rfl⟩ := List.mem_map.1 hr
    rw [hsameId]
    exact hids.present q hq
  · show (((DatabaseStore.rows s.database).map _).map _).Nodup
    rw [List.map_map]
    exact (List.map_congr_left fun r _ => hsameId r) ▸ hids.distinct

/-! ### Workers and sweeps -/

/-- A row whose lease can end is not corrupt, as its status says that it is in progress. -/
theorem isCorrupt_of_hasEndedLease {r : TaskRow} {at_ : String} (h : r.hasEndedLease at_ = true) :
    r.isCorrupt = false := by
  simp only [TaskRow.hasEndedLease, Bool.and_eq_true, decide_eq_true_eq] at h
  exact TaskRow.isCorrupt_of_status .inProgress h.1

theorem InOrder.change_requeue (h : InOrder s) (hids : HasIds s) (at_ : Instant) :
    Changes s (s.withRows ((DatabaseStore.rows s.database).map (requeuedRow at_)))
      (s.withRows (s.intactRows.map (requeuedRow at_))) :=
  h.change hids (fun r => r.hasEndedLease at_.text = true) (fun _ => rfl) fun _ _ hended =>
    ⟨isCorrupt_of_hasEndedLease hended, TaskRow.isCorrupt_of_status .pending rfl⟩

/-- A condition that no corrupt row meets selects the same rows without them, and so counts as
many. -/
theorem filter_intactRows {p : TaskRow → Bool} (hp : ∀ r, p r = true → r.isCorrupt = false) :
    s.intactRows.filter p = (rows s.database).filter p := by
  rw [intactRows, List.filter_filter]
  refine List.filter_congr fun r _ => ?_
  cases hselected : p r with
  | false => rfl
  | true => rw [hp r hselected]; rfl

/-- The same row is handed out. The statement looks for the oldest pending row, and corrupt rows are
not pending, however old they are. -/
theorem isNext_withoutCorrupt : isNext s.withoutCorrupt.database = isNext s.database := by
  have hpending := filter_intactRows (s := s)
    (p := fun r => decide (r.status = TaskStatus.pending.text)) fun r hpending =>
      TaskRow.isCorrupt_of_status .pending (of_decide_eq_true hpending)
  have holdest : oldestPending (rows s.withoutCorrupt.database) =
      oldestPending (rows s.database) := by
    show oldestPending s.intactRows = _
    rw [oldestPending, oldestPending, hpending]
  funext r
  rw [isNext, isNext, holdest]

theorem isCorrupt_of_isNext {db : Database} {r : TaskRow} (h : isNext db r = true) :
    r.isCorrupt = false :=
  TaskRow.isCorrupt_of_status .pending (status_of_isNext h)

/-- Handing out the next task, without leases being taken back before, is done and answered
alike. -/
theorem InOrder.handOutNext_apart (h : InOrder s) (hids : HasIds s) (now deadline : Instant) :
    (handOutNext now deadline s).1 = (handOutNext now deadline s.withoutCorrupt).1 ∧
      Changes s (handOutNext now deadline s).2
        (handOutNext now deadline s.withoutCorrupt).2 := by
  rw [handOutNext, handOutNext, isNext_withoutCorrupt]
  refine ⟨?_, h.change hids (fun r => isNext s.database r = true) (fun _ => rfl) fun _ _ hnext =>
    ⟨isCorrupt_of_isNext hnext, TaskRow.isCorrupt_of_status .inProgress rfl⟩⟩
  show _ = changedAnswer ((s.intactRows.filter (isNext s.database)).map _)
  rw [filter_intactRows fun _ => isCorrupt_of_isNext]

/-- **A claim hands out what it would without corrupt rows.** It takes back leases first, so it is
one change after another. -/
theorem InOrder.claim_apart (h : InOrder s) (hids : HasIds s) (now : Instant) (lease : Span) :
    (s.claim now lease).1 = (s.withoutCorrupt.claim now lease).1 ∧
      Changes s (s.claim now lease).2 (s.withoutCorrupt.claim now lease).2 := by
  cases hdeadline : now.add? lease with
  | none =>
    simp only [DatabaseStore.claim, hdeadline]
    exact ⟨trivial, .none h hids⟩
  | some deadline =>
    have hswept := h.change_requeue hids now
    have hpart : InOrder s.withoutCorrupt := h.withRows _
    rw [h.claim_eq hdeadline, hpart.claim_eq hdeadline]
    have hsame : s.withoutCorrupt.withRows
        ((DatabaseStore.rows s.withoutCorrupt.database).map (requeuedRow now)) =
          (s.withRows ((DatabaseStore.rows s.database).map (requeuedRow now))).withoutCorrupt :=
      hswept.part.symm
    obtain ⟨hanswer, hchanges⟩ := hswept.inOrder.handOutNext_apart hswept.ids now deadline
    rw [hsame]
    exact ⟨hanswer, hswept.trans hchanges⟩

theorem InOrder.requeue_apart (h : InOrder s) (hids : HasIds s) (at_ : Instant) :
    (s.requeue at_).1 = (s.withoutCorrupt.requeue at_).1 ∧
      Changes s (s.requeue at_).2 (s.withoutCorrupt.requeue at_).2 := by
  have hpart : InOrder s.withoutCorrupt := h.withRows _
  rw [requeue_eq h.table h.triggers, requeue_eq hpart.table hpart.triggers]
  refine ⟨?_, h.change_requeue hids at_⟩
  show _ = Except.ok (s.intactRows.filter _).length
  rw [filter_intactRows fun _ => isCorrupt_of_hasEndedLease]

/-! ### Single tasks -/

/-- Whether an identifier is that of no corrupt row. -/
def AvoidsId (s : DatabaseStore) (id : String) : Prop := ∀ r ∈ s.corruptRows, r.id ≠ some id

theorem AvoidsId.isCorrupt_eq {id : String} (h : AvoidsId s id) {r : TaskRow}
    (hr : r ∈ rows s.database) (hid : r.id = some id) : r.isCorrupt = false :=
  Bool.eq_false_iff.2 fun hcorrupt => h r (List.mem_filter.2 ⟨hr, hcorrupt⟩) hid

/-- A row that is not corrupt is found without the corrupt ones, as none of these comes in
between. -/
theorem AvoidsId.find?_intactRows {id : String} (h : AvoidsId s id) :
    s.intactRows.find? (·.id = some id) = (rows s.database).find? (·.id = some id) := by
  rw [intactRows, List.find?_filter]
  refine List.find?_congr fun r hr => ?_
  by_cases hid : r.id = some id
  · simp [hid, h.isCorrupt_eq hr hid]
  · simp [hid]

theorem InOrder.complete_apart (h : InOrder s) (hids : HasIds s) {id : String}
    (hid : AvoidsId s id) (now : Instant) (x : Binary64) :
    (s.complete now id x).1 = (s.withoutCorrupt.complete now id x).1 ∧
      Changes s (s.complete now id x).2 (s.withoutCorrupt.complete now id x).2 := by
  have hpart : InOrder s.withoutCorrupt := h.withRows _
  rw [h.complete_eq, hpart.complete_eq]
  refine ⟨?_, h.change hids (fun r => r.id = some id) (fun _ => rfl) fun r hr hfound =>
    ⟨hid.isCorrupt_eq hr hfound, TaskRow.isCorrupt_of_status .completed rfl⟩⟩
  show _ = if s.intactRows.any _ then _ else _
  rw [← List.isSome_find?, ← List.isSome_find?, hid.find?_intactRows]

/-- A look at a task reads its row, and no other. -/
theorem InOrder.get_eq (h : InOrder s) (id : String) :
    s.get id = match (DatabaseStore.rows s.database).find? (·.id = some id) with
      | none => .error (.noTask id)
      | some r => r.toTask.mapError fun f => .query ("row_to_task: " ++ f.message) := by
  rw [DatabaseStore.get, Database.readTasks_eq h.table]
  cases hfind : (DatabaseStore.rows s.database).find? (fun r => decide (r.id = some id)) with
  | none => simp only [hfind]
  | some r => cases htask : r.toTask <;> simp only [hfind, htask, Except.mapError]

theorem InOrder.get_apart (h : InOrder s) {id : String} (hid : AvoidsId s id) :
    s.get id = s.withoutCorrupt.get id := by
  have hpart : InOrder s.withoutCorrupt := h.withRows _
  rw [h.get_eq, hpart.get_eq]
  show _ = match s.intactRows.find? _ with | none => _ | some r => _
  rw [hid.find?_intactRows]

/-- **A look at a task fails just where its row is corrupt.** So a corrupt row is noticed by the one
call that cannot do without it. -/
theorem InOrder.get_eq_query_iff (h : InOrder s) (hids : HasIds s) (id : String) :
    (∃ message, s.get id = .error (.query message)) ↔ ∃ r ∈ s.corruptRows, r.id = some id := by
  rw [h.get_eq]
  constructor
  · rintro ⟨message, hfailed⟩
    cases hfind : (DatabaseStore.rows s.database).find? (fun r => decide (r.id = some id)) with
    | none => simp [hfind, StoreError.noTask] at hfailed
    | some r =>
      have hr := List.mem_of_find?_eq_some hfind
      have hid : r.id = some id := by simpa using List.find?_some hfind
      refine ⟨r, List.mem_filter.2 ⟨hr, ?_⟩, hid⟩
      by_contra hintact
      obtain ⟨t, htask⟩ :=
        TaskRow.exists_toTask (Bool.eq_false_iff.2 hintact) (hids.present r hr)
      simp [hfind, htask, Except.mapError] at hfailed
  · rintro ⟨r, hr, hid⟩
    obtain ⟨hr, hcorrupt⟩ := List.mem_filter.1 hr
    -- There is only one row with this identifier.
    have hfind : (DatabaseStore.rows s.database).find? (fun r => decide (r.id = some id)) =
        some r := by
      cases hfirst : (DatabaseStore.rows s.database).find? (fun r => decide (r.id = some id)) with
      | none => simpa [hid] using List.find?_eq_none.1 hfirst r hr
      | some q =>
        have hq : q.id = some id := by simpa using List.find?_some hfirst
        rw [hids.eq_of_id (List.mem_of_find?_eq_some hfirst) hr (hq.trans hid.symm)]
    obtain ⟨f, hfault⟩ := TaskRow.toTask_of_isCorrupt hcorrupt
    exact ⟨"row_to_task: " ++ f.message, by simp only [hfind, hfault, Except.mapError]⟩

/-! ### Lists -/

/-- Sorting puts later rows first, which needs the order of ages to be total. -/
theorem pairwise_mergeSort_before (rs : List TaskRow) :
    (rs.mergeSort fun a b => !a.before b).Pairwise fun a b => b.age ≤ a.age := by
  refine (List.pairwise_mergeSort (fun a b c hab hbc => ?_) (fun a b => ?_) rs).imp
    fun h => TaskRow.not_before_iff.1 h
  · rw [TaskRow.not_before_iff] at *
    exact hbc.trans hab
  · rw [Bool.or_eq_true, TaskRow.not_before_iff, TaskRow.not_before_iff]
    exact le_total _ _

/-- Rows with different identifiers have one order, so leaving some out before or after sorting is
the same. -/
theorem HasIds.filter_mergeSort (hids : HasIds s) {rs : List TaskRow}
    (hrows : ∀ r ∈ rs, r ∈ rows s.database) (p : TaskRow → Bool) :
    (rs.mergeSort fun a b => !a.before b).filter p =
      (rs.filter p).mergeSort fun a b => !a.before b := by
  have hperm : ((rs.mergeSort fun a b => !a.before b).filter p).Perm
      ((rs.filter p).mergeSort fun a b => !a.before b) :=
    ((List.mergeSort_perm _ _).filter p).trans (List.mergeSort_perm _ _).symm
  refine hperm.eq_of_pairwise (fun a b ha hb hba hab => ?_)
    ((pairwise_mergeSort_before rs).filter p) (pairwise_mergeSort_before (rs.filter p))
  have ha : a ∈ rs := List.mem_mergeSort.1 (List.mem_filter.1 ha).1
  have hb : b ∈ rs := (List.mem_filter.1 (List.mem_mergeSort.1 hb)).1
  exact hids.eq_of_id (hrows a ha) (hrows b hb) (TaskRow.id_eq_of_age (le_antisymm hab hba))

/-- A list leaves corrupt rows out, also those of its owner, and has all other tasks in the same
order. -/
theorem InOrder.list_apart (h : InOrder s) (hids : HasIds s) (owner : Int) :
    s.list owner = s.withoutCorrupt.list owner := by
  have hpart : InOrder s.withoutCorrupt := h.withRows _
  have hown : s.intactRows.filter (fun r => decide (r.owner = owner)) =
      ((DatabaseStore.rows s.database).filter fun r => decide (r.owner = owner)).filter
        (!·.isCorrupt) := by
    rw [intactRows, List.filter_filter, List.filter_filter]
    exact List.filter_congr fun r _ => Bool.and_comm _ _
  -- Rows that cannot be read are left out of lists anyway.
  have hread : ∀ rs : List TaskRow, (rs.filter (!·.isCorrupt)).filterMap
      (fun r => r.toTask.toOption) = rs.filterMap fun r => r.toTask.toOption := by
    intro rs
    rw [List.filterMap_filter]
    refine List.filterMap_congr fun r _ => ?_
    cases hcorrupt : r.isCorrupt with
    | false => rfl
    | true =>
      obtain ⟨f, hfault⟩ := TaskRow.toTask_of_isCorrupt hcorrupt
      simp [hfault, Except.toOption]
  rw [DatabaseStore.list, DatabaseStore.list, Database.readTasks_eq h.table,
    Database.readTasks_eq hpart.table]
  show Except.ok _ = Except.ok (((s.intactRows.filter _).mergeSort _).filterMap _)
  rw [hown, ← hids.filter_mergeSort fun r hr => (List.mem_filter.1 hr).1, hread]

/-! ### Runs -/

end DatabaseStore

open DatabaseStore

/-- A call of a worker, a sweep or a reader, for no task in a corrupt row. -/
def Call.Avoids (c : Call) (s : DatabaseStore) : Prop :=
  match c.command with
  | .claim _ | .requeue _ | .list _ => True
  | .get id | .complete id _ => AvoidsId s id
  | .enqueue _ _ _ | .createUser _ _ | .findUser _ => False

namespace DatabaseStore

variable {s : DatabaseStore} {c : Call}

/-- **A call is answered as if the corrupt rows were not there**, and does not touch them. -/
theorem InOrder.run_apart (h : InOrder s) (hids : HasIds s) (havoids : c.Avoids s) :
    (c.run s).1 = (c.run s.withoutCorrupt).1 ∧
      Changes s (c.run s).2 (c.run s.withoutCorrupt).2 := by
  obtain ⟨now, command⟩ := c
  cases command with
  | claim lease =>
    obtain ⟨hanswer, hchanges⟩ := h.claim_apart hids now lease
    exact ⟨congrArg (StoreAnswer.ofResult .claimed) hanswer, hchanges⟩
  | requeue at_ =>
    obtain ⟨hanswer, hchanges⟩ := h.requeue_apart hids at_
    exact ⟨congrArg (StoreAnswer.ofResult .count) hanswer, hchanges⟩
  | complete id x =>
    obtain ⟨hanswer, hchanges⟩ := h.complete_apart hids havoids now x
    exact ⟨congrArg (StoreAnswer.ofResult fun _ => .done) hanswer, hchanges⟩
  | get id =>
    exact ⟨congrArg (StoreAnswer.ofResult .task) (h.get_apart havoids), .none h hids⟩
  | list owner =>
    exact ⟨congrArg (StoreAnswer.ofResult .tasks) (h.list_apart hids owner), .none h hids⟩
  | enqueue _ _ _ => exact havoids.elim
  | createUser _ _ => exact havoids.elim
  | findUser _ => exact havoids.elim

/-- What is to be avoided stays the same, as no row becomes corrupt and none ceases to be. So
conditions on a run can be stated at its start. -/
theorem Changes.avoids {after part : DatabaseStore} (h : Changes s after part)
    (havoids : c.Avoids s) : c.Avoids after := by
  have hid : ∀ id, AvoidsId s id → AvoidsId after id := by
    intro id havoidsId
    rwa [AvoidsId, h.corrupt]
  obtain ⟨now, command⟩ := c
  cases command with
  | get id => exact hid id havoids
  | complete id _ => exact hid id havoids
  | claim _ => trivial
  | requeue _ => trivial
  | list _ => trivial
  | enqueue _ _ _ => exact havoids.elim
  | createUser _ _ => exact havoids.elim
  | findUser _ => exact havoids.elim

/-- So is a whole run, by induction over its calls: what one call leaves is in order again. -/
theorem InOrder.runCalls_apart (h : InOrder s) (hids : HasIds s) {calls : List Call}
    (havoids : ∀ c ∈ calls, c.Avoids s) :
    answers s calls = answers s.withoutCorrupt calls ∧
      Changes s (runCalls s calls) (runCalls s.withoutCorrupt calls) := by
  induction calls generalizing s with
  | nil => exact ⟨rfl, .none h hids⟩
  | cons c rest ih =>
    obtain ⟨hanswer, hchanges⟩ := h.run_apart hids (havoids c (by simp))
    obtain ⟨hrest, hlater⟩ := ih hchanges.inOrder hchanges.ids fun d hd =>
      hchanges.avoids (havoids d (by simp [hd]))
    rw [hchanges.part] at hrest hlater
    exact ⟨by rw [answers, answers, hanswer, hrest], hchanges.trans hlater⟩

/-- **Corrupt rows stay isolated.** Whatever is in the rows of a table, as long as each has an
identifier of its own: claims, sweeps, lists, and looks at and results for tasks in other rows
have the answers, and leave the store, that they would without the corrupt rows. No corrupt row
changes, and only a look at a task in one of them fails. -/
theorem corrupt_rows_stay_isolated (h : InOrder s) (hids : HasIds s) {calls : List Call}
    (havoids : ∀ c ∈ calls, c.Avoids s) :
    answers s calls = answers s.withoutCorrupt calls ∧
      (runCalls s calls).withoutCorrupt = runCalls s.withoutCorrupt calls ∧
      (runCalls s calls).corruptRows = s.corruptRows ∧
      ∀ id, (∃ message, Store.get id (runCalls s calls) = .error (.query message)) ↔
        ∃ r ∈ s.corruptRows, r.id = some id := by
  obtain ⟨hanswers, hchanges⟩ := h.runCalls_apart hids havoids
  refine ⟨hanswers, hchanges.part, hchanges.corrupt, fun id => ?_⟩
  rw [← hchanges.corrupt]
  exact hchanges.inOrder.get_eq_query_iff hchanges.ids id

/-- A task with a status. -/
def rowWithStatus (id status : String) : TaskRow where
  id := some id
  owner := 1
  expression := "2+2"
  status := status
  createdAt := "2024-01-01T00:00:00.000000000Z"

/-- A task can be claimed and completed behind a corrupt row, which stays as it is. -/
theorem corrupt_rows_stay_isolated_claim :
    InOrder (empty.withRows [rowWithStatus "1" "done", rowWithStatus "2" "pending"]) ∧
      (runCalls (empty.withRows [rowWithStatus "1" "done", rowWithStatus "2" "pending"])
        [claimAt 1700000002, ⟨⟨1700000003, 0⟩, .complete "2" .nan⟩]).corruptRows =
          [rowWithStatus "1" "done"] := by
  have horder : InOrder (empty.withRows [rowWithStatus "1" "done", rowWithStatus "2" "pending"]) :=
    ⟨rfl, rfl⟩
  have hids : HasIds (empty.withRows [rowWithStatus "1" "done", rowWithStatus "2" "pending"]) :=
    ⟨by decide, by decide⟩
  have hcorrupt : (empty.withRows
      [rowWithStatus "1" "done", rowWithStatus "2" "pending"]).corruptRows =
        [rowWithStatus "1" "done"] := by
    decide
  have havoids : ∀ c ∈ [claimAt 1700000002, ⟨⟨1700000003, 0⟩, .complete "2" .nan⟩],
      c.Avoids (empty.withRows [rowWithStatus "1" "done", rowWithStatus "2" "pending"]) := by
    intro c hc
    rcases List.mem_cons.1 hc with rfl | hc
    · trivial
    · rw [List.mem_singleton.1 hc]
      show ∀ r ∈ corruptRows _, r.id ≠ some "2"
      rw [hcorrupt]
      decide
  obtain ⟨-, -, hkept, -⟩ := corrupt_rows_stay_isolated horder hids havoids
  exact ⟨horder, hkept.trans hcorrupt⟩

/-- The word of a status with a zero character and more behind it is no status, but it is read as
the word. -/
theorem status_with_zero_is_read :
    (∀ status : TaskStatus, (rowWithStatus "1" "pending\x00x").status ≠ status.text) ∧
      InOrder (empty.withRows [rowWithStatus "1" "pending\x00x"]) ∧
      HasIds (empty.withRows [rowWithStatus "1" "pending\x00x"]) ∧
      (∃ t, Store.get "1" (empty.withRows [rowWithStatus "1" "pending\x00x"]) = .ok t) ∧
      Store.list 1 (empty.withRows [rowWithStatus "1" "pending\x00x"]) ≠
        Store.list 1 (empty.withRows []) := by
  refine ⟨?_, ⟨rfl, rfl⟩, ⟨by decide, by decide⟩, ⟨(rowWithStatus "1" "pending\x00x").task, ?_⟩, ?_⟩
  · intro status
    cases status <;> decide
  · decide +kernel
  · decide +kernel

end DatabaseStore

end ArithService
