import Mathlib
import ArithService.Shutdown

/-!
# Shutdown is noticed

A waiter that runs after every event is done exactly if shutdown was signalled: by the first
value, by a value sent, or by the sender going away.

## Main Definitions

* `SignalEvent.signalsShutdown` — the events that signal shutdown
* `WatchChannel.IsQuiet` — a channel on which there is nothing to notice
* `Waiter.IsUpToDate` — a waiter that has noticed all that there is

## Design Notes

Values that were sent and not noticed yet are what makes the loop go round, and a channel that
is closed ends it only without them. So the invariant says more than whether the waiter is done:
a waiter that is not done is suspended on a quiet channel (`Waiter.IsUpToDate.event`).
-/

namespace ArithService

/-- Whether an event signals shutdown. -/
def SignalEvent.signalsShutdown : SignalEvent → Bool
  | .send value => value
  | .drop => true

/-- There is nothing to notice: the value is false and was noticed, and the sender is there. -/
def WatchChannel.IsQuiet (channel : WatchChannel) (s : channel.State) : Prop :=
  channel.view s = { value := false, unseen := false, closed := false }

namespace Waiter

variable {channel : WatchChannel} {s : channel.State} {w : Waiter channel}

/-- A waiter that has noticed all that there is: it is done if shutdown is due, and otherwise
suspended on a quiet channel. -/
def IsUpToDate (due : Bool) (w : Waiter channel) : Prop :=
  if due then w = .done else ∃ s, w = .suspended s ∧ channel.IsQuiet s

theorem IsUpToDate.isDone_eq {due : Bool} (h : w.IsUpToDate due) : w.isDone = due := by
  cases due with
  | true =>
    obtain rfl := h
    rfl
  | false =>
    obtain ⟨s, rfl, -⟩ := h
    rfl

/-! ### Running -/

theorem look_of_value (h : (channel.view s).value = true) : look s = .done := by
  rw [look, channel.value_eq, h, if_pos rfl]

theorem look_of_not_value (h : (channel.view s).value = false) : look s = await s := by
  rw [look, channel.value_eq, h]
  rfl

theorem await_eq (s : channel.State) : await s = match channel.notice s with
    | .changed t => look t
    | .closed => .done
    | .pending t => .suspended t := by
  rw [await]
  split <;> simp_all

/-- A value that is unseen makes the waiter look again. By what it finds then, the value counts as
seen. -/
theorem await_of_unseen (h : (channel.view s).unseen = true) :
    ∃ t, await s = look t ∧ channel.view t = { channel.view s with unseen := false } := by
  obtain ⟨t, hnotice, hview⟩ := channel.notice_unseen s h
  exact ⟨t, by rw [await_eq, hnotice], hview⟩

/-- Without a sender, and with nothing to notice, the waiter gives up. Unseen values come first,
even of a sender that is gone. -/
theorem await_of_closed (hseen : (channel.view s).unseen = false)
    (hclosed : (channel.view s).closed = true) : await s = .done := by
  rw [await_eq, channel.notice_closed s hseen hclosed]

/-- On a quiet channel a waiter waits, and the channel stays quiet. -/
theorem await_of_isQuiet (h : channel.IsQuiet s) :
    ∃ t, await s = .suspended t ∧ channel.IsQuiet t := by
  obtain ⟨t, hnotice, hview⟩ := channel.notice_open s (by rw [h]) (by rw [h])
  exact ⟨t, by rw [await_eq, hnotice], hview.trans h⟩

/-! ### Events -/

/-- **The first look.** A waiter is done at once if shutdown is the first value, and suspended
otherwise. -/
theorem isUpToDate_wait (channel : WatchChannel) (start : Bool) :
    (channel.wait start).IsUpToDate start := by
  have hview := channel.view_create start
  cases start with
  | true => exact look_of_value (by rw [hview])
  | false =>
    obtain ⟨t, hawait, hquiet⟩ := await_of_isQuiet hview
    refine ⟨t, ?_, hquiet⟩
    show look (channel.create false) = _
    rw [look_of_not_value (by rw [hview]), hawait]

/-- **One event.** A waiter that runs after an event has noticed it. A waiter that is done is not
run again, and one that is suspended meets the event on a quiet channel, so there is one thing to
notice at most. -/
theorem IsUpToDate.event {due : Bool} (h : w.IsUpToDate due) (e : SignalEvent) :
    (w.after e).poll.IsUpToDate (due || e.signalsShutdown) := by
  cases due with
  | true =>
    obtain rfl := h
    rfl
  | false =>
    obtain ⟨s, rfl, hquiet⟩ := h
    have hopen : (channel.view s).closed = false := by rw [hquiet]
    rw [Bool.false_or]
    show (await (channel.after s e)).IsUpToDate _
    cases e with
    | drop =>
      have hview : channel.view (channel.drop s) = { channel.view s with closed := true } :=
        channel.view_drop s
      exact await_of_closed (by rw [WatchChannel.after, hview, hquiet])
        (by rw [WatchChannel.after, hview])
    | send value =>
      have hafter : channel.after s (.send value) = channel.send value s := by
        rw [WatchChannel.after, hopen]
        rfl
      have hsent := channel.view_send value s hopen
      obtain ⟨t, hlook, hview⟩ := await_of_unseen (s := channel.send value s) (by rw [hsent])
      rw [hsent] at hview
      rw [hafter, hlook]
      -- The value was noticed, so it is the value that decides now.
      cases value with
      | true => exact look_of_value (by rw [hview])
      | false =>
        rw [look_of_not_value (by rw [hview])]
        exact await_of_isQuiet hview

/-- **All events.** After some events a waiter is done if it was before, or if one of them signals
shutdown. The induction is over the events, for a waiter that has noticed whatever came before
them. -/
theorem IsUpToDate.findings_eq {due : Bool} (h : w.IsUpToDate due) {events : List SignalEvent}
    {k : Nat} (hk : k ≤ events.length) :
    (w.findings events)[k]? = some (due || (events.take k).any SignalEvent.signalsShutdown) := by
  induction events generalizing w due k with
  | nil =>
    obtain rfl := Nat.le_zero.1 hk
    simp [findings, h.isDone_eq]
  | cons e events ih =>
    cases k with
    | zero => simp [findings, h.isDone_eq]
    | succ k =>
      rw [findings, List.getElem?_cons_succ, ih (h.event e) (Nat.le_of_succ_le_succ hk),
        List.take_succ_cons, List.any_cons, Bool.or_assoc]

theorem length_findings (w : Waiter channel) (events : List SignalEvent) :
    (w.findings events).length = events.length + 1 := by
  induction events generalizing w with
  | nil => rfl
  | cons e events ih => rw [findings, List.length_cons, ih, List.length_cons]

end Waiter

theorem any_signalsShutdown_iff {events : List SignalEvent} :
    events.any SignalEvent.signalsShutdown = true ↔
      ∃ e ∈ events, e = .send true ∨ e = .drop := by
  rw [List.any_eq_true]
  refine exists_congr fun e => and_congr_right fun _ => ?_
  cases e <;> simp [SignalEvent.signalsShutdown]

/-- **Shutdown is noticed when it is signalled.** On every channel, a waiter that runs after every
event has noticed shutdown after so many of them exactly if the first value was true, or one of
these events sent a true value or was the sender going away. So a false value that is sent changes
no finding, and a waiter that is done stays done. -/
theorem shutdown_is_noticed (channel : WatchChannel) (start : Bool) (events : List SignalEvent) :
    ((channel.wait start).findings events).length = events.length + 1 ∧
      (∀ k ≤ events.length, ((channel.wait start).findings events)[k]? = some true ↔
        start = true ∨ ∃ e ∈ events.take k, e = .send true ∨ e = .drop) ∧
      (∀ k, events[k]? = some (.send false) →
        ((channel.wait start).findings events)[k + 1]? =
          ((channel.wait start).findings events)[k]?) ∧
      ∀ j k, j ≤ k → k ≤ events.length → ((channel.wait start).findings events)[j]? = some true →
        ((channel.wait start).findings events)[k]? = some true := by
  have hfound : ∀ k ≤ events.length, ((channel.wait start).findings events)[k]? =
      some (start || (events.take k).any SignalEvent.signalsShutdown) :=
    fun k hk => (Waiter.isUpToDate_wait channel start).findings_eq hk
  have hiff : ∀ k ≤ events.length, ((channel.wait start).findings events)[k]? = some true ↔
      start = true ∨ ∃ e ∈ events.take k, e = .send true ∨ e = .drop := by
    intro k hk
    rw [hfound k hk, Option.some.injEq, Bool.or_eq_true, any_signalsShutdown_iff]
  refine ⟨Waiter.length_findings _ _, hiff, ?falseValue, ?stays⟩
  case falseValue =>
    intro k hsent
    obtain ⟨hk, hevent⟩ := List.getElem?_eq_some_iff.1 hsent
    rw [hfound (k + 1) hk, hfound k (Nat.le_of_succ_le hk), List.take_add_one, hsent]
    simp [SignalEvent.signalsShutdown]
  case stays =>
    intro j k hle hk hdone
    rw [hiff j (hle.trans hk)] at hdone
    rw [hiff k hk]
    refine hdone.imp_right ?_
    rintro ⟨e, he, hsignals⟩
    exact ⟨e, (List.take_prefix_take_left hle).subset he, hsignals⟩

/-- On a signal that counts the values sent, a false value is passed over, a true value is noticed,
and a false value after it comes too late. -/
theorem shutdown_is_noticed_signal :
    (shutdownSeen false [.send false, .send true, .send false])[1]? ≠ some true ∧
      (shutdownSeen false [.send false, .send true, .send false])[2]? = some true ∧
      (shutdownSeen false [.send false, .send true, .send false])[3]? = some true := by
  obtain ⟨-, hnoticed, -, hstays⟩ :=
    shutdown_is_noticed Signal.channel false [.send false, .send true, .send false]
  have hsecond := (hnoticed 2 (by decide)).2 (by simp)
  refine ⟨fun hfirst => ?_, hsecond, hstays 2 3 (by decide) (by decide) hsecond⟩
  have hsignalled := (hnoticed 1 (by decide)).1 hfirst
  simp at hsignalled

end ArithService
