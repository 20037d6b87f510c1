/-!
# Shutdown signal

A truth value that is watched by everything that has to stop: it starts at some value, is
overwritten any number of times, and its sender may go away.

## Main Definitions

* `WatchChannel` — a channel that keeps the latest value, with what a receiver may rely on
* `Waiter` — somebody who waits on a channel for shutdown
* `Waiter.poll` — letting a waiter run as far as it gets
* `Waiter.findings` — whether a waiter is done, before any event and after each of them
* `Signal`, `Signal.channel` — a channel that counts the values sent
* `shutdownSeen` — the findings of a waiter on such a channel

## Design Notes

A waiter notices changes, not values: after it has looked at a value it waits until there is a
new one, or until there can be no more. A sender that has gone away counts as shutdown, but only
once the latest value has been looked at. How a channel tells seen values from unseen ones is
its own affair, so that the loop of a waiter is written for any channel that keeps the laws of
`WatchChannel`. It ends because a value that was noticed is not noticed again.
-/

namespace ArithService

/-! ### Channels -/

/-- What a receiver can know of a channel. -/
structure SignalView where
  /-- The latest value. -/
  value : Bool
  /-- Whether the receiver has still to notice it. -/
  unseen : Bool
  /-- Whether the sender is gone. -/
  closed : Bool
deriving DecidableEq, Repr

/-- What a receiver is told that asks for a change. -/
inductive Notice (State : Type) where
  /-- There is a value to be noticed, and it counts as noticed from now on. -/
  | changed (s : State)
  /-- There is no such value, and there will be none. -/
  | closed
  /-- There is no such value yet. -/
  | pending (s : State)

/-- A channel for a truth value, as its receiver finds it. -/
structure WatchChannel where
  /-- The channel together with what its receiver has noticed. -/
  State : Type
  view : State → SignalView
  /-- A new channel, whose first value counts as noticed. -/
  create : Bool → State
  send : Bool → State → State
  /-- The sender goes away. -/
  drop : State → State
  /-- Look at the latest value, without noticing it. -/
  value : State → Bool
  /-- Ask for a change. -/
  notice : State → Notice State
  view_create : ∀ v, view (create v) = { value := v, unseen := false, closed := false }
  view_send : ∀ v s, (view s).closed = false →
    view (send v s) = { value := v, unseen := true, closed := false }
  view_drop : ∀ s, view (drop s) = { view s with closed := true }
  value_eq : ∀ s, value s = (view s).value
  notice_unseen : ∀ s, (view s).unseen = true →
    ∃ t, notice s = .changed t ∧ view t = { view s with unseen := false }
  notice_closed : ∀ s, (view s).unseen = false → (view s).closed = true → notice s = .closed
  notice_open : ∀ s, (view s).unseen = false → (view s).closed = false →
    ∃ t, notice s = .pending t ∧ view t = view s

/-- Something that happens to a signal. -/
inductive SignalEvent where
  | send (value : Bool)
  | drop
deriving DecidableEq, Repr

namespace WatchChannel

variable (channel : WatchChannel)

/-- The channel after an event. Without a sender nothing is sent any more. -/
def after (s : channel.State) : SignalEvent → channel.State
  | .send value => if (channel.view s).closed then s else channel.send value s
  | .drop => channel.drop s

/-- How often a receiver can still be told of a change if nothing more is sent. -/
def unnoticed (s : channel.State) : Nat := if (channel.view s).unseen then 1 else 0

/-- A value that is noticed is not noticed again. -/
theorem unnoticed_lt {s t : channel.State} (h : channel.notice s = .changed t) :
    channel.unnoticed t < channel.unnoticed s := by
  cases hunseen : (channel.view s).unseen with
  | true =>
    obtain ⟨r, hnotice, hview⟩ := channel.notice_unseen s hunseen
    obtain rfl : t = r := by
      rw [hnotice] at h
      exact (Notice.changed.inj h).symm
    simp [unnoticed, hunseen, hview]
  | false =>
    cases hclosed : (channel.view s).closed with
    | true => simp [channel.notice_closed s hunseen hclosed] at h
    | false =>
      obtain ⟨r, hnotice, -⟩ := channel.notice_open s hunseen hclosed
      simp [hnotice] at h

end WatchChannel

/-! ### Waiting -/

/-- Somebody who waits on a channel for shutdown. -/
inductive Waiter (channel : WatchChannel) where
  /-- Not started yet. -/
  | fresh (s : channel.State)
  /-- Waiting for a change. -/
  | suspended (s : channel.State)
  /-- Shutdown was noticed. -/
  | done

namespace Waiter

variable {channel : WatchChannel}

mutual

/-- Look at the value, and wait for another one if shutdown is not due. -/
def look (s : channel.State) : Waiter channel :=
  if channel.value s then .done else await s
termination_by (channel.unnoticed s, 1)

/-- Ask for a change: look again if there is one, and give up if there can be none. -/
def await (s : channel.State) : Waiter channel :=
  match _ : channel.notice s with
  | .changed t => look t
  | .closed => .done
  | .pending t => .suspended t
termination_by (channel.unnoticed s, 0)
decreasing_by
  exact Prod.Lex.left _ _ (channel.unnoticed_lt ‹_›)

end

/-- Let a waiter run until it has to wait or is done. -/
def poll : Waiter channel → Waiter channel
  | .fresh s => look s
  | .suspended s => await s
  | .done => .done

/-- A waiter after an event on its channel, before it has run again. -/
def after (w : Waiter channel) (e : SignalEvent) : Waiter channel :=
  match w with
  | .fresh s => .fresh (channel.after s e)
  | .suspended s => .suspended (channel.after s e)
  | .done => .done

/-- Whether the waiter has noticed shutdown. -/
def isDone : Waiter channel → Bool
  | .done => true
  | _ => false

/-- Whether a waiter is done now, and after each of some events, running after every one. -/
def findings (w : Waiter channel) : List SignalEvent → List Bool
  | [] => [w.isDone]
  | e :: events => w.isDone :: findings (w.after e).poll events

end Waiter

/-- A waiter on a new channel that has run once. -/
def WatchChannel.wait (channel : WatchChannel) (start : Bool) : Waiter channel :=
  (Waiter.fresh (channel.create start)).poll

/-! ### Signals -/

/-- A signal that counts the values sent, with its one receiver. -/
structure Signal where
  value : Bool
  /-- How many values were sent. -/
  sent : Nat := 0
  /-- How many had been sent when the receiver last noticed one. -/
  noticed : Nat := 0
  /-- Whether the sender is gone. -/
  closed : Bool := false
  noticed_le_sent : noticed ≤ sent := by omega
deriving DecidableEq, Repr

namespace Signal

/-- What the receiver can know. -/
def view (s : Signal) : SignalView :=
  { value := s.value, unseen := s.noticed != s.sent, closed := s.closed }

/-- Overwrite the value. -/
def send (v : Bool) (s : Signal) : Signal :=
  { s with value := v, sent := s.sent + 1, noticed_le_sent := Nat.le_succ_of_le s.noticed_le_sent }

/-- Ask for a change since the receiver last noticed one. -/
def notice (s : Signal) : Notice Signal :=
  if s.noticed != s.sent then
    .changed { s with noticed := s.sent, noticed_le_sent := Nat.le_refl s.sent }
  else if s.closed then .closed
  else .pending s

/-- Signals as a channel. -/
def channel : WatchChannel where
  State := Signal
  view := view
  create v := { value := v }
  send := send
  drop s := { s with closed := true }
  value := value
  notice := notice
  view_create _ := rfl
  view_send v s h := by
    have := s.noticed_le_sent
    simp only [view] at h
    simp only [view, send, h, SignalView.mk.injEq, true_and, and_true, bne_iff_ne]
    omega
  view_drop _ := rfl
  value_eq _ := rfl
  notice_unseen s h := by
    simp only [view] at h
    exact ⟨_, if_pos h, by simp [view]⟩
  notice_closed s hseen hclosed := by
    simp only [view] at hseen hclosed
    simp [notice, hseen, hclosed]
  notice_open s hseen hopen := by
    simp only [view] at hseen hopen
    exact ⟨s, by simp [notice, hseen, hopen], rfl⟩

end Signal

/-- Whether shutdown has been noticed, before any event and after each of them. -/
def shutdownSeen (start : Bool) (events : List SignalEvent) : List Bool :=
  (Signal.channel.wait start).findings events

end ArithService
