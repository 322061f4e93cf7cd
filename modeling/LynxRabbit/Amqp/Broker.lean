/-
# `amqp091-go`, as the client sees it

The library is not part of the repository, so what the client relies on is
written out here: which connections were ever returned by `DialConfig` and which
of them are closed, the channels opened on them, and the receivers that
`NotifyClose` registered.

* `DialConfig` returns a fresh, open connection, or an error.
* `drop`: the broker closes an open connection.  Every receiver registered on it
  gets the `*amqp.Error` and is then closed.
* `shutdown`: the client's own `Close`.  The receivers are closed without a value.
* `notifyClose` on an open connection registers a receiver; on a closed one it
  closes the receiver at once, without a value.
* A channel is open while neither it nor its connection was closed, and every
  call on a closed channel, or opening one on a closed connection, is an error.

Everything else a call can return is the broker's free choice, a `Choice` of the
step that makes the call.
-/

import LynxRabbit.Conf.Validate
import Mathlib.Logic.Function.Basic

namespace LynxRabbit

/-- A `*amqp.Connection`: its number in the order of the dials. -/
abbrev ConnId := ℕ

/-- A `*amqp.Channel`: its number, and the connection it was opened on. -/
structure Channel where
  id : ℕ
  conn : ConnId
deriving DecidableEq, Repr

/-- The `chan *amqp.Error` of a `NotifyClose` registration: nothing to receive
yet, an error to receive, or closed and drained. -/
inductive Notify
  | quiet
  | error
  | closed
deriving DecidableEq, Repr

/-- How the outside resolves one step: a call succeeds or fails with a text, a
`select` takes its stop case or its context case, a `range` over a map starts at
a name. -/
inductive Choice
  | ok
  | fail (text : String)
  | stop
  | done
  | pick (name : String)
deriving DecidableEq, Repr

/-- The error the outside answers with, if any. -/
def Choice.err : Choice → Option String
  | .fail text => some text
  | _ => none

/-- The map entry a `range` starts at, if any. -/
def Choice.first : Choice → Option String
  | .pick name => some name
  | _ => none

/-- The state of the library and of the broker behind it. -/
structure Broker where
  dialled : ℕ := 0
  closed : ConnId → Bool := fun _ => false
  channels : ℕ := 0
  chanClosed : ℕ → Bool := fun _ => false
  notifies : ℕ := 0
  notifyConn : ℕ → ConnId := fun _ => 0
  notify : ℕ → Notify := fun _ => .quiet

namespace Broker

/-- `ErrClosed` of the library. -/
def errClosed : String := "Exception (504) Reason: \"channel/connection is not open\""

/-- `DialConfig` that succeeds. -/
def dial (b : Broker) : Broker :=
  { b with dialled := b.dialled + 1, closed := Function.update b.closed b.dialled false }

/-- The broker closes connection `c`. -/
def drop (b : Broker) (c : ConnId) : Broker :=
  { b with
    closed := Function.update b.closed c true
    notify := fun n => if b.notifyConn n = c ∧ b.notify n = .quiet then .error else b.notify n }

/-- The client closes connection `c`. -/
def shutdown (b : Broker) (c : ConnId) : Broker :=
  { b with
    closed := Function.update b.closed c true
    notify := fun n => if b.notifyConn n = c ∧ b.notify n = .quiet then .closed else b.notify n }

/-- `NotifyClose` on connection `c`; the receiver's number is `b.notifies`. -/
def notifyClose (b : Broker) (c : ConnId) : Broker :=
  { b with
    notifies := b.notifies + 1
    notifyConn := Function.update b.notifyConn b.notifies c
    notify := Function.update b.notify b.notifies (if b.closed c then .closed else .quiet) }

/-- The error is taken from receiver `n`, which is closed behind it. -/
def receive (b : Broker) (n : ℕ) : Broker :=
  { b with notify := Function.update b.notify n .closed }

/-- `Channel()` on connection `c` under the broker's choice. -/
def channel (b : Broker) (c : ConnId) (o : Choice) : Except String (Broker × Channel) :=
  if b.closed c then .error errClosed
  else match o.err with
    | some text => .error text
    | none => .ok ({ b with channels := b.channels + 1 }, ⟨b.channels, c⟩)

/-- `Close()` on a channel. -/
def closeChannel (b : Broker) (ch : Channel) : Broker :=
  { b with chanClosed := Function.update b.chanClosed ch.id true }

/-- Neither the channel nor its connection was closed. -/
def chanOpen (b : Broker) (ch : Channel) : Bool := !b.chanClosed ch.id && !b.closed ch.conn

/-- The error of a call on channel `ch`, if any. -/
def callErr (b : Broker) (ch : Channel) (o : Choice) : Option String :=
  if b.chanOpen ch then o.err else some errClosed

theorem channel_ok {b b' : Broker} {c : ConnId} {o : Choice} {ch : Channel}
    (h : b.channel c o = .ok (b', ch)) :
    b' = { b with channels := b.channels + 1 } ∧ ch = ⟨b.channels, c⟩ ∧ b.closed c = false := by
  unfold channel at h
  split_ifs at h with hc
  split at h
  · cases h
  · cases h
    exact ⟨rfl, rfl, by simpa using hc⟩

theorem err_of_channel_ok {b b' : Broker} {c : ConnId} {o : Choice} {ch : Channel}
    (h : b.channel c o = .ok (b', ch)) : o.err = none := by
  unfold channel at h
  split_ifs at h
  split at h
  · cases h
  · assumption

/-- `Channel()` fails on a closed connection, or because the broker refuses it. -/
theorem channel_error {b : Broker} {c : ConnId} {o : Choice} {text : String}
    (h : b.channel c o = .error text) : b.closed c = true ∨ o.err.isSome = true := by
  unfold channel at h
  split_ifs at h with hc
  · exact .inl hc
  · split at h
    · rename_i he
      exact .inr (by rw [he]; rfl)
    · cases h

theorem callErr_none {b : Broker} {ch : Channel} {o : Choice} (h : b.callErr ch o = none) :
    b.chanOpen ch = true := by
  unfold callErr at h
  split_ifs at h with hc
  exact hc

/-- What is open after a drop was open before it. -/
theorem open_of_drop {b : Broker} {c c' : ConnId} (h : (b.drop c).closed c' = false) :
    b.closed c' = false := by
  have h' : Function.update b.closed c true c' = false := h
  rw [Function.update_apply] at h'
  split_ifs at h'
  exact h'

theorem closed_drop {b : Broker} {c c' : ConnId} (h : b.closed c' = true) :
    (b.drop c).closed c' = true := by
  by_contra ho
  rw [open_of_drop (by simpa using ho)] at h
  cases h

/-- Every channel that is closed is closed in `f`. -/
def StillClosed (b : Broker) (f : ℕ → Bool) : Prop := ∀ i, b.chanClosed i = true → f i = true

theorem StillClosed.refl (b : Broker) : b.StillClosed b.chanClosed := fun _ h => h

theorem StillClosed.closeChannel (b : Broker) (ch : Channel) :
    b.StillClosed (b.closeChannel ch).chanClosed := by
  intro i hi
  simp only [Broker.closeChannel, Function.update_apply]
  split_ifs
  · rfl
  · exact hi

/-- **Nothing is ever opened again**: no connection that was dialled, and no
channel. -/
structure Ages (b b' : Broker) : Prop where
  dialled : b.dialled ≤ b'.dialled
  closed : ∀ c, c < b.dialled → b.closed c = true → b'.closed c = true
  channels : b.StillClosed b'.chanClosed

/-- A connection that is open was open before. -/
theorem Ages.isOpen {b b' : Broker} (h : b.Ages b') {c : ConnId} (hc : c < b.dialled)
    (ho : b'.closed c = false) : b.closed c = false := by
  by_contra hcl
  rw [h.closed c hc (by simpa using hcl)] at ho
  cases ho

/-- A channel that is open was open before. -/
theorem Ages.chanOpen {b b' : Broker} (h : b.Ages b') {ch : Channel} (hc : ch.conn < b.dialled)
    (ho : b'.chanOpen ch = true) : b.chanOpen ch = true := by
  simp only [Broker.chanOpen, Bool.and_eq_true, Bool.not_eq_true'] at ho ⊢
  refine ⟨?_, h.isOpen hc ho.2⟩
  by_contra hcl
  rw [h.channels ch.id (by simpa using hcl)] at ho
  cases ho.1

theorem Ages.drop (b : Broker) (c : ConnId) : b.Ages (b.drop c) :=
  ⟨Nat.le_refl _, fun _ _ h => closed_drop h, .refl b⟩

/-- A receiver with nothing to receive belongs to an open connection. -/
def Sound (b : Broker) : Prop := ∀ n, b.notify n = .quiet → b.closed (b.notifyConn n) = false

theorem Sound.dial {b : Broker} (h : b.Sound) : b.dial.Sound := by
  intro n hn
  have := h n hn
  simp only [Broker.dial, Function.update_apply]
  split_ifs
  · rfl
  · exact this

theorem Sound.drop {b : Broker} (h : b.Sound) (c : ConnId) : (b.drop c).Sound := by
  intro n hn
  simp only [Broker.drop] at hn ⊢
  split_ifs at hn with hq
  by_cases hc : b.notifyConn n = c
  · exact absurd ⟨hc, hn⟩ hq
  · rw [Function.update_of_ne hc]
    exact h n hn

theorem Sound.notifyClose {b : Broker} (h : b.Sound) (c : ConnId) : (b.notifyClose c).Sound := by
  intro n hn
  simp only [Broker.notifyClose, Function.update_apply] at hn ⊢
  split_ifs at hn ⊢ with hm hc
  · simpa using hc
  · exact h n hn

theorem Sound.receive {b : Broker} (h : b.Sound) (n : ℕ) : (b.receive n).Sound := by
  intro m hm
  simp only [Broker.receive, Function.update_apply] at hm ⊢
  split_ifs at hm
  exact h m hm

/-- A drop leaves no receiver of its connection quiet, and takes back nothing. -/
theorem notify_drop (b : Broker) (c : ConnId) (n : ℕ) :
    (b.drop c).notify n =
      if b.notifyConn n = c ∧ b.notify n = .quiet then .error else b.notify n := rfl

end Broker
end LynxRabbit
