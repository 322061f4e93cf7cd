/-
# The reconnect callback and the goroutines that run it

The closure `connect` installs with `SetReconnectFunc` and
`rebuildAfterReconnect` (`client.go`); `watchConnection` and `ForceReconnect` of
the `ConnectionManager` (`managers.go`).

`Callback` is one execution of the closure: dial, store the connection, empty the
two maps, set everything up again, take a snapshot of the subscriptions, and
start a loop for each of them in order.  A `watchConnection` goroutine runs it
inside its back-off loop and a `ForceReconnect` call runs it once; nothing keeps
two executions apart.
-/

import LynxRabbit.Client.Dispatch

namespace LynxRabbit

/-- Where an execution of the reconnect callback stands.  The connection it
dialled is `c`; in the restart loop `subs` is `started ++ pending`. -/
inductive Callback
  | dial
  | store (c : ConnId)
  | clearProducers (c : ConnId)
  | clearConsumers (c : ConnId)
  | rebuild (c : ConnId) (todo : List SetupStep)
  | restart (c : ConnId) (started pending : List Subscription)
  | dispatch (c : ConnId) (started : List Subscription) (sub : Subscription)
      (pending : List Subscription) (d : DispatchStep)
deriving DecidableEq, Repr

/-- The error `rebuildAfterReconnect` makes of a failed set-up step. -/
def SetupStep.rebuildFailure (i : SetupStep) (e : GoError) : GoError :=
  if i.ofProducer then .wrapf "reconnect: failed to rebuild producers" e
  else .wrapf "reconnect: failed to rebuild consumers" e

/-- One atomic step of the callback: it goes on, or returns its connection. -/
def Callback.step (s : Client) (o : Choice) :
    Callback → Progress ((Callback ⊕ ConnId) × List Spawn)
  | .dial =>
    match s.dial o with
    | .error e => .fail s e
    | .ok (s', c) => .next s' (.inl (.store c), [])
  | .store c => .next { s with connection := some c } (.inl (.clearProducers c), [])
  | .clearProducers c => .next { s with producers := ∅ } (.inl (.clearConsumers c), [])
  | .clearConsumers c =>
    .next { s with consumers := ∅ }
      (.inl (.rebuild c (s.config.initializeProducers ++ s.config.initializeConsumers)), [])
  | .rebuild c [] => .next s (.inl (.restart c [] s.subscriptions), [])
  | .rebuild c (i :: rest) =>
    match i.exec s o with
    | .next s' todo => .next s' (.inl (.rebuild c (todo ++ rest)), [])
    | .fail s' e => .fail s' (i.rebuildFailure e)
    | .panic => .panic
  | .restart c _ [] => .next s (.inr c, [])
  | .restart c started (sub :: pending) =>
    match s.consumers.lookup sub.consumerName with
    | some (some _) => .next s (.inl (.dispatch c started sub pending .liveConnection), [])
    -- the consumer channel is missing or nil: `continue`
    | _ => .next s (.inl (.restart c (started ++ [sub]) pending), [])
  | .dispatch c started sub pending d =>
    match d.exec s o none (some c) sub with
    | .next s' (.inl d') => .next s' (.inl (.dispatch c started sub pending d'), [])
    | .next s' (.inr l) => .next s' (.inl (.restart c (started ++ [sub]) pending), [.loop l])
    | .fail s' e =>
      .fail s' (.wrapf ("reconnect: failed to restart subscription " ++ sub.consumerName) e)
    | .panic => .panic

/-- Where a `watchConnection` goroutine stands; the back-off is in
milliseconds. -/
inductive WatchConnection
  | waiting (n : ℕ)
  | disconnected
  | check (ms : ℕ)
  | callback (ms : ℕ) (cb : Callback)
  | established (c : ConnId)
  | renotify (c : ConnId)
  | handover (n : ℕ)
  | backoff (ms : ℕ)
  | returned
deriving DecidableEq, Repr

/-- One atomic step of `watchConnection`. -/
def WatchConnection.step (s : Client) (o : Choice) :
    WatchConnection → Option (Client × WatchConnection × List Spawn)
  | .waiting n =>
    if o = .stop then if s.manager.stopChanClosed then some (s, .returned, []) else none
    else match s.amqp.notify n with
      | .quiet => none
      | .error => some ({ s with amqp := s.amqp.receive n }, .disconnected, [])
      -- channel closed without error: taken for the plugin shutting down
      | .closed => some (s, .returned, [])
  | .disconnected => some (s.setConnected false, .check 500, [])
  | .check ms =>
    if s.manager.stopChanClosed then some (s, .returned, [])
    else some (s, .callback ms .dial, [])
  | .callback ms cb =>
    match cb.step s o with
    | .next s' (.inl cb', new) => some (s', .callback ms cb', new)
    | .next s' (.inr c, new) => some (s', .established c, new)
    | .fail s' _ => some (s', .backoff ms, [])
    | .panic => some ({ s with panicked := true }, .returned, [])
  | .established c => some (s.setConnected true, .renotify c, [])
  | .renotify c =>
    some ({ s with amqp := s.amqp.notifyClose c }, .handover s.amqp.notifies, [])
  | .handover n => some (s, .returned, [.watcher n])
  | .backoff ms =>
    if o = .stop then if s.manager.stopChanClosed then some (s, .returned, []) else none
    else some (s, .check (min (2 * ms) 30000), [])
  | .returned => none

/-- The goroutine got a disconnect and has not handed over to a new watcher. -/
def WatchConnection.inReconnectLoop : WatchConnection → Bool
  | .waiting _ => false
  | .returned => false
  | _ => true

/-- Where a `ForceReconnect` call stands. -/
inductive ForceReconnect
  | enter
  | lower
  | callback (cb : Callback)
  | raise
  | returned
deriving DecidableEq, Repr

/-- One atomic step of `ForceReconnect`. -/
def ForceReconnect.step (s : Client) (o : Choice) :
    ForceReconnect → Option (Client × ForceReconnect × List Spawn)
  | .enter =>
    if s.manager.reconnect then some (s, .lower, [])
    else some (s.setConnected true, .returned, [])
  | .lower => some (s.setConnected false, .callback .dial, [])
  | .callback cb =>
    match cb.step s o with
    | .next s' (.inl cb', new) => some (s', .callback cb', new)
    | .next s' (.inr _, new) => some (s', .raise, new)
    | .fail s' _ => some (s', .returned, [])
    | .panic => some ({ s with panicked := true }, .returned, [])
  | .raise => some (s.setConnected true, .returned, [])
  | .returned => none

end LynxRabbit
