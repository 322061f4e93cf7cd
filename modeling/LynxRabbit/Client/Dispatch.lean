/-
# Subscriptions and their dispatch loops

`Subscribe`, `SubscribeWith`, `subscribeWithChannel`, `startDispatchLoop` and
`dispatchDelivery` of `client.go`.

`DispatchStep` are the atomic steps of `startDispatchLoop`, run by a `Subscribe`
call with the caller's context or by a rebuild with the background context.  Its
last step adds one to `subscriptionWG` and starts the goroutine, which is a
`Loop` with a program counter of its own.
-/

import LynxRabbit.Client.Setup

namespace LynxRabbit

/-- Where `startDispatchLoop` stands. -/
inductive DispatchStep
  | liveConnection
  | openChannel (c : ConnId)
  | qos (ch : Channel)
  | consume (ch : Channel)
  | start (ch : Channel)
deriving DecidableEq, Repr

/-- A dispatch goroutine: what its closure captured.  `ctx` is the call whose
context it watches, `none` for the background context; `rebuild` is the
connection whose rebuild started it, `none` when the `Subscribe` call did. -/
structure Loop where
  sub : Subscription
  channel : Channel
  autoAck : Bool
  ctx : Option ℕ
  rebuild : Option ConnId
deriving DecidableEq, Repr

/-- What a step starts with `go`: a dispatch loop, a watcher on a receiver, or
the health checker's ticker. -/
inductive Spawn
  | loop (l : Loop)
  | watcher (n : ℕ)
  | health
deriving DecidableEq, Repr

/-- The error of `startDispatchLoop` for a library error. -/
def subscribeFailure (text : String) : GoError := wrapError (.var .subscribeFailed) text

/-- One atomic step of `startDispatchLoop` for `sub`. -/
def DispatchStep.exec (s : Client) (o : Choice) (ctx : Option ℕ) (rebuild : Option ConnId)
    (sub : Subscription) : DispatchStep → Progress (DispatchStep ⊕ Loop)
  | .liveConnection =>
    match s.connection with
    | none => .fail s (.var .consumerNotReady)
    | some c =>
      if s.amqp.closed c then .fail s (.var .consumerNotReady) else .next s (.inl (.openChannel c))
  | .openChannel c =>
    match s.amqp.channel c o with
    | .error text => .fail s (subscribeFailure text)
    | .ok (b, ch) =>
      .next { s with amqp := b } (.inl
        (if (s.config.dispatchSettings sub.consumerName).2 > 0 then .qos ch else .consume ch))
  | .qos ch =>
    match s.amqp.callErr ch o with
    | some text => .fail { s with amqp := s.amqp.closeChannel ch } (subscribeFailure text)
    | none => .next s (.inl (.consume ch))
  | .consume ch =>
    match s.amqp.callErr ch o with
    | some text => .fail { s with amqp := s.amqp.closeChannel ch } (subscribeFailure text)
    | none => .next s (.inl (.start ch))
  | .start ch =>
    .next { s with subscriptionWG := s.subscriptionWG + 1 }
      (.inr ⟨sub, ch, (s.config.dispatchSettings sub.consumerName).1, ctx, rebuild⟩)

/-- Where a `Subscribe` or `SubscribeWith` call stands. -/
inductive SubscribeCall
  | lookup (queue : String) (handler : Handler)
  | lookupWith (consumerName queue : String) (handler : Handler)
  | record (sub : Subscription)
  | dispatch (sub : Subscription) (d : DispatchStep)
  | returned (err : Option GoError)
deriving DecidableEq, Repr

/-- One atomic step of the call numbered `id`.  `Subscribe` ranges over the map
and keeps the first entry it meets, `pick name`; `SubscribeWith` validates the
queue and looks its name up. -/
def SubscribeCall.step (s : Client) (o : Choice) (id : ℕ) :
    SubscribeCall → Option (Client × SubscribeCall × List Spawn)
  | .lookup queue handler =>
    match o.first with
    | some name =>
      match s.consumers.lookup name with
      | none => none
      | some none => some (s, .returned (some (.var .consumerNotReady)), [])
      | some (some _) => some (s, .record ⟨id, name, queue, handler⟩, [])
    | none =>
      if s.consumers.entries.isEmpty then
        some (s, .returned (some (.var .consumerNotReady)), [])
      else none
  | .lookupWith name queue handler =>
    match validateQueue queue with
    | some e => some (s, .returned (some e), [])
    | none =>
      match s.consumers.lookup name with
      | none =>
        some (s, .returned (some (wrapError (.var .consumerNotFound) ("consumer: " ++ name))), [])
      | some none =>
        some (s, .returned (some (wrapError (.var .consumerNotReady) ("consumer: " ++ name))), [])
      | some (some _) => some (s, .record ⟨id, name, queue, handler⟩, [])
  | .record sub =>
    some ({ s with subscriptions := s.subscriptions ++ [sub] }, .dispatch sub .liveConnection, [])
  | .dispatch sub d =>
    match d.exec s o (some id) none sub with
    | .next s' (.inl d') => some (s', .dispatch sub d', [])
    | .next s' (.inr l) => some (s', .returned none, [.loop l])
    | .fail s' e => some (s', .returned (some e), [])
    | .panic => some ({ s with panicked := true }, .returned none, [])
  | .returned _ => none

/-- Where a dispatch loop stands: in its `select`, in the handler, about to Ack
or Nack, in the two deferred calls, or gone. -/
inductive LoopPc
  | select
  | handling
  | settling (failed : Bool)
  | closing
  | finishing
  | returned
deriving DecidableEq, Repr

/-- `IncrementConsumerMessagesReceived` or `IncrementConsumerMessagesFailed`. -/
def Metrics.countHandled (m : Metrics) (failed : Bool) : Metrics :=
  if failed then { m with consumerMessagesFailed := m.consumerMessagesFailed + 1 }
  else { m with consumerMessagesReceived := m.consumerMessagesReceived + 1 }

/-- One atomic step of a dispatch loop.  The `select` takes any case that is
ready: a delivery may win although `closeChan` is closed. -/
def LoopPc.step (s : Client) (o : Choice) (l : Loop) : LoopPc → Option (Client × LoopPc)
  | .select =>
    if o = .done then if l.ctx.any s.cancelled then some (s, .closing) else none
    else if o = .stop then if s.closeChanClosed then some (s, .closing) else none
    else if s.amqp.chanOpen l.channel then some (s, .handling) else some (s, .closing)
  | .handling =>
    some ({ s with metrics := s.metrics.countHandled o.err.isSome },
      if l.autoAck then .select else .settling o.err.isSome)
  | .settling _ => some (s, .select)
  | .closing => some ({ s with amqp := s.amqp.closeChannel l.channel }, .finishing)
  | .finishing => some ({ s with subscriptionWG := s.subscriptionWG - 1 }, .returned)
  | .returned => none

/-- A delivery is being handled or settled. -/
def LoopPc.dispatching : LoopPc → Bool
  | .handling => true
  | .settling _ => true
  | _ => false

end LynxRabbit
