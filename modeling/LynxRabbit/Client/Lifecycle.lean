/-
# Startup, cleanup and the health ticker

`startupWithContext`, `connect` and `cleanupWithContext` of `client.go`, with
`Start` and `Stop` of the two managers, and `HealthChecker.run` with
`performHealthCheck` (`managers.go`).

Every `ctx.Err()` is a step that may fail.  A startup that fails past its first
check publishes `false` values before it returns; a cleanup that gets past its
own check runs to its last step, where closing the connection may fail.
-/

import LynxRabbit.Client.Reconnect

namespace LynxRabbit

/-- Where a `startupWithContext` call stands. -/
inductive StartupWithContext
  | enter
  | publish
  | dial
  | store (c : ConnId)
  | setReconnectFunc (c : ConnId)
  | notifyClose (c : ConnId)
  | setConnectionNotify (n : ℕ)
  | afterConnect
  | producers (todo : List SetupStep)
  | afterProducers
  | consumers (todo : List SetupStep)
  | startHealth
  | startManager
  | registerShared
  | checkHealth (parts : List Client.HealthPart)
  | publishReady
  | unpublish (e : GoError)
  | returned (err : Option GoError)
deriving DecidableEq, Repr

/-- One atomic step of a set-up inside `startupWithContext`: `here` is where the
call stands with a list of pending steps, `after` where the loop ends. -/
def setupStep (s : Client) (o : Choice) (prefixText : String)
    (here : List SetupStep → StartupWithContext) (after : StartupWithContext) :
    List SetupStep → Client × StartupWithContext
  | [] => (s, after)
  | i :: rest =>
    match i.exec s o with
    | .next s' todo => (s', here (todo ++ rest))
    | .fail s' e => (s', .unpublish (.wrapf prefixText e))
    | .panic => ({ s with panicked := true }, .returned none)

/-- One atomic step of `startupWithContext`. -/
def StartupWithContext.step (s : Client) (o : Choice) :
    StartupWithContext → Option (Client × StartupWithContext × List Spawn)
  | .enter =>
    match o.err with
    | some text =>
      some (s, .returned (some (.wrapf "rabbitmq startup canceled before execution"
        (.library text))), [])
    | none => some (s, .publish, [])
  | .publish => some (s.publishRuntimeContract false false, .dial, [])
  | .dial =>
    match s.dial o with
    | .error e => some (s, .unpublish (.wrapf "failed to connect to RabbitMQ" e), [])
    | .ok (s', c) => some (s', .store c, [])
  | .store c => some ({ s with connection := some c }, .setReconnectFunc c, [])
  | .setReconnectFunc c =>
    some ({ s with manager := { s.manager with reconnect := true } }, .notifyClose c, [])
  | .notifyClose c =>
    some ({ s with amqp := s.amqp.notifyClose c }, .setConnectionNotify s.amqp.notifies, [])
  | .setConnectionNotify n =>
    some ({ s with manager := { s.manager with connNotify := some n } }, .afterConnect, [])
  | .afterConnect =>
    match o.err with
    | some text =>
      some (s, .unpublish (.wrapf "rabbitmq startup canceled after connect" (.library text)), [])
    | none => some (s, .producers s.config.initializeProducers, [])
  | .producers todo =>
    let (s', pc) := setupStep s o "failed to initialize producers" .producers .afterProducers todo
    some (s', pc, [])
  | .afterProducers =>
    match o.err with
    | some text =>
      some (s, .unpublish (.wrapf "rabbitmq startup canceled after producer init"
        (.library text)), [])
    | none => some (s, .consumers s.config.initializeConsumers, [])
  | .consumers todo =>
    let (s', pc) := setupStep s o "failed to initialize consumers" .consumers .startHealth todo
    some (s', pc, [])
  | .startHealth => some (s, .startManager, [.health])
  | .startManager =>
    some (s.setConnected true, .registerShared,
      match s.manager.connNotify, s.manager.reconnect with
      | some n, true => [.watcher n]
      | _, _ => [])
  | .registerShared =>
    -- the registrations of private resources only log their errors
    match (if s.rt.isSome then o.err else none) with
    | some text =>
      some (s, .unpublish (.wrapf "failed to register RabbitMQ shared resource"
        (.library text)), [])
    | none => some (s, .checkHealth Client.healthParts, [])
  | .checkHealth [] => some (s, .publishReady, [])
  | .checkHealth (part :: parts) =>
    match s.checkPart part with
    | some e => some (s, .unpublish e, [])
    | none => some (s, .checkHealth parts, [])
  | .publishReady => some (s.publishRuntimeContract true true, .returned none, [])
  | .unpublish e => some (s.publishRuntimeContract false false, .returned (some e), [])
  | .returned _ => none

/-- The call has not started the connection manager and may still do so. -/
def StartupWithContext.settingUp : StartupWithContext → Bool
  | .registerShared => false
  | .checkHealth _ => false
  | .publishReady => false
  | .unpublish _ => false
  | .returned _ => false
  | _ => true

/-- Where a `cleanupWithContext` call stands; `canceled` is the return of its
first check. -/
inductive CleanupWithContext
  | enter
  | publish
  | setClosed
  | closeCloseChan
  | stopHealth
  | stopManager
  | closeStopChan
  | waitSubscriptions
  | waitPool
  | closeConsumers
  | closeProducers
  | closeConnection
  | canceled
  | returned (err : Option GoError)
deriving DecidableEq, Repr

/-- `Close()` on every channel of a map. -/
def Broker.closeAll (b : Broker) (m : ChannelMap) : Broker :=
  { b with chanClosed := fun i =>
      b.chanClosed i || m.entries.any fun e => e.2.any fun ch => ch.id == i }

/-- One atomic step of `cleanupWithContext`.  `Close` on a connection that is
already closed is an error; on an open one it closes it whatever it returns. -/
def CleanupWithContext.step (s : Client) (o : Choice) :
    CleanupWithContext → Option (Client × CleanupWithContext)
  | .enter =>
    match o.err with
    | some _ => some (s, .canceled)
    | none => some (s, .publish)
  | .publish => some (s.publishRuntimeContract false false, .setClosed)
  | .setClosed => some ({ s with closed := true }, .closeCloseChan)
  | .closeCloseChan => some ({ s with closeChanClosed := true }, .stopHealth)
  | .stopHealth =>
    some ({ s with health := { s.health with stopChanClosed := true, stopped := true } },
      .stopManager)
  | .stopManager =>
    -- `Stop` under the manager's mutex; a second `Stop` returns here
    some ({ s with manager := { s.manager with connected := false, stopped := true } },
      if s.manager.stopped then .waitSubscriptions else .closeStopChan)
  | .closeStopChan =>
    some ({ s with manager := { s.manager with stopChanClosed := true } }, .waitSubscriptions)
  | .waitSubscriptions => if s.subscriptionWG = 0 then some (s, .waitPool) else none
  -- nothing in the client submits to the pool, so its `Wait` returns at once
  | .waitPool => some (s, .closeConsumers)
  | .closeConsumers =>
    some ({ s with amqp := s.amqp.closeAll s.consumers, consumers := ∅ }, .closeProducers)
  | .closeProducers =>
    some ({ s with amqp := s.amqp.closeAll s.producers, producers := ∅ }, .closeConnection)
  | .closeConnection =>
    match s.connection with
    | none => some (s, .returned none)
    | some c =>
      if s.amqp.closed c then some (s, .returned (some (.library Broker.errClosed)))
      else match o.err with
        | some text => some ({ s with amqp := s.amqp.shutdown c }, .returned (some (.library text)))
        | none => some ({ s with amqp := s.amqp.shutdown c, connection := none }, .returned none)
  | .canceled => none
  | .returned _ => none

/-- The call is past `subscriptionWG.Wait()`. -/
def CleanupWithContext.drained : CleanupWithContext → Bool
  | .waitPool => true
  | .closeConsumers => true
  | .closeProducers => true
  | .closeConnection => true
  | .returned _ => true
  | _ => false

/-- Where the `HealthChecker.run` goroutine stands. -/
inductive HealthRun
  | select
  | probe
  | record (err : Option GoError)
  | returned
deriving DecidableEq, Repr

/-- One atomic step of `HealthChecker.run`. -/
def HealthRun.step (s : Client) (o : Choice) : HealthRun → Option (Client × HealthRun)
  | .select =>
    if o = .stop then if s.health.stopChanClosed then some (s, .returned) else none
    else some (s, .probe)
  | .probe => some ({ s with amqp := (s.connectionProbe o).2 }, .record (s.connectionProbe o).1)
  | .record none => some ({ s with health := { s.health with healthy := true, lastError := none } },
      .select)
  | .record (some e) =>
    some ({ s with health := { s.health with
      healthy := false, lastError := some e, errorCount := s.health.errorCount + 1 } }, .select)
  | .returned => none

end LynxRabbit
