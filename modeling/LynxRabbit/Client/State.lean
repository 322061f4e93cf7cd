/-
# The client's state

`RabbitMQClient` of `client.go`, the `HealthChecker` and `ConnectionManager` of
`managers.go`, and the readiness and health values of `runtime_contract.go`; the
atomic reads of `CheckHealth` (`health.go`) and `connectionProbe`.

A `Client` is what the goroutines share after `InitializeResources`, so the
managers are always there.  A `chan struct{}` that is only ever closed is the
`Bool` that says it was; a `sync.Once` or a mutex is the atomicity of the step
that uses it; a map of channels is an association list with distinct keys, and
the order of its entries stands for one iteration order of the Go map.
-/

import LynxRabbit.Amqp.Broker
import Mathlib.Data.List.AList

namespace LynxRabbit

/-- `map[string]*amqp.Channel`; a nil channel is `none`. -/
abbrev ChannelMap := AList fun _ : String => Option Channel

/-- A `MessageHandler`, by number. -/
abbrev Handler := ℕ

/-- `subscription`.  The `id` is the pointer: the number of the `Subscribe` call
that allocated the record. -/
structure Subscription where
  id : ℕ
  consumerName : String
  queue : String
  handler : Handler
deriving DecidableEq, Repr

/-- `HealthChecker`, without the time of the last check. -/
structure HealthChecker where
  stopChanClosed : Bool := false
  stopped : Bool := false
  healthy : Bool := true
  errorCount : ℕ := 0
  lastError : Option GoError := none

/-- `ConnectionManager`; `reconnect` says whether a callback was registered. -/
structure ConnectionManager where
  connected : Bool := false
  stopChanClosed : Bool := false
  stopped : Bool := false
  reconnect : Bool := false
  connNotify : Option ℕ := none

/-- The values `publishRuntimeContract` registers with the runtime. -/
structure RuntimeContract where
  sharedReadiness : Option Bool := none
  sharedHealth : Option Bool := none
  privateReadiness : Option Bool := none
  privateHealth : Option Bool := none

/-- `Metrics`, without the consumer latency and the two timestamps.  The client starts
with a zero record. -/
structure Metrics where
  consumerMessagesReceived : ℕ := 0
  consumerMessagesFailed : ℕ := 0
  producerMessagesSent : ℕ := 0
  producerMessagesFailed : ℕ := 0
  producerLatency : ℤ := 0
  connectionErrors : ℕ := 0
  reconnectionCount : ℕ := 0
  healthCheckCount : ℕ := 0
  healthCheckErrors : ℕ := 0
  isHealthy : ℕ := 0

/-- `RabbitMQClient`, the library under it, and the two facts of the outside its
goroutines can observe: which callers' contexts are cancelled, and whether the
process is gone. -/
structure Client where
  config : RabbitMQ
  rt : Option RuntimeContract := some {}
  connection : Option ConnId := none
  producers : ChannelMap := ∅
  consumers : ChannelMap := ∅
  closeChanClosed : Bool := false
  closed : Bool := false
  metrics : Metrics := {}
  health : HealthChecker := {}
  manager : ConnectionManager := {}
  subscriptionWG : ℕ := 0
  subscriptions : List Subscription := []
  amqp : Broker := {}
  cancelled : ℕ → Bool := fun _ => false
  panicked : Bool := false

namespace Client

/-- `connected` under the manager's mutex. -/
def setConnected (s : Client) (b : Bool) : Client :=
  { s with manager := { s.manager with connected := b } }

/-- `publishRuntimeContract`, with a runtime whose registrations succeed. -/
def publishRuntimeContract (s : Client) (ready healthy : Bool) : Client :=
  { s with rt := s.rt.map fun _ => ⟨some ready, some healthy, some ready, some healthy⟩ }

/-- The reads of `CheckHealth`, each under its own lock. -/
inductive HealthPart
  | connection
  | manager
  | healthChecker
  | producers
  | consumers
deriving DecidableEq, Repr

/-- The error of one read of `CheckHealth`. -/
def checkPart (s : Client) : HealthPart → Option GoError
  | .connection => match s.connection with
    | none => some (.errorf "rabbitmq connection not initialized")
    | some c => if s.amqp.closed c then some (.errorf "rabbitmq connection is closed") else none
  | .manager =>
    if s.manager.connected then none
    else some (.errorf "rabbitmq connection manager is not connected")
  | .healthChecker =>
    if s.health.healthy then none else some (.errorf "rabbitmq health checker is unhealthy")
  | .producers => (s.producers.entries.find? (·.2.isNone)).map fun e =>
    .errorf ("rabbitmq producer " ++ e.1 ++ " is not ready")
  | .consumers => (s.consumers.entries.find? (·.2.isNone)).map fun e =>
    .errorf ("rabbitmq consumer " ++ e.1 ++ " is not ready")

/-- The reads in the order `CheckHealth` makes them. -/
def healthParts : List HealthPart :=
  [.connection, .manager, .healthChecker, .producers, .consumers]

/-- `CheckHealth`, evaluated in one state. -/
def checkHealth (s : Client) : Option GoError := healthParts.findSome? s.checkPart

/-- `connectionProbe`: the result, and the library after the temporary channel. -/
def connectionProbe (s : Client) (o : Choice) : Option GoError × Broker :=
  if s.closed then (some (.errorf "rabbitmq client is closed"), s.amqp)
  else match s.connection with
    | none => (some (.errorf "rabbitmq connection not initialized"), s.amqp)
    | some c =>
      if s.amqp.closed c then (some (.errorf "rabbitmq connection is closed"), s.amqp)
      else match s.amqp.channel c o with
        | .error text =>
          (some (.wrapf "rabbitmq health probe failed to open channel" (.library text)), s.amqp)
        | .ok (b, ch) => (none, b.closeChannel ch)

/-- `IsConnected` of the client. -/
def isConnected (s : Client) : Bool :=
  !s.closed && s.connection.any fun c => !s.amqp.closed c

/-- **What a nil `CheckHealth` saw.**  An open connection, a connected manager, a
healthy checker, and no nil channel among the entries of the two maps. -/
theorem checkHealth_eq_none_iff (s : Client) :
    s.checkHealth = none ↔
      (∃ c, s.connection = some c ∧ s.amqp.closed c = false) ∧ s.manager.connected = true ∧
        s.health.healthy = true ∧ (∀ e ∈ s.producers.entries, e.2.isSome) ∧
        ∀ e ∈ s.consumers.entries, e.2.isSome := by
  have hconn : s.checkPart .connection = none ↔
      ∃ c, s.connection = some c ∧ s.amqp.closed c = false := by
    cases hc : s.connection with
    | none => simp [checkPart, hc]
    | some c => cases hb : s.amqp.closed c <;> simp [checkPart, hc, hb]
  have hman : s.checkPart .manager = none ↔ s.manager.connected = true := by simp [checkPart]
  have hhealth : s.checkPart .healthChecker = none ↔ s.health.healthy = true := by
    simp [checkPart]
  have hprod : s.checkPart .producers = none ↔ ∀ e ∈ s.producers.entries, e.2.isSome := by
    simp [checkPart, List.find?_eq_none, Option.isSome_iff_ne_none]
  have hcons : s.checkPart .consumers = none ↔ ∀ e ∈ s.consumers.entries, e.2.isSome := by
    simp [checkPart, List.find?_eq_none, Option.isSome_iff_ne_none]
  rw [checkHealth, List.findSome?_eq_none_iff]
  simp only [healthParts, List.forall_mem_cons, List.not_mem_nil, false_imp_iff, implies_true,
    and_true, hconn, hman, hhealth, hprod, hcons]

end Client

/-- The outcome of one atomic step of a routine: it goes on at `a`, returns an
error, or the goroutine panics. -/
inductive Progress (α : Type)
  | next (s : Client) (a : α)
  | fail (s : Client) (e : GoError)
  | panic

end LynxRabbit
