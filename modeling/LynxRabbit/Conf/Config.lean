/-
# The configuration record

`conf/rabbitmq.proto` (the generated `conf.RabbitMQ`, `conf.Producer`,
`conf.Consumer`), the constants of `constants.go` it is filled from, and
`defaultRabbitMQConfig`, `GetEnabledProducers`, `GetEnabledConsumers` of
`client.go`.

A `google.protobuf.Duration` is its number of nanoseconds, `none` when the field
is not set; an `int32` is an integer.  The entry lists are lists of records: a nil
entry is refused by `normalizeRabbitMQConfig` before a client ever reads it.
-/

import Mathlib.Data.Int.Notation
import Mathlib.Data.List.Basic

namespace LynxRabbit

def defaultVirtualHost : String := "/"
def defaultExchange : String := "lynx.exchange"
def defaultQueue : String := "lynx.queue"
def defaultConsumer : String := "lynx.consumer"
def defaultChannelPoolSize : ℤ := 10

/-- `ExchangeTypeDirect`, `ExchangeTypeFanout`, `ExchangeTypeTopic`,
`ExchangeTypeHeaders`. -/
def exchangeTypes : List String := ["direct", "fanout", "topic", "headers"]

/-- `conf.Producer`. -/
structure Producer where
  name : String
  enabled : Bool
  exchange : String
  exchangeType : String
  routingKey : String := ""
  maxRetries : ℤ := 0
  retryBackoff : Option ℤ := none
  publishTimeout : Option ℤ := none
  exchangeDurable : Bool := false
  exchangeAutoDelete : Bool := false
  messagePersistent : Bool := false
deriving DecidableEq, Repr

/-- `conf.Consumer`. -/
structure Consumer where
  name : String
  enabled : Bool
  queue : String
  exchange : String := ""
  routingKey : String := ""
  consumerTag : String := ""
  maxConcurrency : ℤ := 0
  prefetchCount : ℤ := 0
  queueDurable : Bool := false
  queueAutoDelete : Bool := false
  queueExclusive : Bool := false
  autoAck : Bool := false
deriving DecidableEq, Repr

/-- `conf.RabbitMQ`. -/
structure RabbitMQ where
  urls : List String
  producers : List Producer
  consumers : List Consumer
  username : String := ""
  password : String := ""
  virtualHost : String
  dialTimeout : Option ℤ := none
  heartbeat : Option ℤ := none
  channelPoolSize : ℤ := 0
deriving DecidableEq, Repr

def second : ℤ := 1000000000
def millisecond : ℤ := 1000000

/-- `defaultRabbitMQConfig`: one enabled producer and one enabled consumer. -/
def defaultRabbitMQConfig : RabbitMQ where
  urls := ["amqp://localhost:5672/"]
  producers := [{
    name := "default-producer", enabled := true, exchange := defaultExchange,
    exchangeType := "direct", exchangeDurable := true, publishTimeout := some (3 * second),
    maxRetries := 3, retryBackoff := some (100 * millisecond) }]
  consumers := [{
    name := "default-consumer", enabled := true, queue := defaultQueue, queueDurable := true,
    consumerTag := defaultConsumer, maxConcurrency := 1, prefetchCount := 1, autoAck := false }]
  virtualHost := defaultVirtualHost
  dialTimeout := some (3 * second)
  heartbeat := some (30 * second)
  channelPoolSize := defaultChannelPoolSize

/-- `GetEnabledProducers`. -/
def RabbitMQ.getEnabledProducers (cfg : RabbitMQ) : List Producer :=
  cfg.producers.filter (·.enabled)

/-- `GetEnabledConsumers`. -/
def RabbitMQ.getEnabledConsumers (cfg : RabbitMQ) : List Consumer :=
  cfg.consumers.filter (·.enabled)

/-- The settings `startDispatchLoop` reads for a consumer name: those of the
first entry of that name in the full list, enabled or not, and the zero values
when there is none. -/
def RabbitMQ.dispatchSettings (cfg : RabbitMQ) (consumerName : String) : Bool × ℤ :=
  match cfg.consumers.find? (·.name == consumerName) with
  | some c => (c.autoAck, c.prefetchCount)
  | none => (false, 0)

end LynxRabbit
