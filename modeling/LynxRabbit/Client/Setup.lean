/-
# Dialling, and setting up producers and consumers

`dial`, `initializeProducers`, `initializeConsumers`, `createProducer` and
`createConsumer` of `client.go`.

A set-up is the list of the calls still to make.  `createProducer p` stands for
the whole pending call; its first atomic step validates the names and calls
`Channel()` on whatever `r.connection` holds then, the field being read again
without the mutex for every entry, and leaves behind the requests on the fresh
channel and the registration under the producer's name.  A request that fails
closes the channel and ends the set-up.
-/

import LynxRabbit.Client.State

namespace LynxRabbit

/-- `dial`: a fresh connection, or the error. -/
def Client.dial (s : Client) (o : Choice) : Except GoError (Client × ConnId) :=
  match s.config.urls with
  | [] => .error (.errorf "no RabbitMQ URLs configured")
  | url :: _ =>
    match validateVirtualHost s.config.virtualHost with
    | some e => .error (.wrapf "invalid virtual host" e)
    | none =>
      match o.err with
      | some text => .error (.wrapf ("failed to connect to RabbitMQ at " ++ url) (.library text))
      | none => .ok ({ s with amqp := s.amqp.dial }, s.amqp.dialled)

/-- A call on the channel of an entry that is being set up. -/
inductive Request
  | exchangeDeclare (p : Producer)
  | confirm (p : Producer)
  | qos (c : Consumer)
  | queueDeclare (c : Consumer)
deriving DecidableEq, Repr

/-- The error `initializeProducers` returns for producer `p`. -/
def Producer.failure (p : Producer) (e : GoError) : GoError :=
  .wrapf ("failed to create producer " ++ p.name) e

/-- The error `initializeConsumers` returns for consumer `c`. -/
def Consumer.failure (c : Consumer) (e : GoError) : GoError :=
  .wrapf ("failed to create consumer " ++ c.name) e

/-- The error of a request the broker refused with `text`. -/
def Request.failure (text : String) : Request → GoError
  | .exchangeDeclare p =>
    p.failure (.wrapf ("failed to declare exchange " ++ p.exchange) (.library text))
  | .confirm p =>
    p.failure (.wrapf ("failed to enable publisher confirms for producer " ++ p.name)
      (.library text))
  | .qos c => c.failure (.wrapf "failed to set QoS" (.library text))
  | .queueDeclare c => c.failure (.wrapf ("failed to declare queue " ++ c.queue) (.library text))

/-- What is left of a set-up. -/
inductive SetupStep
  | createProducer (p : Producer)
  | createConsumer (c : Consumer)
  | request (r : Request) (ch : Channel)
  | registerProducer (name : String) (ch : Channel)
  | registerConsumer (name : String) (ch : Channel)
deriving DecidableEq, Repr

/-- `createProducer` before it touches the network. -/
def Producer.check (p : Producer) : Option GoError :=
  if p.exchange ≠ "" then
    ((validateExchange p.exchange).or (validateExchangeType p.exchangeType)).map
      (.wrapf ("producer " ++ p.name))
  else none

/-- `createConsumer` before it touches the network. -/
def Consumer.check (c : Consumer) : Option GoError :=
  ((if c.queue ≠ "" then validateQueue c.queue else none).or
    (if c.exchange ≠ "" then validateExchange c.exchange else none)).map
      (.wrapf ("consumer " ++ c.name))

/-- `createProducer` after `Channel()` returned `ch`. -/
def Producer.onChannel (p : Producer) (ch : Channel) : List SetupStep :=
  (if p.exchange ≠ "" then [.request (.exchangeDeclare p) ch, .request (.confirm p) ch] else []) ++
    [.registerProducer p.name ch]

/-- `createConsumer` after `Channel()` returned `ch`. -/
def Consumer.onChannel (c : Consumer) (ch : Channel) : List SetupStep :=
  (if c.prefetchCount > 0 then [.request (.qos c) ch] else []) ++
    (if c.queue ≠ "" then [.request (.queueDeclare c) ch] else []) ++
    [.registerConsumer c.name ch]

/-- `r.connection.Channel()` under a check that comes before it and a body that
comes after it.  A nil connection is a nil dereference. -/
def Client.openChannel (s : Client) (o : Choice) (check : Option GoError)
    (failure : GoError → GoError) (body : Channel → List SetupStep) :
    Progress (List SetupStep) :=
  match check with
  | some e => .fail s (failure e)
  | none =>
    match s.connection with
    | none => .panic
    | some c =>
      match s.amqp.channel c o with
      | .error text => .fail s (failure (.wrapf "failed to create channel" (.library text)))
      | .ok (b, ch) => .next { s with amqp := b } (body ch)

/-- One atomic step of a set-up, with the steps it leaves behind. -/
def SetupStep.exec (s : Client) (o : Choice) : SetupStep → Progress (List SetupStep)
  | .createProducer p => s.openChannel o p.check p.failure p.onChannel
  | .createConsumer c => s.openChannel o c.check c.failure c.onChannel
  | .request r ch =>
    match s.amqp.callErr ch o with
    | some text => .fail { s with amqp := s.amqp.closeChannel ch } (r.failure text)
    | none => .next s []
  | .registerProducer name ch => .next { s with producers := s.producers.insert name (some ch) } []
  | .registerConsumer name ch => .next { s with consumers := s.consumers.insert name (some ch) } []

/-- `initializeProducers`. -/
def RabbitMQ.initializeProducers (cfg : RabbitMQ) : List SetupStep :=
  cfg.getEnabledProducers.map .createProducer

/-- `initializeConsumers`. -/
def RabbitMQ.initializeConsumers (cfg : RabbitMQ) : List SetupStep :=
  cfg.getEnabledConsumers.map .createConsumer

/-- The step belongs to a producer. -/
def SetupStep.ofProducer : SetupStep → Bool
  | .createProducer _ => true
  | .createConsumer _ => false
  | .request (.exchangeDeclare _) _ => true
  | .request (.confirm _) _ => true
  | .request (.qos _) _ => false
  | .request (.queueDeclare _) _ => false
  | .registerProducer _ _ => true
  | .registerConsumer _ _ => false

/-- The step still has to call `Channel()` on `r.connection`. -/
def SetupStep.opens : SetupStep → Bool
  | .createProducer _ => true
  | .createConsumer _ => true
  | _ => false

end LynxRabbit
