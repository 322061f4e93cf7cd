/-
# What a set-up declares on the broker

`createProducer` declares the exchange of its entry, `createConsumer` the queue of
its entry (`client.go`).  A consumer's `exchange` and `routing_key` are the dead-letter
exchange and key of its queue, by the convention that the comment of `buildQueueArgs`
states and its test checks; `conf/rabbitmq.proto` and the README call them the exchange
to bind the queue to and the key to bind it under, but `QueueBind` is called nowhere.

The topology after a set-up is the one before it with everything declared that the
set-up has declared, in order.  So the queues and exchanges of the configuration are
there, each queue was asked for with its dead-letter arguments, and a consumer's binding
is there only if it was there before (`consumers_reachable_iff`).
-/

import LynxRabbit.Amqp.Topology
import LynxRabbit.Conf.Normalize
import LynxRabbit.Setup.Run
import LynxRabbit.Subscriptions.Settings

namespace LynxRabbit

open Amqp

/-- `buildQueueArgs`; a nil table is the empty one. -/
def Consumer.buildQueueArgs (c : Consumer) : List (String × String) :=
  if c.exchange ≠ "" then
    ("x-dead-letter-exchange", c.exchange) ::
      if c.routingKey ≠ "" then [("x-dead-letter-routing-key", c.routingKey)] else []
  else []

/-- What `createProducer` declares. -/
def Producer.declaration (p : Producer) : Declaration :=
  .exchange ⟨p.exchange, p.exchangeType, p.exchangeDurable, p.exchangeAutoDelete⟩

/-- What `createConsumer` declares. -/
def Consumer.declaration (c : Consumer) : Declaration :=
  .queue ⟨c.queue, c.queueDurable, c.queueAutoDelete, c.queueExclusive, c.buildQueueArgs⟩

/-- What a step of a set-up declares on the broker. -/
def SetupStep.declaration : SetupStep → Option Declaration
  | .request (.exchangeDeclare p) _ => some p.declaration
  | .request (.queueDeclare c) _ => some c.declaration
  | _ => none

/-- The broker after the steps a set-up has taken. -/
def topologyAfter (t : Topology) (taken : List SetupStep) : Topology :=
  t.declareAll (taken.filterMap SetupStep.declaration)

/-- The binding the configuration of a consumer asks for. -/
def Consumer.binding (c : Consumer) : Binding := ⟨c.queue, c.exchange, c.routingKey⟩

/-- Every enabled consumer with an exchange is bound to it under its key, and gets what
is published there under that key when the exchange is direct. -/
def ConsumersReachable (cfg : RabbitMQ) (t : Topology) : Prop :=
  ∀ c ∈ cfg.getEnabledConsumers, c.exchange ≠ "" → c.binding ∈ t.bindings ∧
    (t.isDirect c.exchange = true → c.queue ∈ t.routes c.exchange c.routingKey)

/-- Everything the enabled entries name is on the broker. -/
def AllDeclared (cfg : RabbitMQ) (t : Topology) : Prop :=
  (∀ p ∈ cfg.getEnabledProducers, t.holds p.declaration) ∧
    ∀ c ∈ cfg.getEnabledConsumers, t.holds c.declaration

/-- The queue of every enabled consumer was asked for with the consumer's exchange and
key, where they are given, as its dead-letter exchange and key. -/
def DeadLettersAsked (cfg : RabbitMQ) (taken : List SetupStep) : Prop :=
  ∀ c ∈ cfg.getEnabledConsumers, ∃ q, .queue q ∈ taken.filterMap SetupStep.declaration ∧
    q.name = c.queue ∧
    q.args.lookup "x-dead-letter-exchange" =
      (if c.exchange = "" then none else some c.exchange) ∧
    q.args.lookup "x-dead-letter-routing-key" =
      (if c.exchange = "" ∨ c.routingKey = "" then none else some c.routingKey)

/-! ### The steps that declare -/

theorem Consumer.lookup_buildQueueArgs (c : Consumer) :
    c.buildQueueArgs.lookup "x-dead-letter-exchange" =
        (if c.exchange = "" then none else some c.exchange) ∧
      c.buildQueueArgs.lookup "x-dead-letter-routing-key" =
        (if c.exchange = "" ∨ c.routingKey = "" then none else some c.routingKey) := by
  unfold Consumer.buildQueueArgs
  by_cases hx : c.exchange = ""
  · simp [hx]
  · by_cases hk : c.routingKey = ""
    · simp [hx, hk]
    · simp [hx, hk, List.lookup_cons]

theorem Producer.declaration_mem_body {p : Producer} (h : p.exchange ≠ "") (ch : Channel) :
    p.declaration ∈ ((SetupStep.createProducer p).body ch).filterMap SetupStep.declaration := by
  simp only [SetupStep.body, Producer.onChannel, if_pos h]
  exact List.mem_cons_self ..

theorem Consumer.declaration_mem_body {c : Consumer} (h : c.queue ≠ "") (ch : Channel) :
    c.declaration ∈ ((SetupStep.createConsumer c).body ch).filterMap SetupStep.declaration := by
  refine List.mem_filterMap.2 ⟨.request (.queueDeclare c) ch, ?_, rfl⟩
  simp only [SetupStep.body, Consumer.onChannel, if_pos h]
  exact List.mem_append_left _ (List.mem_append_right _ (List.mem_singleton_self _))

/-- **A set-up that succeeds has declared** whatever one of its entries declares on
its channel. -/
theorem SetupDone.declaration_mem {s : Client} {sts : List SetupStep} {r : SetupRun}
    {done : List (SetupStep × Channel)} {st : SetupStep} {d : Declaration}
    (hd : SetupDone s sts r done) (herr : r.err = none) (hst : st ∈ sts)
    (h : ∀ ch, d ∈ (st.body ch).filterMap SetupStep.declaration) :
    d ∈ r.taken.filterMap SetupStep.declaration := by
  rw [← hd.all herr] at hst
  obtain ⟨⟨st', ch⟩, hmem, rfl⟩ := List.mem_map.1 hst
  obtain ⟨tail, htaken, -, -⟩ := hd.taken
  obtain ⟨i, hi, hdecl⟩ := List.mem_filterMap.1 (h ch)
  refine List.mem_filterMap.2 ⟨i, ?_, hdecl⟩
  rw [htaken]
  exact List.mem_append_left _ (List.mem_flatMap.2 ⟨_, hmem, List.mem_cons_of_mem _ hi⟩)

/-- **A set-up declares, and binds nothing.**  For every accepted configuration, once both
set-ups have succeeded on a broker in any state, every exchange and queue of the enabled
entries is declared; the queue of a consumer was asked for with the consumer's exchange
and key as its dead-letter exchange and key; and every enabled consumer with an exchange
is reachable through it if and only if the broker held its binding before. -/
theorem consumers_reachable_iff (raw : Option ScannedRabbitMQ) (s s' : Client) (t : Topology)
    (os : List Choice) (taken : List SetupStep)
    (hcfg : normalizeRabbitMQConfig raw = .ok s.config)
    (hrun : runSetup s (s.config.initializeProducers ++ s.config.initializeConsumers) os =
      some ⟨s', none, taken⟩) :
    AllDeclared s.config (topologyAfter t taken) ∧ DeadLettersAsked s.config taken ∧
      (ConsumersReachable s.config (topologyAfter t taken) ↔
        ∀ c ∈ s.config.getEnabledConsumers, c.exchange ≠ "" → c.binding ∈ t.bindings) := by
  have hopens : ∀ st ∈ s.config.initializeProducers ++ s.config.initializeConsumers,
      st.opens = true := by
    intro st hst
    rcases List.mem_append.1 hst with hst | hst <;> obtain ⟨k, -, rfl⟩ := List.mem_map.1 hst <;> rfl
  obtain ⟨done, hd⟩ := runSetup_creates hopens hrun
  have hnormal := normal_of_normalize hcfg
  have hbind : (topologyAfter t taken).bindings = t.bindings := Topology.bindings_declareAll _ _
  have hasked : ∀ c ∈ s.config.getEnabledConsumers,
      c.declaration ∈ taken.filterMap SetupStep.declaration := by
    intro c hc
    have hq := (hnormal.consumers c (List.mem_of_mem_filter hc)).queue
    refine hd.declaration_mem rfl ?_ (Consumer.declaration_mem_body hq)
    exact List.mem_append_right _ (List.mem_map_of_mem hc)
  refine ⟨⟨fun p hp => ?_, fun c hc => Topology.holds_declareAll (.inr (hasked c hc))⟩,
    fun c hc => ⟨_, hasked c hc, rfl, c.lookup_buildQueueArgs⟩, fun hreach c hc hx => ?_,
    fun hheld c hc hx => ?_⟩
  · have hx := (hnormal.producers p (List.mem_of_mem_filter hp)).exchange
    refine Topology.holds_declareAll (.inr (hd.declaration_mem rfl ?_
      (Producer.declaration_mem_body hx)))
    exact List.mem_append_left _ (List.mem_map_of_mem hp)
  · rw [← hbind]
    exact (hreach c hc hx).1
  · have hin : c.binding ∈ (topologyAfter t taken).bindings := by
      rw [hbind]
      exact hheld c hc hx
    exact ⟨hin, fun _ => Topology.mem_routes hin⟩

/-- The entries of the README's basic configuration: one producer, and one consumer to
be bound to the producer's exchange. -/
def readmeConfig : RabbitMQ :=
  { defaultRabbitMQConfig with
    producers := [{
      name := "default-producer", enabled := true, exchange := "lynx.exchange",
      exchangeType := "direct", routingKey := "lynx.routing.key",
      publishTimeout := some (3 * second), maxRetries := 3,
      retryBackoff := some (100 * millisecond) }]
    consumers := [{
      name := "default-consumer", enabled := true, queue := "lynx.queue",
      exchange := "lynx.exchange", routingKey := "lynx.routing.key",
      consumerTag := defaultConsumer, maxConcurrency := 1, prefetchCount := 1 }] }

/-- A broker on which somebody has bound the queue of the README by hand. -/
def boundByHand : Topology where
  exchanges := [⟨"lynx.exchange", "direct", false, false⟩]
  queues := [⟨"lynx.queue", false, false, false, []⟩]
  bindings := [⟨"lynx.queue", "lynx.exchange", "lynx.routing.key"⟩]
  bound := by simp

theorem consumers_reachable_bound_by_hand :
    ∃ (s' : Client) (taken : List SetupStep),
      runSetup (connectedClient readmeConfig)
        (readmeConfig.initializeProducers ++ readmeConfig.initializeConsumers)
        (List.replicate 8 .ok) = some ⟨s', none, taken⟩ ∧
      ConsumersReachable readmeConfig (topologyAfter boundByHand taken) := by
  refine ⟨_, _, rfl, ?_⟩
  exact (consumers_reachable_iff (some readmeConfig.scanned) (connectedClient readmeConfig) _
    boundByHand (List.replicate 8 .ok) _ rfl rfl).2.2.2 (by decide)

/-- **The README's consumer is not bound.**  On an empty broker the set-up succeeds and
declares a direct exchange and a queue; a message published there under the consumer's
key is routed nowhere, and the queue has the exchange as its dead-letter exchange. -/
theorem consumer_unreachable :
    ∃ (s' : Client) (taken : List SetupStep),
      normalizeRabbitMQConfig (some readmeConfig.scanned) = .ok readmeConfig ∧
      runSetup (connectedClient readmeConfig)
        (readmeConfig.initializeProducers ++ readmeConfig.initializeConsumers)
        (List.replicate 8 .ok) = some ⟨s', none, taken⟩ ∧
      (topologyAfter .empty taken).isDirect "lynx.exchange" = true ∧
      (topologyAfter .empty taken).routes "lynx.exchange" "lynx.routing.key" = [] ∧
      (topologyAfter .empty taken).queues = [⟨"lynx.queue", false, false, false,
        [("x-dead-letter-exchange", "lynx.exchange"),
          ("x-dead-letter-routing-key", "lynx.routing.key")]⟩] ∧
      ¬ ConsumersReachable readmeConfig (topologyAfter .empty taken) := by
  refine ⟨_, _, rfl, rfl, by decide, by decide, by decide, fun h => ?_⟩
  have hbound := h _ (List.mem_singleton_self _) (by decide)
  exact absurd hbound.1 (by decide)

end LynxRabbit
