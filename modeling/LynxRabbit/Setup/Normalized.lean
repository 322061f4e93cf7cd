/-
# What a normalised configuration spares the client

`dial`, `createProducer` and `createConsumer` (`client.go`) check again what
`normalizeRabbitMQConfig` has already settled: that there is a URL, that the virtual
host, the exchange of a producer and the queue of a consumer have a name, and that the
type of an exchange is one of the four.  The configuration of a client never changes, and
a set-up is made from its enabled entries, so in no run of a client with a normalised
configuration is one of these checks decided the other way (`spared_of_run`).

A consumer's own exchange is optional, and normalisation leaves it alone: the guard
around its check does decide something.

`normalize_contract` puts this together with what normalisation accepts, keeps and
establishes.
-/

import LynxRabbit.Conf.Accepted
import LynxRabbit.Subscriptions.Names

namespace LynxRabbit

open Runs

/-- What no goroutine meets in a state: a `dial` without a URL or with an empty virtual
host, or a pending entry whose exchange or queue has no name or whose exchange type is
not valid. -/
structure Spared (p : State) : Prop where
  urls : ∀ o, p.shared.dial o ≠ .error (.errorf "no RabbitMQ URLs configured")
  virtualHost : ∀ o,
    p.shared.dial o ≠ .error (.wrapf "invalid virtual host" (.var .invalidVirtualHost))
  producers : ∀ t ∈ p.threads, ∀ q, .createProducer q ∈ t.todo →
    q.exchange ≠ "" ∧ ∀ e, q.check = some e → e.OfKind .invalidExchange
  consumers : ∀ t ∈ p.threads, ∀ c, .createConsumer c ∈ t.todo →
    c.queue ≠ "" ∧ ∀ e, c.check = some e → e.OfKind .invalidQueue ∨ e.OfKind .invalidExchange

/-! ### The checks -/

/-- The check of a normalised producer may still refuse the characters or the length of
its exchange, and nothing else. -/
theorem Producer.Normal.check {p : Producer} (hp : p.Normal) {e : GoError}
    (h : p.check = some e) : e.OfKind .invalidExchange := by
  rw [Producer.check, if_pos hp.exchange, validateExchangeType, if_pos hp.exchangeType,
    Option.or_none] at h
  obtain ⟨e', he', rfl⟩ := Option.map_eq_some_iff.1 h
  exact (validateName_ofKind hp.exchange he').wrapf _

theorem Consumer.Normal.check {c : Consumer} (hc : c.Normal) {e : GoError}
    (h : c.check = some e) : e.OfKind .invalidQueue ∨ e.OfKind .invalidExchange := by
  rw [Consumer.check, if_pos hc.queue] at h
  obtain ⟨e', he', rfl⟩ := Option.map_eq_some_iff.1 h
  rcases Option.or_eq_some_iff.1 he' with hq | ⟨-, hx⟩
  · exact .inl ((validateName_ofKind hc.queue hq).wrapf _)
  · -- the consumer's own exchange is checked when it has a name
    split_ifs at hx with hne
    exact .inr ((validateName_ofKind hne hx).wrapf _)

/-- `dial` under a normalised configuration finds a URL, and a virtual host that is
refused, if at all, with a context. -/
theorem RabbitMQ.Normal.dial {s : Client} (hs : s.config.Normal) (o : Choice) :
    s.dial o ≠ .error (.errorf "no RabbitMQ URLs configured") ∧
      s.dial o ≠ .error (.wrapf "invalid virtual host" (.var .invalidVirtualHost)) := by
  obtain ⟨url, urls, hurls⟩ := List.exists_cons_of_ne_nil hs.urls
  simp only [Client.dial, hurls]
  cases hv : validateVirtualHost s.config.virtualHost with
  | some e =>
      obtain ⟨context, rfl⟩ := eq_wrapError_of_validateName hs.virtualHost hv
      simp [wrapError]
  | none => cases o.err <;> simp

/-! ### In every run -/

/-- The entry a set-up is going to create is an enabled entry of the configuration. -/
def Configured (cfg : RabbitMQ) : SetupStep → Prop
  | .createProducer p => p ∈ cfg.getEnabledProducers
  | .createConsumer c => c ∈ cfg.getEnabledConsumers
  | _ => True

theorem inherited_configured (cfg : RabbitMQ) : Inherited (Configured cfg) cfg where
  producers := by
    intro i hi
    obtain ⟨p, hp, rfl⟩ := List.mem_map.1 hi
    exact hp
  consumers := by
    intro i hi
    obtain ⟨c, hc, rfl⟩ := List.mem_map.1 hi
    exact hc
  body := by
    intro i _ ch j hj
    cases i with
    | createProducer p => rcases Producer.mem_onChannel hj with ⟨r, rfl⟩ | rfl <;> trivial
    | createConsumer c => rcases Consumer.mem_onChannel hj with ⟨r, rfl⟩ | rfl <;> trivial
    | _ => cases hj

/-- **No run of a client with a normalised configuration meets what was settled before
it started.** -/
theorem spared_of_run {cfg : RabbitMQ} (hn : cfg.Normal) {g : State → Action → Bool} {p : State}
    (hr : Run step g (fresh cfg) p) : Spared p := by
  have hcfg := run_config hr
  have htodo := todo_of_run (inherited_configured cfg) hr
  have hdial : ∀ o, _ := RabbitMQ.Normal.dial (s := p.shared) (hcfg ▸ hn)
  refine ⟨fun o => (hdial o).1, fun o => (hdial o).2, fun t ht q hq => ?_, fun t ht c hc => ?_⟩
  · have hq := hn.producers q (List.mem_of_mem_filter (htodo t ht _ hq))
    exact ⟨hq.exchange, fun e => hq.check⟩
  · have hc := hn.consumers c (List.mem_of_mem_filter (htodo t ht _ hc))
    exact ⟨hc.queue, fun e => hc.check⟩

/-- What `normalizeRabbitMQConfig` does with a configuration. -/
structure NormalizeContract (raw : ScannedRabbitMQ) : Prop where
  /-- It succeeds on the accepted ones, -/
  accepts : (∃ cfg, normalizeRabbitMQConfig (some raw) = .ok cfg) ↔ raw.Accepted
  /-- keeps the entries, their order, and every admissible value, -/
  kept : ∀ cfg, normalizeRabbitMQConfig (some raw) = .ok cfg → raw.Kept cfg
  /-- returns a configuration in which every field is admissible, -/
  normal : ∀ cfg, normalizeRabbitMQConfig (some raw) = .ok cfg → cfg.Normal
  /-- which it does not change any more, -/
  again : ∀ cfg, normalizeRabbitMQConfig (some raw) = .ok cfg →
    normalizeRabbitMQConfig (some cfg.scanned) = .ok cfg
  /-- and which decides the later checks in every run. -/
  spares : ∀ cfg, normalizeRabbitMQConfig (some raw) = .ok cfg →
    ∀ g p, Run step g (fresh cfg) p → Spared p

/-- **The contract of `normalizeRabbitMQConfig`**, for every configuration. -/
theorem normalize_contract (raw : ScannedRabbitMQ) : NormalizeContract raw where
  accepts := normalize_ok_iff raw
  kept := fun _ h => kept_of_normalize h
  normal := fun _ h => normal_of_normalize h
  again := fun _ h => normalize_of_normal (normal_of_normalize h)
  spares := fun _ h _ _ hr => spared_of_run (normal_of_normalize h) hr

/-- A configuration that leaves out what it can: an enabled producer with a name only, and
a disabled consumer without one. -/
def sparseConfig : ScannedRabbitMQ where
  producers := [some { name := "orders", enabled := true, exchange := "", exchangeType := "" }]
  consumers := [some { name := "", enabled := false, queue := "" }]

/-- The same configuration after normalisation. -/
def filledConfig : RabbitMQ where
  urls := ["amqp://localhost:5672/"]
  producers := [{
    name := "orders", enabled := true, exchange := "lynx.exchange", exchangeType := "direct",
    maxRetries := 3, retryBackoff := some (100 * millisecond),
    publishTimeout := some (3 * second) }]
  consumers := [{
    name := "", enabled := false, queue := "lynx.queue", consumerTag := "lynx.consumer",
    maxConcurrency := 1, prefetchCount := 1 }]
  virtualHost := "/"
  dialTimeout := some (3 * second)
  heartbeat := some (30 * second)
  channelPoolSize := 10

/-- Its startup, about to create the producer. -/
theorem normalize_contract_sparse :
    normalizeRabbitMQConfig (some sparseConfig) = .ok filledConfig ∧
    ∃ q, Run step always (fresh filledConfig) q ∧
      q.threads.map Thread.todo = [filledConfig.producers.map .createProducer] ∧ Spared q := by
  have hn : normalizeRabbitMQConfig (some sparseConfig) = .ok filledConfig := rfl
  obtain ⟨q, hr, hq⟩ := exists_run_of_replay step always (fresh filledConfig)
    (fun q => q.threads.map Thread.todo == [filledConfig.producers.map .createProducer])
    (.call .startup :: solo 0 8) (by decide)
  exact ⟨hn, q, hr, beq_iff_eq.1 hq, (normalize_contract sparseConfig).spares _ hn always q hr⟩

end LynxRabbit
