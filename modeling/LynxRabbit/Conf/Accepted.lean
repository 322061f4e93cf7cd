/-
# Which configurations are accepted, and what is kept of them

`normalizeRabbitMQConfig` (`client.go`) goes over a configuration once, refusing and
filling in as it goes.  `normalize_ok_iff` says which configurations it accepts, all
checks together, and `kept_of_normalize` what of an accepted one is in the result: the
entries in their order, and every field that held an admissible value.
-/

import LynxRabbit.Conf.Normalize

namespace LynxRabbit

/-- A configuration that is accepted: no empty URL, no nil entry, and only accepted
entries. -/
structure ScannedRabbitMQ.Accepted (raw : ScannedRabbitMQ) : Prop where
  urls : ∀ url ∈ raw.urls, url ≠ ""
  producers : ∀ e ∈ raw.producers, ∃ p, e = some p ∧ p.Accepted
  consumers : ∀ e ∈ raw.consumers, ∃ c, e = some c ∧ c.Accepted

/-- `q` is `p` with every admissible value as it was. -/
structure Producer.Kept (p q : Producer) : Prop where
  exchange : p.exchange ≠ "" → q.exchange = p.exchange
  exchangeType : p.exchangeType ∈ exchangeTypes → q.exchangeType = p.exchangeType
  publishTimeout : positive p.publishTimeout → q.publishTimeout = p.publishTimeout
  maxRetries : 0 < p.maxRetries → q.maxRetries = p.maxRetries
  retryBackoff : positive p.retryBackoff → q.retryBackoff = p.retryBackoff
  /-- The other fields have no inadmissible values. -/
  rest : q = { p with
    exchange := q.exchange, exchangeType := q.exchangeType, publishTimeout := q.publishTimeout,
    maxRetries := q.maxRetries, retryBackoff := q.retryBackoff }

/-- `d` is `c` with every admissible value as it was. -/
structure Consumer.Kept (c d : Consumer) : Prop where
  queue : c.queue ≠ "" → d.queue = c.queue
  consumerTag : c.consumerTag ≠ "" → d.consumerTag = c.consumerTag
  maxConcurrency : 0 < c.maxConcurrency → d.maxConcurrency = c.maxConcurrency
  prefetchCount : 0 < c.prefetchCount → d.prefetchCount = c.prefetchCount
  rest : d = { c with
    queue := d.queue, consumerTag := d.consumerTag, maxConcurrency := d.maxConcurrency,
    prefetchCount := d.prefetchCount }

/-- `cfg` has the entries of `raw` in their order, and every admissible value as it was. -/
structure ScannedRabbitMQ.Kept (raw : ScannedRabbitMQ) (cfg : RabbitMQ) : Prop where
  urls : raw.urls ≠ [] → cfg.urls = raw.urls
  producers : List.Forall₂ (fun e q => ∃ p, e = some p ∧ p.Kept q) raw.producers cfg.producers
  consumers : List.Forall₂ (fun e d => ∃ c, e = some c ∧ c.Kept d) raw.consumers cfg.consumers
  username : cfg.username = raw.username
  password : cfg.password = raw.password
  virtualHost : raw.virtualHost ≠ "" → cfg.virtualHost = raw.virtualHost
  dialTimeout : positive raw.dialTimeout → cfg.dialTimeout = raw.dialTimeout
  heartbeat : positive raw.heartbeat → cfg.heartbeat = raw.heartbeat
  channelPoolSize : 0 < raw.channelPoolSize → cfg.channelPoolSize = raw.channelPoolSize

/-! ### One entry -/

theorem Producer.kept_of_normalize {i : ℕ} {p q : Producer}
    (h : normalizeProducer i (some p) = .ok q) : p.Kept q := by
  obtain ⟨-, rfl⟩ := normalizeProducer_eq_ok_iff.1 h
  exact {
    exchange := textOr_of_ne
    exchangeType := fun hmem => textOr_of_ne (ne_of_mem_exchangeTypes hmem)
    publishTimeout := durationOr_of_positive
    maxRetries := fun hpos => if_neg (Int.ne_of_gt hpos)
    retryBackoff := durationOr_of_positive
    rest := rfl }

theorem Consumer.kept_of_normalize {i : ℕ} {c d : Consumer}
    (h : normalizeConsumer i (some c) = .ok d) : c.Kept d := by
  obtain ⟨-, rfl⟩ := normalizeConsumer_eq_ok_iff.1 h
  exact {
    queue := textOr_of_ne
    consumerTag := textOr_of_ne
    maxConcurrency := countOr_of_pos
    prefetchCount := countOr_of_pos
    rest := rfl }

/-! ### The whole configuration -/

/-- A `range` succeeds exactly when every entry is there and accepted. -/
theorem exists_normalizeEach_iff {α : Type} {f : ℕ → Option α → Except GoError α} {P : α → Prop}
    (hnil : ∀ i a, f i none ≠ .ok a) (hf : ∀ i a, (∃ b, f i (some a) = .ok b) ↔ P a) (i : ℕ)
    (es : List (Option α)) :
    (∃ bs, normalizeEach f i es = .ok bs) ↔ ∀ e ∈ es, ∃ a, e = some a ∧ P a := by
  induction es generalizing i with
  | nil => simp [normalizeEach]
  | cons e es ih =>
      rw [List.forall_mem_cons, ← ih (i + 1), normalizeEach]
      cases e with
      | none =>
          cases he : f i none with
          | error err => simp
          | ok b => exact absurd he (hnil i b)
      | some a =>
          simp only [Option.some.injEq, exists_eq_left', ← hf i a]
          cases f i (some a) with
          | error err => simp
          | ok b => cases normalizeEach f (i + 1) es <;> simp

/-- **The accepted configurations are the ones that are normalised.** -/
theorem normalize_ok_iff (raw : ScannedRabbitMQ) :
    (∃ cfg, normalizeRabbitMQConfig (some raw) = .ok cfg) ↔ raw.Accepted := by
  have hurls : checkUrls 0 (urlsOr raw.urls) = none ↔ ∀ url ∈ raw.urls, url ≠ "" := by
    rw [checkUrls_eq_none_iff, urlsOr]
    split_ifs with h
    · simp [h, defaultUrl]
    · rfl
  have hproducers := exists_normalizeEach_iff (f := normalizeProducer) (P := Producer.Accepted)
    (fun i p h => by cases h)
    (fun i p => by simp only [normalizeProducer_eq_ok_iff, exists_and_left, exists_eq, and_true])
    0 raw.producers
  have hconsumers := exists_normalizeEach_iff (f := normalizeConsumer) (P := Consumer.Accepted)
    (fun i c h => by cases h)
    (fun i c => by simp only [normalizeConsumer_eq_ok_iff, exists_and_left, exists_eq, and_true])
    0 raw.consumers
  constructor
  · rintro ⟨cfg, h⟩
    obtain ⟨hu, hp, hc, -⟩ := normalize_cases h
    exact ⟨hurls.1 hu, hproducers.1 ⟨_, hp⟩, hconsumers.1 ⟨_, hc⟩⟩
  · intro ha
    obtain ⟨producers, hp⟩ := hproducers.2 ha.producers
    obtain ⟨consumers, hc⟩ := hconsumers.2 ha.consumers
    simp only [normalizeRabbitMQConfig, hurls.2 ha.urls, hp, hc]
    exact ⟨_, rfl⟩

/-- **What is kept of an accepted configuration.** -/
theorem kept_of_normalize {raw : ScannedRabbitMQ} {cfg : RabbitMQ}
    (h : normalizeRabbitMQConfig (some raw) = .ok cfg) : raw.Kept cfg := by
  obtain ⟨-, hp, hc, hcfg⟩ := normalize_cases h
  have hproducers : List.Forall₂ (fun e q => ∃ p, e = some p ∧ Producer.Kept p q)
      raw.producers cfg.producers := by
    refine forall₂_of_normalizeEach (fun i e q hq => ?_) hp
    cases e with
    | none => cases hq
    | some p => exact ⟨p, rfl, Producer.kept_of_normalize hq⟩
  have hconsumers : List.Forall₂ (fun e d => ∃ c, e = some c ∧ Consumer.Kept c d)
      raw.consumers cfg.consumers := by
    refine forall₂_of_normalizeEach (fun i e d hd => ?_) hc
    cases e with
    | none => cases hd
    | some c => exact ⟨c, rfl, Consumer.kept_of_normalize hd⟩
  rw [hcfg]
  exact {
    urls := urlsOr_of_ne
    producers := hproducers
    consumers := hconsumers
    username := rfl
    password := rfl
    virtualHost := textOr_of_ne
    dialTimeout := durationOr_of_positive
    heartbeat := durationOr_of_positive
    channelPoolSize := countOr_of_pos }

end LynxRabbit
