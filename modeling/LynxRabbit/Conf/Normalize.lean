/-
# Normalising a scanned configuration

`normalizeRabbitMQConfig` of `client.go`: the checks and the defaults that stand
between what `Scan` read and what the client uses.

What was scanned may hold nil entries, so it is a record of its own,
`ScannedRabbitMQ`.  An error leaves the client's configuration as it was: the
record under construction is thrown away, so the function returns the normalised
record or the error.

`RabbitMQ.Normal` says what a normalised record satisfies.  It is exactly what the
function returns: `normal_of_normalize`, and a normal record comes back unchanged,
`normalize_of_normal`.
-/

import LynxRabbit.Conf.Validate
import Mathlib.Data.List.Forall2

namespace LynxRabbit

def defaultUrl : String := "amqp://localhost:5672/"
def defaultMaxRetries : ℤ := 3
def defaultMaxConcurrency : ℤ := 1
def defaultPrefetchCount : ℤ := 1

/-- `conf.RabbitMQ` as scanned, nil entries included. -/
structure ScannedRabbitMQ where
  urls : List String := []
  producers : List (Option Producer) := []
  consumers : List (Option Consumer) := []
  username : String := ""
  password : String := ""
  virtualHost : String := ""
  dialTimeout : Option ℤ := none
  heartbeat : Option ℤ := none
  channelPoolSize : ℤ := 0
deriving DecidableEq, Repr

/-- The `%q` of `fmt`: the text in double quotes, with a backslash before a quote or a
backslash.  `%q` also writes a character that does not print as an escape (a tab as `\t`,
a zero byte as `\x00`, a soft hyphen as `\u00ad`); here it stands as it is.  The result
only goes into error texts. -/
def quoted (text : String) : String :=
  "\"" ++ String.join (text.toList.map fun c =>
    if c = '"' ∨ c = '\\' then "\\" ++ c.toString else c.toString) ++ "\""

/-- A field left empty gets its default. -/
def textOr (default text : String) : String := if text = "" then default else text

/-- A duration that is not set or not positive gets its default. -/
def durationOr (default : ℤ) : Option ℤ → Option ℤ
  | some d => if d ≤ 0 then some default else some d
  | none => some default

/-- A count that is not positive gets its default. -/
def countOr (default n : ℤ) : ℤ := if n ≤ 0 then default else n

/-- No retries configured means the default. -/
def retriesOr (n : ℤ) : ℤ := if n = 0 then defaultMaxRetries else n

/-- Without URLs the local broker is meant. -/
def urlsOr (urls : List String) : List String := if urls = [] then [defaultUrl] else urls

/-- A field of entry `i` of a list, as the errors name it. -/
def entryField (list : String) (i : ℕ) (field : String) : String :=
  "rabbitmq " ++ list ++ "[" ++ toString i ++ "]" ++ field

/-- `range cfg.Urls`: the first URL that is empty. -/
def checkUrls : ℕ → List String → Option GoError
  | _, [] => none
  | i, url :: urls =>
    if url = "" then some (.errorf (entryField "urls" i " must not be empty"))
    else checkUrls (i + 1) urls

/-- The body of `range cfg.Producers`. -/
def normalizeProducer (i : ℕ) : Option Producer → Except GoError Producer
  | none => .error (.errorf (entryField "producers" i " configuration is nil"))
  | some p =>
    let exchangeType := textOr "direct" p.exchangeType
    if p.enabled = true ∧ p.name = "" then
      .error (.errorf (entryField "producers" i ".name is required when enabled"))
    else if exchangeType ∉ exchangeTypes then
      .error (.errorf (entryField "producers" i ".exchange_type " ++ quoted exchangeType ++
        " is invalid"))
    else if p.maxRetries < 0 then
      .error (.errorf (entryField "producers" i ".max_retries must be non-negative"))
    else .ok { p with
      exchange := textOr defaultExchange p.exchange
      exchangeType := exchangeType
      publishTimeout := durationOr (3 * second) p.publishTimeout
      maxRetries := retriesOr p.maxRetries
      retryBackoff := durationOr (100 * millisecond) p.retryBackoff }

/-- The body of `range cfg.Consumers`. -/
def normalizeConsumer (i : ℕ) : Option Consumer → Except GoError Consumer
  | none => .error (.errorf (entryField "consumers" i " configuration is nil"))
  | some c =>
    if c.enabled = true ∧ c.name = "" then
      .error (.errorf (entryField "consumers" i ".name is required when enabled"))
    else .ok { c with
      queue := textOr defaultQueue c.queue
      consumerTag := textOr defaultConsumer c.consumerTag
      maxConcurrency := countOr defaultMaxConcurrency c.maxConcurrency
      prefetchCount := countOr defaultPrefetchCount c.prefetchCount }

/-- A `range` that normalises the entries in place and returns at the first
error. -/
def normalizeEach {α β : Type} (f : ℕ → α → Except GoError β) :
    ℕ → List α → Except GoError (List β)
  | _, [] => .ok []
  | i, a :: as =>
    match f i a with
    | .error e => .error e
    | .ok b =>
      match normalizeEach f (i + 1) as with
      | .error e => .error e
      | .ok bs => .ok (b :: bs)

/-- `normalizeRabbitMQConfig`. -/
def normalizeRabbitMQConfig : Option ScannedRabbitMQ → Except GoError RabbitMQ
  | none => .error (.errorf "rabbitmq configuration is required")
  | some cfg =>
    match checkUrls 0 (urlsOr cfg.urls) with
    | some e => .error e
    | none =>
      match normalizeEach normalizeProducer 0 cfg.producers with
      | .error e => .error e
      | .ok producers =>
        match normalizeEach normalizeConsumer 0 cfg.consumers with
        | .error e => .error e
        | .ok consumers => .ok {
            urls := urlsOr cfg.urls
            producers := producers
            consumers := consumers
            username := cfg.username
            password := cfg.password
            virtualHost := textOr defaultVirtualHost cfg.virtualHost
            dialTimeout := durationOr (3 * second) cfg.dialTimeout
            heartbeat := durationOr (30 * second) cfg.heartbeat
            channelPoolSize := countOr defaultChannelPoolSize cfg.channelPoolSize }

/-! ### What the defaults guarantee -/

theorem textOr_ne {default : String} (h : default ≠ "") (text : String) :
    textOr default text ≠ "" := by
  unfold textOr
  split_ifs with ht
  · exact h
  · exact ht

theorem textOr_of_ne {default text : String} (h : text ≠ "") : textOr default text = text :=
  if_neg h

theorem urlsOr_ne (urls : List String) : urlsOr urls ≠ [] := by
  unfold urlsOr
  split_ifs with h
  · exact List.cons_ne_nil _ _
  · exact h

theorem urlsOr_of_ne {urls : List String} (h : urls ≠ []) : urlsOr urls = urls := if_neg h

theorem countOr_pos {default : ℤ} (h : 0 < default) (n : ℤ) : 0 < countOr default n := by
  unfold countOr
  split_ifs <;> omega

theorem countOr_of_pos {default n : ℤ} (h : 0 < n) : countOr default n = n :=
  if_neg (by omega)

/-- A duration that is set and positive. -/
def positive (d : Option ℤ) : Prop := ∃ n, d = some n ∧ 0 < n

theorem durationOr_positive {default : ℤ} (h : 0 < default) (d : Option ℤ) :
    positive (durationOr default d) := by
  cases d with
  | none => exact ⟨default, rfl, h⟩
  | some n =>
      rw [durationOr]
      split_ifs with hn
      · exact ⟨default, rfl, h⟩
      · exact ⟨n, rfl, by omega⟩

theorem durationOr_of_positive {default : ℤ} {d : Option ℤ} (h : positive d) :
    durationOr default d = d := by
  obtain ⟨n, rfl, hn⟩ := h
  exact if_neg (by omega)

/-- An entry of `producers` after normalisation. -/
structure Producer.Normal (p : Producer) : Prop where
  name : p.enabled = true → p.name ≠ ""
  exchange : p.exchange ≠ ""
  exchangeType : p.exchangeType ∈ exchangeTypes
  publishTimeout : positive p.publishTimeout
  maxRetries : 0 < p.maxRetries
  retryBackoff : positive p.retryBackoff

/-- An entry of `consumers` after normalisation. -/
structure Consumer.Normal (c : Consumer) : Prop where
  name : c.enabled = true → c.name ≠ ""
  queue : c.queue ≠ ""
  consumerTag : c.consumerTag ≠ ""
  maxConcurrency : 0 < c.maxConcurrency
  prefetchCount : 0 < c.prefetchCount

/-- A configuration after normalisation. -/
structure RabbitMQ.Normal (cfg : RabbitMQ) : Prop where
  urls : cfg.urls ≠ []
  url : ∀ url ∈ cfg.urls, url ≠ ""
  virtualHost : cfg.virtualHost ≠ ""
  dialTimeout : positive cfg.dialTimeout
  heartbeat : positive cfg.heartbeat
  channelPoolSize : 0 < cfg.channelPoolSize
  producers : ∀ p ∈ cfg.producers, p.Normal
  consumers : ∀ c ∈ cfg.consumers, c.Normal

theorem checkUrls_eq_none_iff : ∀ {i : ℕ} {urls : List String},
    checkUrls i urls = none ↔ ∀ url ∈ urls, url ≠ ""
  | _, [] => by simp [checkUrls]
  | i, url :: urls => by
      rw [checkUrls, List.forall_mem_cons, ← checkUrls_eq_none_iff (i := i + 1)]
      split_ifs with h
      · simp [h]
      · simp [h]

/-! ### One entry -/

/-- A producer that is accepted: it has a name if it is enabled, a type that is one of the
four or left out, and a limit that is not negative. -/
structure Producer.Accepted (p : Producer) : Prop where
  name : p.enabled = true → p.name ≠ ""
  exchangeType : p.exchangeType = "" ∨ p.exchangeType ∈ exchangeTypes
  maxRetries : 0 ≤ p.maxRetries

/-- A consumer that is accepted: it has a name if it is enabled. -/
def Consumer.Accepted (c : Consumer) : Prop := c.enabled = true → c.name ≠ ""

theorem textOr_direct_mem {text : String} :
    textOr "direct" text ∈ exchangeTypes ↔ text = "" ∨ text ∈ exchangeTypes := by
  unfold textOr
  split_ifs with h
  · simp [h, exchangeTypes]
  · simp [h]

/-- **A producer passes exactly when it is accepted**, with the defaults filled in. -/
theorem normalizeProducer_eq_ok_iff {i : ℕ} {p q : Producer} :
    normalizeProducer i (some p) = .ok q ↔ p.Accepted ∧ q = { p with
      exchange := textOr defaultExchange p.exchange
      exchangeType := textOr "direct" p.exchangeType
      publishTimeout := durationOr (3 * second) p.publishTimeout
      maxRetries := retriesOr p.maxRetries
      retryBackoff := durationOr (100 * millisecond) p.retryBackoff } := by
  simp only [normalizeProducer]
  constructor
  · intro h
    split_ifs at h with hname htype hretries
    cases h
    exact ⟨⟨fun he hn => hname ⟨he, hn⟩, textOr_direct_mem.1 htype, Int.not_lt.1 hretries⟩, rfl⟩
  · rintro ⟨ha, rfl⟩
    rw [if_neg fun hn => ha.name hn.1 hn.2, if_neg (not_not_intro (textOr_direct_mem.2
      ha.exchangeType)), if_neg (Int.not_lt.2 ha.maxRetries)]

theorem normalizeConsumer_eq_ok_iff {i : ℕ} {c d : Consumer} :
    normalizeConsumer i (some c) = .ok d ↔ c.Accepted ∧ d = { c with
      queue := textOr defaultQueue c.queue
      consumerTag := textOr defaultConsumer c.consumerTag
      maxConcurrency := countOr defaultMaxConcurrency c.maxConcurrency
      prefetchCount := countOr defaultPrefetchCount c.prefetchCount } := by
  simp only [normalizeConsumer]
  constructor
  · intro h
    split_ifs at h with hname
    cases h
    exact ⟨fun he hn => hname ⟨he, hn⟩, rfl⟩
  · rintro ⟨ha, rfl⟩
    rw [if_neg fun hn => ha hn.1 hn.2]

theorem normal_of_normalizeProducer {i : ℕ} {p : Option Producer} {q : Producer}
    (h : normalizeProducer i p = .ok q) : q.Normal := by
  cases p with
  | none => cases h
  | some p =>
      obtain ⟨ha, rfl⟩ := normalizeProducer_eq_ok_iff.1 h
      have hretries := ha.maxRetries
      have hmax : 0 < retriesOr p.maxRetries := by
        unfold retriesOr defaultMaxRetries
        split_ifs <;> omega
      exact {
        name := ha.name
        exchange := textOr_ne (by decide) _
        exchangeType := textOr_direct_mem.2 ha.exchangeType
        publishTimeout := durationOr_positive (by decide) _
        maxRetries := hmax
        retryBackoff := durationOr_positive (by decide) _ }

theorem normal_of_normalizeConsumer {i : ℕ} {c : Option Consumer} {d : Consumer}
    (h : normalizeConsumer i c = .ok d) : d.Normal := by
  cases c with
  | none => cases h
  | some c =>
      obtain ⟨ha, rfl⟩ := normalizeConsumer_eq_ok_iff.1 h
      exact {
        name := ha
        queue := textOr_ne (by decide) _
        consumerTag := textOr_ne (by decide) _
        maxConcurrency := countOr_pos (by decide) _
        prefetchCount := countOr_pos (by decide) _ }

/-! ### The whole configuration -/

/-- **A `range` that succeeds has normalised the entries one by one**, in their order. -/
theorem forall₂_of_normalizeEach {α β : Type} {f : ℕ → α → Except GoError β} {R : α → β → Prop}
    (hf : ∀ i a b, f i a = .ok b → R a b) {i : ℕ} {as : List α} {bs : List β}
    (h : normalizeEach f i as = .ok bs) : List.Forall₂ R as bs := by
  induction as generalizing i bs with
  | nil =>
      cases h
      exact .nil
  | cons a as ih =>
      rw [normalizeEach] at h
      split at h
      · cases h
      · rename_i b hb
        split at h
        · cases h
        · rename_i bs' hbs
          cases h
          exact .cons (hf i a b hb) (ih hbs)

/-- What every normalised entry satisfies holds of the whole list. -/
theorem forall_of_normalizeEach {α β : Type} {f : ℕ → α → Except GoError β} {P : β → Prop}
    (hf : ∀ i a b, f i a = .ok b → P b) {i : ℕ} {as : List α} {bs : List β}
    (h : normalizeEach f i as = .ok bs) : ∀ b ∈ bs, P b := by
  have hall : List.Forall₂ (fun _ b => P b) as bs := forall₂_of_normalizeEach hf h
  intro b hb
  obtain ⟨i, hi, rfl⟩ := List.getElem_of_mem hb
  exact hall.get (hall.length_eq ▸ hi) hi

/-- **What a successful `normalizeRabbitMQConfig` has done.** -/
theorem normalize_cases {raw : ScannedRabbitMQ} {cfg : RabbitMQ}
    (h : normalizeRabbitMQConfig (some raw) = .ok cfg) :
    checkUrls 0 (urlsOr raw.urls) = none ∧
      normalizeEach normalizeProducer 0 raw.producers = .ok cfg.producers ∧
      normalizeEach normalizeConsumer 0 raw.consumers = .ok cfg.consumers ∧
      cfg = {
        urls := urlsOr raw.urls
        producers := cfg.producers
        consumers := cfg.consumers
        username := raw.username
        password := raw.password
        virtualHost := textOr defaultVirtualHost raw.virtualHost
        dialTimeout := durationOr (3 * second) raw.dialTimeout
        heartbeat := durationOr (30 * second) raw.heartbeat
        channelPoolSize := countOr defaultChannelPoolSize raw.channelPoolSize } := by
  simp only [normalizeRabbitMQConfig] at h
  split at h
  · cases h
  · rename_i hurls
    split at h
    · cases h
    · rename_i producers hp
      split at h
      · cases h
      · rename_i consumers hc
        cases h
        exact ⟨hurls, hp, hc, rfl⟩

/-- **What `normalizeRabbitMQConfig` returns is normal**, every default included. -/
theorem normal_of_normalize {raw : Option ScannedRabbitMQ} {cfg : RabbitMQ}
    (h : normalizeRabbitMQConfig raw = .ok cfg) : cfg.Normal := by
  cases raw with
  | none => cases h
  | some raw =>
      obtain ⟨hurls, hp, hc, hcfg⟩ := normalize_cases h
      have hproducers := forall_of_normalizeEach (fun _ _ _ => normal_of_normalizeProducer) hp
      have hconsumers := forall_of_normalizeEach (fun _ _ _ => normal_of_normalizeConsumer) hc
      rw [hcfg]
      exact {
        urls := urlsOr_ne raw.urls
        url := checkUrls_eq_none_iff.1 hurls
        virtualHost := textOr_ne (by decide) _
        dialTimeout := durationOr_positive (by decide) _
        heartbeat := durationOr_positive (by decide) _
        channelPoolSize := countOr_pos (by decide) _
        producers := hproducers
        consumers := hconsumers }

/-! ### A normal configuration comes back unchanged -/

/-- A configuration as it would be scanned again. -/
def RabbitMQ.scanned (cfg : RabbitMQ) : ScannedRabbitMQ where
  urls := cfg.urls
  producers := cfg.producers.map some
  consumers := cfg.consumers.map some
  username := cfg.username
  password := cfg.password
  virtualHost := cfg.virtualHost
  dialTimeout := cfg.dialTimeout
  heartbeat := cfg.heartbeat
  channelPoolSize := cfg.channelPoolSize

/-- A valid type is not left out. -/
theorem ne_of_mem_exchangeTypes {text : String} (h : text ∈ exchangeTypes) : text ≠ "" := by
  rintro rfl
  exact absurd h (by decide)

theorem normalizeProducer_of_normal {p : Producer} (h : p.Normal) (i : ℕ) :
    normalizeProducer i (some p) = .ok p := by
  refine normalizeProducer_eq_ok_iff.2
    ⟨⟨h.name, .inr h.exchangeType, Int.le_of_lt h.maxRetries⟩, ?_⟩
  rw [textOr_of_ne h.exchange, textOr_of_ne (ne_of_mem_exchangeTypes h.exchangeType),
    durationOr_of_positive h.publishTimeout, retriesOr, if_neg (Int.ne_of_gt h.maxRetries),
    durationOr_of_positive h.retryBackoff]

theorem normalizeConsumer_of_normal {c : Consumer} (h : c.Normal) (i : ℕ) :
    normalizeConsumer i (some c) = .ok c := by
  refine normalizeConsumer_eq_ok_iff.2 ⟨h.name, ?_⟩
  rw [textOr_of_ne h.queue, textOr_of_ne h.consumerTag, countOr_of_pos h.maxConcurrency,
    countOr_of_pos h.prefetchCount]

theorem normalizeEach_of_normal {α : Type} {f : ℕ → Option α → Except GoError α} {P : α → Prop}
    (hf : ∀ i a, P a → f i (some a) = .ok a) : ∀ {i : ℕ} {as : List α}, (∀ a ∈ as, P a) →
    normalizeEach f i (as.map some) = .ok as
  | _, [], _ => rfl
  | i, a :: as, h => by
      obtain ⟨ha, has⟩ := List.forall_mem_cons.1 h
      rw [List.map_cons, normalizeEach, hf i a ha]
      simp only [normalizeEach_of_normal hf has]

/-- **Normalising is done once**: a normal configuration is accepted as it is. -/
theorem normalize_of_normal {cfg : RabbitMQ} (h : cfg.Normal) :
    normalizeRabbitMQConfig (some cfg.scanned) = .ok cfg := by
  simp only [normalizeRabbitMQConfig, RabbitMQ.scanned]
  rw [urlsOr_of_ne h.urls, checkUrls_eq_none_iff.2 h.url,
    normalizeEach_of_normal (fun i _ hp => normalizeProducer_of_normal hp i) h.producers,
    normalizeEach_of_normal (fun i _ hc => normalizeConsumer_of_normal hc i) h.consumers]
  simp only
  rw [textOr_of_ne h.virtualHost, durationOr_of_positive h.dialTimeout,
    durationOr_of_positive h.heartbeat, countOr_of_pos h.channelPoolSize]

example : normalizeRabbitMQConfig (some defaultRabbitMQConfig.scanned) =
    .ok defaultRabbitMQConfig := rfl

end LynxRabbit
