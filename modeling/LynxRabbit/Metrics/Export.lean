/-
# The two exports of the metrics

`Metrics` of `metrics.go` with all its fields, and the two ways out of it: `GetStats`,
a map by category and name, and `GetPrometheusMetrics`, a text.

The counters are 64-bit and may hold any value.  A `time.Time` is its seconds since the
beginning of year 1 and the nanoseconds in the second; `Unix` counts from 1970, in 64 bits
as well.  A latency is exported in seconds, by way of a `float64` and the `%f` of `fmt`:
the division and the addition of `Duration.Seconds` and the six decimals are rounded to the
nearest value, ties to even.

The text is written out line by line, as the source has it; `lines_eq` finds the metric
families in it, and `exports_agree` reads it back and compares it with `GetStats`.

The counters of a running client are the natural numbers of `Client.metrics`.
`Metrics.record` is the record they are exported from, and `lifecycle_samples_of_run` says
what the text then tells of the managers.
-/

import LynxRabbit.Metrics.Lifecycle
import LynxRabbit.Prometheus.Format
import Mathlib

namespace LynxRabbit

open Prometheus Runs

/-- `time.Time`, by its seconds since the beginning of year 1. -/
structure Timestamp where
  sec : Int64 := 0
  nsec : Fin 1000000000 := 0
deriving DecidableEq, Repr

/-- `IsZero`. -/
def Timestamp.isZero (t : Timestamp) : Bool := t.sec == 0 && t.nsec == 0

/-- `Unix`. -/
def Timestamp.unix (t : Timestamp) : Int64 := t.sec - 62135596800

/-- `Metrics`, all of it. -/
structure MetricsRecord where
  producerMessagesSent : Int64 := 0
  producerMessagesFailed : Int64 := 0
  producerLatency : Int64 := 0
  consumerMessagesReceived : Int64 := 0
  consumerMessagesFailed : Int64 := 0
  consumerLatency : Int64 := 0
  connectionErrors : Int64 := 0
  reconnectionCount : Int64 := 0
  lastReconnectTime : Timestamp := {}
  healthCheckCount : Int64 := 0
  healthCheckErrors : Int64 := 0
  lastHealthCheck : Timestamp := {}
  isHealthy : Int32 := 0
deriving DecidableEq, Repr

/-! ### `GetStats` -/

/-- A value of `map[string]any`. -/
inductive Stat
  | int64 (n : Int64)
  | time (t : Timestamp)
  | bool (b : Bool)
deriving DecidableEq, Repr

/-- `GetStats`. -/
def MetricsRecord.getStats (m : MetricsRecord) : List (String × List (String × Stat)) := [
  ("producer", [
    ("messages_sent", .int64 m.producerMessagesSent),
    ("messages_failed", .int64 m.producerMessagesFailed),
    ("latency_ns", .int64 m.producerLatency)]),
  ("consumer", [
    ("messages_received", .int64 m.consumerMessagesReceived),
    ("messages_failed", .int64 m.consumerMessagesFailed),
    ("latency_ns", .int64 m.consumerLatency)]),
  ("connection", [
    ("errors", .int64 m.connectionErrors),
    ("reconnection_count", .int64 m.reconnectionCount),
    ("last_reconnect", .time m.lastReconnectTime)]),
  ("health", [
    ("check_count", .int64 m.healthCheckCount),
    ("check_errors", .int64 m.healthCheckErrors),
    ("last_check", .time m.lastHealthCheck),
    ("is_healthy", .bool (m.isHealthy == 1))])]

/-- An entry of `GetStats`. -/
def MetricsRecord.stat (m : MetricsRecord) (category name : String) : Option Stat :=
  (m.getStats.lookup category).bind (·.lookup name)

/-- The number an entry stands for in a sample: a truth value is 0 or 1, a time its Unix
seconds. -/
def Stat.number : Stat → ℤ
  | .int64 n => n.toInt
  | .time t => t.unix.toInt
  | .bool b => b.toNat

/-! ### `GetPrometheusMetrics` -/

/-- The `%d` of `fmt`. -/
def decimal (n : Int64) : String := toString n.toInt

/-- `n / d` rounded to the nearest integer, ties to even. -/
def roundDiv (n d : ℕ) : ℕ :=
  if 2 * (n % d) < d ∨ 2 * (n % d) = d ∧ n / d % 2 = 0 then n / d else n / d + 1

/-- The `float64` nearest to `n / d`, as a fraction, for values far from overflow and
underflow: 53 bits, the power of two chosen so that the first of them is set. -/
def nearestFloat (n d : ℕ) : ℕ × ℕ :=
  let k := 52 + d.log2 - n.log2
  let k := if n * 2 ^ k < 2 ^ 52 * d then k + 1 else k
  (roundDiv (n * 2 ^ k) d, 2 ^ k)

/-- `Duration.Seconds` of `ns` nanoseconds, `float64(sec) + float64(nsec)/1e9`.  All
values of a negative duration are those of the positive one with the sign changed. -/
def durationSeconds (ns : ℕ) : ℕ × ℕ :=
  let nsec := nearestFloat (ns % 1000000000) 1000000000
  nearestFloat (ns / 1000000000 * nsec.2 + nsec.1) nsec.2

/-- The digits that `%f` prints of a fraction. -/
def sixDecimals (x : ℕ × ℕ) : String :=
  let millionths := roundDiv (x.1 * 1000000) x.2
  toString (millionths / 1000000) ++ "." ++
    String.ofList ((Nat.toDigits 10 (millionths % 1000000)).leftpad 6 '0')

/-- The `%f` of a latency in seconds. -/
def secondsText (d : Int64) : String :=
  (if d < 0 then "-" else "") ++ sixDecimals (durationSeconds d.toInt.natAbs)

example : secondsText 1500000 = "0.001500" ∧ secondsText (-1) = "-0.000000" := by decide

/-- The name of the sample that is there only after a reconnect. -/
def lastReconnectTimestamp : String := "lynx_rabbitmq_last_reconnect_timestamp"

/-- `healthyValue`. -/
def MetricsRecord.healthyValue (m : MetricsRecord) : Int64 := if m.isHealthy = 1 then 1 else 0

/-- The lines of `GetPrometheusMetrics`, in the order in which it appends them. -/
def MetricsRecord.lines (m : MetricsRecord) : List String :=
  -- Producer metrics
  ["# HELP lynx_rabbitmq_producer_messages_sent_total Total number of messages sent",
   "# TYPE lynx_rabbitmq_producer_messages_sent_total counter",
   "lynx_rabbitmq_producer_messages_sent_total " ++ decimal m.producerMessagesSent,
   "",
   "# HELP lynx_rabbitmq_producer_messages_failed_total Total number of failed messages",
   "# TYPE lynx_rabbitmq_producer_messages_failed_total counter",
   "lynx_rabbitmq_producer_messages_failed_total " ++ decimal m.producerMessagesFailed,
   "",
   "# HELP lynx_rabbitmq_producer_latency_seconds Producer latency in seconds",
   "# TYPE lynx_rabbitmq_producer_latency_seconds gauge",
   "lynx_rabbitmq_producer_latency_seconds " ++ secondsText m.producerLatency,
   ""] ++
  -- Consumer metrics
  ["# HELP lynx_rabbitmq_consumer_messages_received_total Total number of messages received",
   "# TYPE lynx_rabbitmq_consumer_messages_received_total counter",
   "lynx_rabbitmq_consumer_messages_received_total " ++ decimal m.consumerMessagesReceived,
   "",
   "# HELP lynx_rabbitmq_consumer_messages_failed_total Total number of failed message consumptions",
   "# TYPE lynx_rabbitmq_consumer_messages_failed_total counter",
   "lynx_rabbitmq_consumer_messages_failed_total " ++ decimal m.consumerMessagesFailed,
   "",
   "# HELP lynx_rabbitmq_consumer_latency_seconds Consumer latency in seconds",
   "# TYPE lynx_rabbitmq_consumer_latency_seconds gauge",
   "lynx_rabbitmq_consumer_latency_seconds " ++ secondsText m.consumerLatency,
   ""] ++
  -- Connection metrics
  ["# HELP lynx_rabbitmq_connection_errors_total Total number of connection errors",
   "# TYPE lynx_rabbitmq_connection_errors_total counter",
   "lynx_rabbitmq_connection_errors_total " ++ decimal m.connectionErrors,
   "",
   "# HELP lynx_rabbitmq_reconnection_count_total Total number of reconnections",
   "# TYPE lynx_rabbitmq_reconnection_count_total counter",
   "lynx_rabbitmq_reconnection_count_total " ++ decimal m.reconnectionCount,
   ""] ++
  -- Health metrics
  ["# HELP lynx_rabbitmq_health_check_count_total Total number of health checks",
   "# TYPE lynx_rabbitmq_health_check_count_total counter",
   "lynx_rabbitmq_health_check_count_total " ++ decimal m.healthCheckCount,
   "",
   "# HELP lynx_rabbitmq_health_check_errors_total Total number of health check errors",
   "# TYPE lynx_rabbitmq_health_check_errors_total counter",
   "lynx_rabbitmq_health_check_errors_total " ++ decimal m.healthCheckErrors,
   "",
   "# HELP lynx_rabbitmq_health_status Current health status (1=healthy, 0=unhealthy)",
   "# TYPE lynx_rabbitmq_health_status gauge",
   "lynx_rabbitmq_health_status " ++ decimal m.healthyValue,
   "",
   "# HELP lynx_rabbitmq_last_health_check_timestamp Unix timestamp of last health check",
   "# TYPE lynx_rabbitmq_last_health_check_timestamp gauge",
   "lynx_rabbitmq_last_health_check_timestamp " ++ decimal m.lastHealthCheck.unix] ++
  if m.lastReconnectTime.isZero then []
  else ["",
   "# HELP lynx_rabbitmq_last_reconnect_timestamp Unix timestamp of last reconnection",
   "# TYPE lynx_rabbitmq_last_reconnect_timestamp gauge",
   "lynx_rabbitmq_last_reconnect_timestamp " ++ decimal m.lastReconnectTime.unix]

/-- `GetPrometheusMetrics`. -/
def MetricsRecord.getPrometheusMetrics (m : MetricsRecord) : String := "\n".intercalate m.lines

/-! ### The metric families -/

/-- The metric families the lines are made of. -/
def MetricsRecord.families (m : MetricsRecord) : List Family :=
  [⟨"lynx_rabbitmq_producer_messages_sent_total", "Total number of messages sent",
      "counter", decimal m.producerMessagesSent⟩,
    ⟨"lynx_rabbitmq_producer_messages_failed_total", "Total number of failed messages",
      "counter", decimal m.producerMessagesFailed⟩,
    ⟨"lynx_rabbitmq_producer_latency_seconds", "Producer latency in seconds",
      "gauge", secondsText m.producerLatency⟩,
    ⟨"lynx_rabbitmq_consumer_messages_received_total", "Total number of messages received",
      "counter", decimal m.consumerMessagesReceived⟩,
    ⟨"lynx_rabbitmq_consumer_messages_failed_total", "Total number of failed message consumptions",
      "counter", decimal m.consumerMessagesFailed⟩,
    ⟨"lynx_rabbitmq_consumer_latency_seconds", "Consumer latency in seconds",
      "gauge", secondsText m.consumerLatency⟩,
    ⟨"lynx_rabbitmq_connection_errors_total", "Total number of connection errors",
      "counter", decimal m.connectionErrors⟩,
    ⟨"lynx_rabbitmq_reconnection_count_total", "Total number of reconnections",
      "counter", decimal m.reconnectionCount⟩,
    ⟨"lynx_rabbitmq_health_check_count_total", "Total number of health checks",
      "counter", decimal m.healthCheckCount⟩,
    ⟨"lynx_rabbitmq_health_check_errors_total", "Total number of health check errors",
      "counter", decimal m.healthCheckErrors⟩,
    ⟨"lynx_rabbitmq_health_status", "Current health status (1=healthy, 0=unhealthy)",
      "gauge", decimal m.healthyValue⟩,
    ⟨"lynx_rabbitmq_last_health_check_timestamp", "Unix timestamp of last health check",
      "gauge", decimal m.lastHealthCheck.unix⟩] ++
  if m.lastReconnectTime.isZero then []
  else [⟨lastReconnectTimestamp, "Unix timestamp of last reconnection",
    "gauge", decimal m.lastReconnectTime.unix⟩]

/-- **The lines are those of the families.** -/
theorem MetricsRecord.lines_eq (m : MetricsRecord) : m.lines = Prometheus.lines m.families := by
  rw [MetricsRecord.lines, MetricsRecord.families]
  simp only [List.cons_append, List.nil_append]
  iterate 11 refine eq_lines_cons Family.lines_ofList ?_
  -- the twelfth family is the last one, or there is a thirteenth
  split_ifs
  · exact eq_lines_singleton Family.lines_ofList
  · refine eq_lines_cons Family.lines_ofList ?_
    exact eq_lines_singleton Family.lines_ofList

/-- Which entry of `GetStats` each integer-valued sample stands for, the one of the last
reconnect apart. -/
def correspondence : List (String × String × String) := [
  ("lynx_rabbitmq_producer_messages_sent_total", "producer", "messages_sent"),
  ("lynx_rabbitmq_producer_messages_failed_total", "producer", "messages_failed"),
  ("lynx_rabbitmq_consumer_messages_received_total", "consumer", "messages_received"),
  ("lynx_rabbitmq_consumer_messages_failed_total", "consumer", "messages_failed"),
  ("lynx_rabbitmq_connection_errors_total", "connection", "errors"),
  ("lynx_rabbitmq_reconnection_count_total", "connection", "reconnection_count"),
  ("lynx_rabbitmq_health_check_count_total", "health", "check_count"),
  ("lynx_rabbitmq_health_check_errors_total", "health", "check_errors"),
  ("lynx_rabbitmq_health_status", "health", "is_healthy"),
  ("lynx_rabbitmq_last_health_check_timestamp", "health", "last_check")]

/-- The two samples that are not integers. -/
def latencySamples : List String :=
  ["lynx_rabbitmq_producer_latency_seconds", "lynx_rabbitmq_consumer_latency_seconds"]

/-! ### The text can be read back -/

theorem oneWord_secondsText (d : Int64) : OneWord (secondsText d) := by
  have hsign : OneWord (if d < 0 then "-" else "") := by
    split_ifs <;> exact oneWord_ofList (by decide)
  have hdecimals : ∀ n, OneWord (String.ofList ((Nat.toDigits 10 n).leftpad 6 '0')) := by
    refine fun n => oneWord_of_digits fun c hc => ?_
    rw [List.leftpad, List.mem_append] at hc
    rcases hc with hc | hc
    · rw [List.eq_of_mem_replicate hc]
      decide
    · exact Nat.isDigit_of_mem_toDigits (by decide) (by decide) hc
  have hpoint : OneWord "." := oneWord_ofList (by decide)
  exact hsign.append (((oneWord_repr _).append hpoint).append (hdecimals _))

theorem MetricsRecord.wellFormed_families (m : MetricsRecord) :
    ∀ f ∈ m.families, f.WellFormed := by
  refine List.forall_mem_append.2 ⟨?_, ?_⟩
  · simp only [List.forall_mem_cons]
    refine ⟨?_, ?_, ?_, ?_, ?_, ?_, ?_, ?_, ?_, ?_, ?_, ?_, List.forall_mem_nil _⟩
    -- the two latencies are the third and the sixth
    case refine_3 => exact Family.wellFormed_ofList (by decide) (oneWord_secondsText _)
    case refine_6 => exact Family.wellFormed_ofList (by decide) (oneWord_secondsText _)
    all_goals exact Family.wellFormed_ofList (by decide) (oneWord_int _)
  · split_ifs
    · exact List.forall_mem_nil _
    · exact List.forall_mem_singleton.2 (Family.wellFormed_ofList (by decide) (oneWord_int _))

/-- The text, as it is read. -/
def MetricsRecord.exposition (m : MetricsRecord) : List Line := read m.getPrometheusMetrics

theorem MetricsRecord.exposition_eq (m : MetricsRecord) : m.exposition = meant m.families := by
  rw [exposition, getPrometheusMetrics, m.lines_eq]
  exact read_render m.wellFormed_families
    (List.append_ne_nil_of_left_ne_nil (List.cons_ne_nil _ _) _)

/-! ### The exports agree -/

/-- What the text says is what `GetStats` says. -/
structure ExportsAgree (m : MetricsRecord) : Prop where
  /-- Every line is blank, a `HELP` or a `TYPE` line, or a sample. -/
  understood : ∀ words, .other words ∉ m.exposition
  /-- No two `HELP` lines, `TYPE` lines or samples are for the same name. -/
  once : (m.exposition.filterMap Line.label?).Nodup
  /-- A sample comes right behind the `HELP` and the `TYPE` line of its name. -/
  described : Described m.exposition
  /-- The integer-valued samples are there, and have the values of `GetStats`. -/
  values : ∀ e ∈ correspondence, ∃ stat, m.stat e.2.1 e.2.2 = some stat ∧
    (∃ value, .sample e.1 value ∈ m.exposition) ∧
      ∀ value, .sample e.1 value ∈ m.exposition → value.toInt? = some stat.number
  /-- The time of the last reconnect is there when it is not the zero time. -/
  reconnect : ∃ t, m.stat "connection" "last_reconnect" = some (.time t) ∧
    ((∃ value, .sample lastReconnectTimestamp value ∈ m.exposition) ↔ t.isZero = false) ∧
      ∀ value, .sample lastReconnectTimestamp value ∈ m.exposition →
        value.toInt? = some t.unix.toInt
  /-- There is no other sample but the two latencies. -/
  others : ∀ name value, .sample name value ∈ m.exposition →
    name ∈ correspondence.map (·.1) ∨ name = lastReconnectTimestamp ∨ name ∈ latencySamples

theorem toInt?_decimal (n : Int64) : (decimal n).toInt? = some n.toInt := by
  rw [decimal, Int.toString_eq_repr, Int.toInt?_repr]

/-- The twelve names that are always there, and the thirteenth. -/
theorem MetricsRecord.names_families (m : MetricsRecord) :
    m.families.map Family.name =
      ["lynx_rabbitmq_producer_messages_sent_total",
        "lynx_rabbitmq_producer_messages_failed_total", "lynx_rabbitmq_producer_latency_seconds",
        "lynx_rabbitmq_consumer_messages_received_total",
        "lynx_rabbitmq_consumer_messages_failed_total", "lynx_rabbitmq_consumer_latency_seconds",
        "lynx_rabbitmq_connection_errors_total", "lynx_rabbitmq_reconnection_count_total",
        "lynx_rabbitmq_health_check_count_total", "lynx_rabbitmq_health_check_errors_total",
        "lynx_rabbitmq_health_status", "lynx_rabbitmq_last_health_check_timestamp"] ++
      if m.lastReconnectTime.isZero then [] else [lastReconnectTimestamp] := by
  rw [MetricsRecord.families, List.map_append]
  split_ifs <;> rfl

theorem MetricsRecord.nodup_names (m : MetricsRecord) : (m.families.map Family.name).Nodup := by
  rw [m.names_families]
  split_ifs <;> simp [lastReconnectTimestamp]

/-- Every integer-valued sample that is always there has a family with the value of its
entry. -/
theorem MetricsRecord.exists_family (m : MetricsRecord) : ∀ e ∈ correspondence,
    ∃ f ∈ m.families, ∃ stat, f.name = e.1 ∧ m.stat e.2.1 e.2.2 = some stat ∧
      f.value.toInt? = some stat.number := by
  have hhealthy : (decimal m.healthyValue).toInt? = some ((m.isHealthy == 1).toNat : ℤ) := by
    rw [toInt?_decimal, healthyValue]
    by_cases h : m.isHealthy = 1
    · rw [if_pos h, h]
      rfl
    · rw [if_neg h, beq_false_of_ne h]
      rfl
  simp only [correspondence, List.forall_mem_cons]
  refine ⟨
    ⟨_, List.mem_of_getElem? (i := 0) rfl, _, rfl, rfl, toInt?_decimal _⟩,
    ⟨_, List.mem_of_getElem? (i := 1) rfl, _, rfl, rfl, toInt?_decimal _⟩,
    ⟨_, List.mem_of_getElem? (i := 3) rfl, _, rfl, rfl, toInt?_decimal _⟩,
    ⟨_, List.mem_of_getElem? (i := 4) rfl, _, rfl, rfl, toInt?_decimal _⟩,
    ⟨_, List.mem_of_getElem? (i := 6) rfl, _, rfl, rfl, toInt?_decimal _⟩,
    ⟨_, List.mem_of_getElem? (i := 7) rfl, _, rfl, rfl, toInt?_decimal _⟩,
    ⟨_, List.mem_of_getElem? (i := 8) rfl, _, rfl, rfl, toInt?_decimal _⟩,
    ⟨_, List.mem_of_getElem? (i := 9) rfl, _, rfl, rfl, toInt?_decimal _⟩,
    ⟨_, List.mem_of_getElem? (i := 10) rfl, _, rfl, rfl, hhealthy⟩,
    ⟨_, List.mem_of_getElem? (i := 11) rfl, _, rfl, rfl, toInt?_decimal _⟩,
    List.forall_mem_nil _⟩

/-- Such a sample is there once, with the value of its entry. -/
theorem MetricsRecord.sample_iff (m : MetricsRecord) {e : String × String × String}
    (he : e ∈ correspondence) : ∃ text stat, m.stat e.2.1 e.2.2 = some stat ∧
      text.toInt? = some stat.number ∧
      ∀ value, .sample e.1 value ∈ m.exposition ↔ value = text := by
  obtain ⟨f, hf, stat, hname, hstat, hvalue⟩ := m.exists_family e he
  refine ⟨f.value, stat, hstat, hvalue, fun value => ?_⟩
  rw [m.exposition_eq, ← hname]
  exact sample_mem_meant_iff m.nodup_names hf

theorem MetricsRecord.reconnect_mem (m : MetricsRecord) {value : String} :
    .sample lastReconnectTimestamp value ∈ m.exposition ↔
      m.lastReconnectTime.isZero = false ∧ value = decimal m.lastReconnectTime.unix := by
  by_cases h : m.lastReconnectTime.isZero = true
  · have hnames := m.names_families
    rw [if_pos h, List.append_nil] at hnames
    rw [exposition_eq, sample_mem_meant, h]
    constructor
    · rintro ⟨f, hf, hname, -⟩
      have hmem := List.mem_map_of_mem (f := Family.name) hf
      rw [hnames, hname] at hmem
      simp [lastReconnectTimestamp] at hmem
    · rintro ⟨hzero, -⟩
      cases hzero
  · have hmem : ⟨lastReconnectTimestamp, "Unix timestamp of last reconnection", "gauge",
        decimal m.lastReconnectTime.unix⟩ ∈ m.families := by
      rw [families, if_neg h]
      exact List.mem_append_right _ (List.mem_singleton_self _)
    rw [exposition_eq, sample_mem_meant_iff m.nodup_names hmem]
    simp [h]

/-- **The two exports agree**, in every state of the metrics: any counters, any health flag,
any times. -/
theorem exports_agree (m : MetricsRecord) : ExportsAgree m where
  understood := by
    rw [m.exposition_eq]
    exact other_notMem_meant m.families
  once := by
    rw [m.exposition_eq]
    exact nodup_label_meant m.nodup_names
  described := by
    rw [m.exposition_eq]
    exact described_meant m.families
  values := by
    intro e he
    obtain ⟨text, stat, hstat, hvalue, hsample⟩ := m.sample_iff he
    refine ⟨stat, hstat, ⟨text, (hsample text).2 rfl⟩, fun value hv => ?_⟩
    rw [(hsample value).1 hv, hvalue]
  reconnect := by
    refine ⟨m.lastReconnectTime, rfl, ?_, fun value hv => ?_⟩
    · simp only [m.reconnect_mem, exists_and_left, exists_eq, and_true]
    · rw [(m.reconnect_mem.1 hv).2, toInt?_decimal]
  others := by
    intro name value hv
    rw [m.exposition_eq, sample_mem_meant] at hv
    obtain ⟨f, hf, rfl, -⟩ := hv
    have hmem := List.mem_map_of_mem (f := Family.name) hf
    rw [m.names_families, List.mem_append] at hmem
    rcases hmem with hmem | hmem
    · simp only [List.mem_cons, List.not_mem_nil, or_false] at hmem
      simp only [correspondence, latencySamples, List.map_cons, List.map_nil, List.mem_cons,
        List.not_mem_nil, or_false]
      tauto
    · split_ifs at hmem
      · cases hmem
      · exact .inr (.inl (List.mem_singleton.1 hmem))

/-! ### The metrics of a client -/

/-- The record behind the counters of a client.  The latency of the consumers and the times,
which the client's model has not, are those of `rest`. -/
def Metrics.record (m : Metrics) (rest : MetricsRecord) : MetricsRecord := { rest with
  producerMessagesSent := .ofNat m.producerMessagesSent
  producerMessagesFailed := .ofNat m.producerMessagesFailed
  producerLatency := .ofInt m.producerLatency
  consumerMessagesReceived := .ofNat m.consumerMessagesReceived
  consumerMessagesFailed := .ofNat m.consumerMessagesFailed
  connectionErrors := .ofNat m.connectionErrors
  reconnectionCount := .ofNat m.reconnectionCount
  healthCheckCount := .ofNat m.healthCheckCount
  healthCheckErrors := .ofNat m.healthCheckErrors
  isHealthy := .ofNat m.isHealthy }

/-- The samples of what the managers do. -/
def lifecycleSamples : List (String × String × String) :=
  correspondence.filter fun e => e.2.1 ∈ ["connection", "health"] ∧ e.2.2 ≠ "last_check"

/-- The goroutines of a client count the deliveries, and nothing else. -/
theorem metrics_of_run {cfg : RabbitMQ} {g : State → Action → Bool} {p : State}
    (hr : Run step g (fresh cfg) p) : ∃ received failed, p.shared.metrics =
      { consumerMessagesReceived := received, consumerMessagesFailed := failed } := by
  refine hr.invariant (I := fun p => ∃ received failed, p.shared.metrics =
    { consumerMessagesReceived := received, consumerMessagesFailed := failed }) ⟨0, 0, rfl⟩ ?_
  rintro p a p' ⟨received, failed, hi⟩ - h
  rcases step_metrics h with hm | ⟨failing, hm⟩
  · exact ⟨received, failed, hm.trans hi⟩
  · rw [hm, hi]
    cases failing
    · exact ⟨received + 1, failed, rfl⟩
    · exact ⟨received, failed + 1, rfl⟩

/-- **The text never tells of a check or a reconnect**: in every run of every client the
samples of the managers read zero. -/
theorem lifecycle_samples_of_run {cfg : RabbitMQ} {g : State → Action → Bool} {p : State}
    (hr : Run step g (fresh cfg) p) (rest : MetricsRecord) : ∀ e ∈ lifecycleSamples,
    ∀ value, .sample e.1 value ∈ (p.shared.metrics.record rest).exposition →
      value.toInt? = some 0 := by
  intro e he value hv
  obtain ⟨text, stat, hstat, hvalue, hsample⟩ :=
    (p.shared.metrics.record rest).sample_iff (List.mem_of_mem_filter he)
  obtain ⟨received, failed, hm⟩ := metrics_of_run hr
  have hzero : stat.number = 0 := by
    rw [hm] at hstat
    simp [lifecycleSamples, correspondence] at he
    rcases he with rfl | rfl | rfl | rfl | rfl <;> cases hstat <;> rfl
  rw [(hsample value).1 hv, hvalue, hzero]

/-! ### Zero values -/

/-- `time.Time{}`. -/
def Timestamp.zero : Timestamp := {}

/-- `Metrics{}`. -/
def MetricsRecord.zero : MetricsRecord := {}

end LynxRabbit
