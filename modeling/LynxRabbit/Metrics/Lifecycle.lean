/-
# The lifecycle metrics

The managers count what they do in their own records: `HealthChecker` keeps
`healthy` and `errorCount`.  `Metrics` has a second set of counters for the same
events, `IncrementHealthCheckCount`, `IncrementHealthCheckErrors`, `SetHealthy`,
`IncrementReconnectionCount` and `IncrementConnectionErrors`, and `GetStats` and the
Prometheus text are made from these.  No code of the client calls any of them, so
what is exported stays at zero.

`Audited` is the system with a count of the events beside it.  `accurate_iff` says
exactly when the exported values are right: as long as none of the events they
count has happened.
-/

import LynxRabbit.Client.Frames

namespace LynxRabbit

open Runs

/-- The connection and health parts of `GetStats` that count events. -/
structure LifecycleStats where
  connectionErrors : ℕ
  reconnectionCount : ℕ
  checkCount : ℕ
  checkErrors : ℕ
  isHealthy : Bool
deriving DecidableEq, Repr

/-- `GetStats`. -/
def Metrics.getStats (m : Metrics) : LifecycleStats where
  connectionErrors := m.connectionErrors
  reconnectionCount := m.reconnectionCount
  checkCount := m.healthCheckCount
  checkErrors := m.healthCheckErrors
  isHealthy := m.isHealthy == 1

/-- The `lynx_rabbitmq_health_status` gauge of `GetPrometheusMetrics`. -/
def Metrics.healthStatus (m : Metrics) : ℕ := if m.isHealthy = 1 then 1 else 0

/-! ### Counting the events -/

/-- How often each event has happened: executions of `performHealthCheck`, reconnect
callbacks that returned a connection, and reconnect callbacks that returned an
error. -/
structure Audit where
  checks : ℕ := 0
  reconnects : ℕ := 0
  failures : ℕ := 0
deriving DecidableEq, Repr

/-- The goroutine is about to record the result of a health check. -/
def Thread.recordsCheck : Thread → Bool
  | .health (.record _) => true
  | _ => false

/-- A goroutine has moved from `t` to `t'`. -/
def Audit.note (b : Audit) (t t' : Thread) (panicked : Bool) : Audit where
  checks := b.checks + t.recordsCheck.toNat
  reconnects := b.reconnects + (t.callback?.isSome && t'.succeeded).toNat
  failures := b.failures +
    (t.callback?.isSome && t'.callback?.isNone && !t'.succeeded && !panicked).toNat

/-- The system and the count beside it. -/
structure Audited where
  system : State
  audit : Audit := {}

/-- A step of the system, counted. -/
def auditedStep (q : Audited) (a : Action) : Option Audited :=
  (step q.system a).map fun p => {
    system := p
    audit := match a with
      | .run i _ =>
        match q.system.threads[i]?, p.threads[i]? with
        | some t, some t' => q.audit.note t t' p.shared.panicked
        | _, _ => q.audit
      | _ => q.audit }

/-- The exported values agree with the events and with the health checker. -/
structure Accurate (q : Audited) : Prop where
  checkCount : q.system.shared.metrics.getStats.checkCount = q.audit.checks
  checkErrors : q.system.shared.metrics.getStats.checkErrors = q.system.shared.health.errorCount
  isHealthy : 0 < q.audit.checks →
    q.system.shared.metrics.getStats.isHealthy = q.system.shared.health.healthy
  healthStatus : 0 < q.audit.checks →
    q.system.shared.metrics.healthStatus = q.system.shared.health.healthy.toNat
  reconnectionCount : q.system.shared.metrics.getStats.reconnectionCount = q.audit.reconnects
  connectionErrors : q.system.shared.metrics.getStats.connectionErrors = q.audit.failures

/-! ### What the counters say -/

/-- The values of a client nothing has happened to. -/
def zeroStats : LifecycleStats := ⟨0, 0, 0, 0, false⟩

/-- Counting a delivery leaves the lifecycle counters alone. -/
theorem Metrics.getStats_countHandled (m : Metrics) (failed : Bool) :
    (m.countHandled failed).getStats = m.getStats := by
  cases failed <;> rfl

/-- No step touches the lifecycle counters. -/
theorem getStats_of_step {p p' : State} {a : Action} (h : step p a = some p') :
    p'.shared.metrics.getStats = p.shared.metrics.getStats := by
  rcases step_metrics h with hm | ⟨failed, hm⟩
  · rw [hm]
  · rw [hm, Metrics.getStats_countHandled]

/-- A step adds to the health checker's errors at most when it records a check. -/
theorem Thread.step_errorCount {s s' : Client} {t t' : Thread} {o : Choice} {new : List Thread}
    (h : t.step s o = some (s', t', new)) :
    s'.health.errorCount ≤ s.health.errorCount + t.recordsCheck.toNat := by
  cases t with
  | loop l pc =>
      cases Thread.moves_of_step h with
      | loop _ hm => cases hm <;> exact Nat.le_refl _
  | health pc =>
      obtain ⟨q, hq, he⟩ := Option.map_eq_some_iff.1 h
      cases he
      cases pc with
      | select =>
          rw [HealthRun.step] at hq
          split_ifs at hq <;> cases hq <;> exact Nat.le_refl _
      | probe => cases hq; exact Nat.le_refl _
      | record err =>
          cases err with
          | none => cases hq; exact Nat.le_succ _
          | some e => cases hq; exact Nat.le_refl _
      | returned => cases hq
  | _ => exact ((Thread.moves_of_step h).counters rfl rfl).2.le

/-- What is exported, and how far the health checker's errors can go. -/
structure Unreported (q : Audited) : Prop where
  zero : q.system.shared.metrics.getStats = zeroStats
  errors : q.system.shared.health.errorCount ≤ q.audit.checks

/-- **No step reports anything.** -/
theorem Unreported.step {q q' : Audited} {a : Action} (hi : Unreported q)
    (h : auditedStep q a = some q') : Unreported q' := by
  obtain ⟨p, hp, rfl⟩ := Option.map_eq_some_iff.1 h
  refine ⟨(getStats_of_step hp).trans hi.zero, ?_⟩
  have herr := hi.errors
  cases a with
  | run i o =>
      obtain ⟨l, t, r, s', t', new, hl, rfl, ht, hs, rfl⟩ := step_run_focus hp
      have hstep := Thread.step_errorCount hs
      simp only [ht, getElem?_focus_self, Audit.note]
      omega
  | drop c => cases (moves_of_step hp).2; exact herr
  | call k => cases (moves_of_step hp).2; exact herr
  | cancel id => cases (moves_of_step hp).2; exact herr

/-- **The lifecycle metrics tell the truth exactly while there is nothing to tell**:
in every run of every client, with any health checks, disconnects and reconnect
attempts, the exported values are right if and only if no check was performed and
no reconnect callback has returned. -/
theorem accurate_iff (cfg : RabbitMQ) (q : Audited)
    (hr : Run auditedStep always ⟨fresh cfg, {}⟩ q) :
    Accurate q ↔ q.audit.checks = 0 ∧ q.audit.reconnects = 0 ∧ q.audit.failures = 0 := by
  have hi : Unreported q :=
    hr.invariant (I := Unreported) ⟨rfl, Nat.le_refl 0⟩ fun _ _ _ hi _ h => hi.step h
  have hz := hi.zero
  constructor
  · intro ht
    refine ⟨?_, ?_, ?_⟩
    · rw [← ht.checkCount, hz]; rfl
    · rw [← ht.reconnectionCount, hz]; rfl
    · rw [← ht.connectionErrors, hz]; rfl
  · rintro ⟨hc, hrec, hf⟩
    have herr : q.system.shared.health.errorCount = 0 := by
      have := hi.errors
      omega
    refine ⟨?_, ?_, ?_, ?_, ?_, ?_⟩
    · rw [hz, hc]; rfl
    · rw [hz, herr]; rfl
    · intro hpos
      omega
    · intro hpos
      omega
    · rw [hz, hrec]; rfl
    · rw [hz, hf]; rfl

/-- The default client, started and still without a health check. -/
theorem accurate_after_startup :
    ∃ q, Run auditedStep always ⟨fresh defaultRabbitMQConfig, {}⟩ q ∧
      started q.system = true ∧ Accurate q := by
  obtain ⟨q, hr, hq⟩ := exists_run_of_replay auditedStep always ⟨fresh defaultRabbitMQConfig, {}⟩
    (fun q => started q.system && q.audit == {}) boot (by decide)
  rw [Bool.and_eq_true, beq_iff_eq] at hq
  refine ⟨q, hr, hq.1, (accurate_iff defaultRabbitMQConfig q hr).2 ?_⟩
  rw [hq.2]
  exact ⟨rfl, rfl, rfl⟩

/-- The default client started, checked its health once, lost its connection and
reconnected: the health checker is healthy, and the exported values say that no
check and no reconnect ever happened and that the client is unhealthy. -/
theorem not_accurate_after_check :
    ∃ q, Run auditedStep always ⟨fresh defaultRabbitMQConfig, {}⟩ q ∧
      started q.system = true ∧ q.audit = ⟨1, 1, 0⟩ ∧
      q.system.shared.health.healthy = true ∧
      q.system.shared.metrics.getStats = zeroStats ∧
      q.system.shared.metrics.healthStatus = 0 ∧ ¬ Accurate q := by
  obtain ⟨q, hr, hq⟩ := exists_run_of_replay auditedStep always ⟨fresh defaultRabbitMQConfig, {}⟩
    (fun q => started q.system && q.audit == ⟨1, 1, 0⟩ && q.system.shared.health.healthy &&
      q.system.shared.metrics.getStats == zeroStats &&
      q.system.shared.metrics.healthStatus == 0)
    (boot ++ solo 1 3 ++ .drop 0 :: solo 2 18) (by decide)
  simp only [Bool.and_eq_true, beq_iff_eq] at hq
  obtain ⟨⟨⟨⟨hstarted, haudit⟩, hhealthy⟩, hstats⟩, hgauge⟩ := hq
  refine ⟨q, hr, hstarted, haudit, hhealthy, hstats, hgauge, fun ht => ?_⟩
  have hcount := ht.checkCount
  rw [hstats, haudit] at hcount
  cases hcount

end LynxRabbit
