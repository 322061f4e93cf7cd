/-
# The waits of `DoWithRetry`

The first wait of `DoWithRetry` (`managers.go`) is the back-off of the first producer as
it is configured.  After every wait the back-off is doubled, in 64 bits, and then cut to
thirty seconds.  So the first wait is never cut, and a back-off of `2 ^ 62` nanoseconds or
more wraps in the doubling and leaves a wait that is not positive.

Below that every wait but the first is the capped exponential (`iterate_nextBackoff`),
and the first one is where the configured value is already under the cap:
`cappedBackoff_iff`.
-/

import LynxRabbit.Retry.DoWithRetry
import Mathlib.Algebra.Order.Ring.Int

namespace LynxRabbit

open Runs

/-- The waits of `DoWithRetry` under a configuration are `min (b * 2 ^ i) 30s` over the
integers, where `b` is the back-off: with every result of the operation and in every run,
cancelled or not. -/
structure CappedBackoff (cfg : RabbitMQ) : Prop where
  wait_eq : ∀ results q, Run (retryStep results) always cfg.doWithRetry q → q.pc = .wait →
    q.backoff = min (cfg.backoffTime * 2 ^ q.attempt) (30 * second)
  capped : ∀ results q, Run (retryStep results) always cfg.doWithRetry q → q.pc = .wait →
    q.backoff ≤ 30 * second
  /-- A wait is not longer than a later one of the same call. -/
  grows : ∀ results q q', Run (retryStep results) always cfg.doWithRetry q → q.pc = .wait →
    Run (retryStep results) always q q' → q'.pc = .wait → q.backoff ≤ q'.backoff
  positive : ∀ results q, Run (retryStep results) always cfg.doWithRetry q → q.pc = .wait →
    0 < q.backoff

/-! ### One doubling -/

theorem int64_of_fits {n : ℤ} (hlo : -2 ^ 63 ≤ n) (hhi : n < 2 ^ 63) : int64 n = n := by
  rw [int64]
  exact Int.bmod_eq_of_le_mul_two (by omega) (by omega)

/-- A doubling that stays in 64 bits. -/
theorem nextBackoff_of_lt {b : ℤ} (hpos : 0 < b) (hb : b < 2 ^ 62) :
    nextBackoff b = min (2 * b) (30 * second) := by
  have hfits : int64 (2 * b) = 2 * b := int64_of_fits (by omega) (by omega)
  rw [nextBackoff, hfits]
  split_ifs with h
  · exact (min_eq_right (le_of_lt h)).symm
  · exact (min_eq_left (not_lt.1 h)).symm

/-- **Every wait but the first is the capped exponential**, where the first doubling stays
in 64 bits; all later ones start under the cap. -/
theorem iterate_nextBackoff {b : ℤ} (hpos : 0 < b) (hb : b < 2 ^ 62) (i : ℕ) :
    nextBackoff^[i + 1] b = min (b * 2 ^ (i + 1)) (30 * second) := by
  induction i with
  | zero => rw [Function.iterate_one, nextBackoff_of_lt hpos hb, pow_one, mul_comm]
  | succ i ih =>
      have hpow : 0 < b * 2 ^ (i + 1) := mul_pos hpos (pow_pos (by decide) _)
      rw [Function.iterate_succ_apply', ih, pow_succ 2 (i + 1), ← mul_assoc]
      generalize b * 2 ^ (i + 1) = x at hpow
      have hcap : min x (30 * second) < 2 ^ 62 := by
        have := min_le_right x (30 * second)
        unfold second at *
        omega
      have hmin : 0 < min x (30 * second) := lt_min hpow (by decide)
      rw [nextBackoff_of_lt hmin hcap]
      unfold second
      omega

/-! ### The waits of a call -/

/-- A step doubles the back-off when it goes on to the next attempt, and leaves it alone
otherwise. -/
theorem Retry.Moves.backoff {results : ℕ → Option GoError} {q q' : Retry}
    (h : q.Moves results q') :
    q'.attempt = q.attempt ∧ q'.backoff = q.backoff ∨
      q'.attempt = q.attempt + 1 ∧ q'.backoff = nextBackoff q.backoff := by
  cases h with
  | again hpc => exact .inr ⟨rfl, rfl⟩
  | _ => exact .inl ⟨rfl, rfl⟩

/-- **The back-off of a call**: doubled once for every attempt that was made. -/
theorem backoff_of_run {cfg : RabbitMQ} {results : ℕ → Option GoError} {q : Retry}
    (hr : Run (retryStep results) always cfg.doWithRetry q) :
    q.backoff = nextBackoff^[q.attempt] cfg.backoffTime := by
  refine hr.invariant (I := fun q => q.backoff = nextBackoff^[q.attempt] cfg.backoffTime) rfl ?_
  intro q a q' hi _ h
  rcases (Retry.moves_of_step h).backoff with ⟨hatt, hback⟩ | ⟨hatt, hback⟩
  · rw [hatt, hback, hi]
  · rw [hatt, hback, hi, Function.iterate_succ_apply']

/-- Attempts are only counted up. -/
theorem attempt_le_of_run {results : ℕ → Option GoError} {q q' : Retry}
    (hr : Run (retryStep results) always q q') : q.attempt ≤ q'.attempt := by
  refine hr.invariant (I := fun q' => q.attempt ≤ q'.attempt) le_rfl ?_
  intro q' a q'' hi _ h
  rcases (Retry.moves_of_step h).backoff with ⟨hatt, -⟩ | ⟨hatt, -⟩ <;> omega

/-- An operation that keeps failing. -/
def failing (e : GoError) : ℕ → Option GoError := fun _ => some e

/-- From the head of the loop to the wait, when the operation fails and this is not the
last attempt. -/
theorem exists_run_to_wait {e : GoError} {q : Retry} (hpc : q.pc = .check)
    (hc : q.cancelled = false) (hlt : (q.attempt : ℤ) < q.maxRetries) :
    ∃ q', Run (retryStep (failing e)) always q q' ∧ q'.pc = .wait ∧ q'.cancelled = false ∧
      q'.attempt = q.attempt ∧ q'.maxRetries = q.maxRetries := by
  have hcheck : retryStep (failing e) q .go = some { q with pc := .call } := by
    simp only [retryStep, hpc, hc, if_pos (le_of_lt hlt), Bool.false_eq_true, if_false]
  have hcall : retryStep (failing e) { q with pc := .call } .go = some { q with
      pc := .operating q.begun, begun := q.begun + 1, late := q.late + q.cancelled.toNat } := rfl
  have hfail : retryStep (failing e) { q with
      pc := .operating q.begun, begun := q.begun + 1, late := q.late + q.cancelled.toNat } .go =
        some { q with
          pc := .wait, lastErr := some e, begun := q.begun + 1,
          late := q.late + q.cancelled.toNat } := by
    simp only [retryStep, failing, if_neg (ne_of_lt hlt)]
  exact ⟨_, .tail (.tail (.tail .refl rfl hcheck) rfl hcall) rfl hfail, rfl, hc, rfl, rfl⟩

/-- **Every wait is reached** by an operation that keeps failing: one for each retry. -/
theorem exists_wait {cfg : RabbitMQ} (e : GoError) {i : ℕ} (hi : (i : ℤ) < cfg.maxRetries) :
    ∃ q, Run (retryStep (failing e)) always cfg.doWithRetry q ∧ q.pc = .wait ∧
      q.cancelled = false ∧ q.attempt = i ∧ q.maxRetries = cfg.maxRetries := by
  induction i with
  | zero => exact exists_run_to_wait rfl rfl hi
  | succ i ih =>
      obtain ⟨q, hr, hpc, hc, hatt, hmax⟩ := ih (by omega)
      have hagain : retryStep (failing e) q .go = some { q with
          pc := .check, attempt := q.attempt + 1, backoff := nextBackoff q.backoff } := by
        simp only [retryStep, hpc]
      have hlt : ((q.attempt + 1 : ℕ) : ℤ) < q.maxRetries := by omega
      obtain ⟨q', hr', hpc', hc', hatt', hmax'⟩ := exists_run_to_wait (e := e)
        (q := { q with
          pc := .check, attempt := q.attempt + 1, backoff := nextBackoff q.backoff }) rfl hc hlt
      exact ⟨q', (hr.tail rfl hagain).trans hr', hpc', hc', hatt'.trans (by rw [hatt]),
        hmax'.trans hmax⟩

/-! ### When the waits are the capped exponential -/

/-- A configured back-off that is under the cap itself. -/
theorem iterate_nextBackoff_of_le {b : ℤ} (hpos : 0 < b) (hb : b ≤ 30 * second) :
    ∀ i : ℕ, nextBackoff^[i] b = min (b * 2 ^ i) (30 * second)
  | 0 => by rw [Function.iterate_zero_apply, pow_zero, mul_one, min_eq_left hb]
  | i + 1 => by
      refine iterate_nextBackoff hpos ?_ i
      unfold second at hb
      omega

theorem cappedBackoff_of_le {cfg : RabbitMQ} (hpos : 0 < cfg.backoffTime)
    (hb : cfg.backoffTime ≤ 30 * second) : CappedBackoff cfg := by
  have heq : ∀ {results q}, Run (retryStep results) always cfg.doWithRetry q →
      q.backoff = min (cfg.backoffTime * 2 ^ q.attempt) (30 * second) := fun hr =>
    (backoff_of_run hr).trans (iterate_nextBackoff_of_le hpos hb _)
  constructor
  · exact fun results q hr _ => heq hr
  · intro results q hr _
    rw [heq hr]
    exact min_le_right _ _
  · intro results q q' hr _ hr' _
    rw [heq hr, heq (hr.trans hr')]
    have hpow : (2 : ℤ) ^ q.attempt ≤ 2 ^ q'.attempt :=
      pow_le_pow_right₀ (by decide) (attempt_le_of_run hr')
    exact min_le_min_right _ (mul_le_mul_of_nonneg_left hpow (le_of_lt hpos))
  · intro results q hr _
    rw [heq hr]
    exact lt_min (mul_pos hpos (pow_pos (by decide) _)) (by decide)

/-- **The waits are the capped exponential exactly when the configured back-off is at most
the cap**: for every accepted configuration with a first producer, whose back-off is any
positive duration in 64 bits. -/
theorem cappedBackoff_iff (raw : ScannedRabbitMQ) (cfg : RabbitMQ) (p : Producer)
    (ps : List Producer) (b : ℤ) (hn : normalizeRabbitMQConfig (some raw) = .ok cfg)
    (hp : cfg.producers = p :: ps) (hb : p.retryBackoff = some b) :
    CappedBackoff cfg ↔ b ≤ 30 * second := by
  have hback : cfg.backoffTime = b := by simp only [RabbitMQ.backoffTime, hp, hb, Option.getD_some]
  have hmax : cfg.maxRetries = p.maxRetries := by simp only [RabbitMQ.maxRetries, hp]
  have hnormal := (normal_of_normalize hn).producers p (hp ▸ List.mem_cons_self ..)
  have hpos : 0 < b := by
    obtain ⟨n, hbn, hpos⟩ := hnormal.retryBackoff
    rw [hb] at hbn
    exact Option.some.inj hbn ▸ hpos
  constructor
  · intro hcap
    -- the first wait is reached, since at least one retry is configured
    have hretry : ((0 : ℕ) : ℤ) < cfg.maxRetries := hmax ▸ hnormal.maxRetries
    obtain ⟨q, hr, hpc, -, hatt, -⟩ := exists_wait (.library "unreachable") hretry
    have hfirst := backoff_of_run hr
    rw [hatt, Function.iterate_zero_apply, hback] at hfirst
    exact hfirst ▸ hcap.capped _ q hr hpc
  · intro hle
    rw [← hback] at hpos hle
    exact cappedBackoff_of_le hpos hle

/-- The default configuration, with its hundred milliseconds. -/
theorem cappedBackoff_default :
    normalizeRabbitMQConfig (some defaultRabbitMQConfig.scanned) = .ok defaultRabbitMQConfig ∧
      CappedBackoff defaultRabbitMQConfig :=
  ⟨rfl, (cappedBackoff_iff defaultRabbitMQConfig.scanned defaultRabbitMQConfig _ _ _ rfl rfl
    rfl).2 (by decide)⟩

/-- A configuration with one producer and a back-off of its own. -/
def backoffConfig (backoff : ℤ) : ScannedRabbitMQ where
  producers := [some {
    name := "orders", enabled := true, exchange := "", exchangeType := "",
    retryBackoff := some backoff }]

/-- A call of it that waits for the `i`-th time, every operation having failed. -/
def waiting (backoff : ℤ) (i : ℕ) : Retry where
  maxRetries := defaultMaxRetries
  backoff := backoff
  pc := .wait
  attempt := i
  lastErr := some (.library "refused")
  begun := i + 1

/-- A minute as back-off: the first wait is above the cap, and the second one is shorter.
And `2 ^ 62` nanoseconds: the second wait is negative. -/
theorem not_cappedBackoff_above :
    (∃ cfg, normalizeRabbitMQConfig (some (backoffConfig (60 * second))) = .ok cfg ∧
      Run (retryStep (failing (.library "refused"))) always cfg.doWithRetry
        (waiting (60 * second) 0) ∧
      Run (retryStep (failing (.library "refused"))) always (waiting (60 * second) 0)
        (waiting (30 * second) 1) ∧ ¬ CappedBackoff cfg) ∧
    ∃ cfg, normalizeRabbitMQConfig (some (backoffConfig (2 ^ 62))) = .ok cfg ∧
      Run (retryStep (failing (.library "refused"))) always cfg.doWithRetry
        (waiting (-2 ^ 63) 1) ∧ ¬ CappedBackoff cfg := by
  constructor
  · have hfirst : replay (retryStep (failing (.library "refused"))) always
        ⟨3, 60 * second, .check, 0, none, false, 0, 0⟩ [.go, .go, .go] =
          some (waiting (60 * second) 0) := rfl
    have hnext : replay (retryStep (failing (.library "refused"))) always
        (waiting (60 * second) 0) [.go, .go, .go, .go] = some (waiting (30 * second) 1) := rfl
    refine ⟨_, rfl, .of_replay .refl hfirst, .of_replay .refl hnext, fun hcap => ?_⟩
    exact absurd (hcap.capped _ _ (.of_replay .refl hfirst) rfl) (by decide)
  · have hsecond : replay (retryStep (failing (.library "refused"))) always
        ⟨3, 2 ^ 62, .check, 0, none, false, 0, 0⟩ [.go, .go, .go, .go, .go, .go, .go] =
          some (waiting (-2 ^ 63) 1) := rfl
    refine ⟨_, rfl, .of_replay .refl hsecond, fun hcap => ?_⟩
    exact absurd (hcap.positive _ _ (.of_replay .refl hsecond) rfl) (by decide)

end LynxRabbit
