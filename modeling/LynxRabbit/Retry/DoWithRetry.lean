/-
# `DoWithRetry`

`RetryHandler.DoWithRetry` of `managers.go`: an operation, called until it succeeds,
the configured number of retries is used up, or the context is cancelled.

The call is a machine.  `results k` is what the operation returns when it is called
for the `k`-th time, and the outside may cancel the context between any two steps: before
a check, between a check and the call it lets through, during the operation, during a
wait.  A `select` in which both cases are ready takes either.  The call counts the
operations it has begun, and those of them it began with the context already
cancelled; the source keeps neither count.

`RetryInv` says where the call can stand, `RetryInv.step` that every step keeps it, and
`doWithRetry_contract` reads off what a caller can rely on.  A step always brings the
call closer to its return (`RetryInv.left_lt`), and only a call that has returned has no
step left, so it does return.
-/

import LynxRabbit.Conf.Normalize
import LynxRabbit.Runs.Machine
import Mathlib.Algebra.Group.Nat.Defs
import Mathlib.Order.Nat

namespace LynxRabbit

open Runs

/-- A value as an `int64` holds it. -/
def int64 (n : ℤ) : ℤ := Int.bmod n (2 ^ 64)

/-- `backoff *= 2`, and the cap. -/
def nextBackoff (backoff : ℤ) : ℤ :=
  if int64 (2 * backoff) > 30 * second then 30 * second else int64 (2 * backoff)

/-- `maxRetries`: that of the first producer, enabled or not. -/
def RabbitMQ.maxRetries (cfg : RabbitMQ) : ℤ :=
  match cfg.producers with
  | [] => defaultMaxRetries
  | p :: _ => p.maxRetries

/-- `backoffTime`: that of the first producer, if it has one. -/
def RabbitMQ.backoffTime (cfg : RabbitMQ) : ℤ :=
  match cfg.producers with
  | [] => 100 * millisecond
  | p :: _ => p.retryBackoff.getD (100 * millisecond)

/-- What `DoWithRetry` returns: nil, `ctx.Err()`, or `WrapError` of the last error.  The
last error is nil only when no operation was called at all. -/
inductive RetryReturn
  | nil
  | ctxErr
  | wrapError (lastErr : Option GoError) (context : String)
deriving DecidableEq, Repr

/-- `Unwrap`. -/
def RetryReturn.unwrap : RetryReturn → Option GoError
  | .wrapError lastErr _ => lastErr
  | _ => none

/-- Where the call stands: at the head of the loop, behind a check that found the context
alive, in its `k`-th operation, in the wait, or returned. -/
inductive RetryPc
  | check
  | call
  | operating (k : ℕ)
  | wait
  | returned (r : RetryReturn)
deriving DecidableEq, Repr

/-- A `DoWithRetry` call: its local variables, its context, and the two counts. -/
structure Retry where
  maxRetries : ℤ
  backoff : ℤ
  pc : RetryPc := .check
  attempt : ℕ := 0
  lastErr : Option GoError := none
  cancelled : Bool := false
  begun : ℕ := 0
  late : ℕ := 0

/-- `DoWithRetry` at its start. -/
def RabbitMQ.doWithRetry (cfg : RabbitMQ) : Retry where
  maxRetries := cfg.maxRetries
  backoff := cfg.backoffTime

/-- What can happen next: the context is cancelled, the call goes on, or the `select` of
its wait takes the case of the context. -/
inductive RetryAction
  | cancel
  | go
  | done
deriving DecidableEq, Repr

/-- One step of the call. -/
def retryStep (results : ℕ → Option GoError) (q : Retry) : RetryAction → Option Retry
  | .cancel => if q.cancelled then none else some { q with cancelled := true }
  | .done =>
    match q.pc with
    | .wait => if q.cancelled then some { q with pc := .returned .ctxErr } else none
    | _ => none
  | .go =>
    match q.pc with
    | .check =>
      if (q.attempt : ℤ) ≤ q.maxRetries then
        some { q with pc := if q.cancelled then .returned .ctxErr else .call }
      else some { q with pc := .returned (.wrapError q.lastErr "max retries exceeded") }
    | .call =>
      some { q with
        pc := .operating q.begun, begun := q.begun + 1, late := q.late + q.cancelled.toNat }
    | .operating k =>
      match results k with
      | none => some { q with pc := .returned .nil }
      | some e =>
        -- the last attempt leaves the loop without a wait
        some { q with
          lastErr := some e
          pc := if (q.attempt : ℤ) = q.maxRetries then
              .returned (.wrapError (some e) "max retries exceeded")
            else .wait }
    | .wait =>
      some { q with pc := .check, attempt := q.attempt + 1, backoff := nextBackoff q.backoff }
    | .returned _ => none

/-- The transitions of the call. -/
inductive Retry.Moves (results : ℕ → Option GoError) (q : Retry) : Retry → Prop
  | cancel : q.cancelled = false → Moves results q { q with cancelled := true }
  | done : q.pc = .wait → q.cancelled = true → Moves results q { q with pc := .returned .ctxErr }
  | refuse : q.pc = .check → (q.attempt : ℤ) ≤ q.maxRetries → q.cancelled = true →
      Moves results q { q with pc := .returned .ctxErr }
  | pass : q.pc = .check → (q.attempt : ℤ) ≤ q.maxRetries → q.cancelled = false →
      Moves results q { q with pc := .call }
  | leave : q.pc = .check → ¬ (q.attempt : ℤ) ≤ q.maxRetries →
      Moves results q { q with pc := .returned (.wrapError q.lastErr "max retries exceeded") }
  | call : q.pc = .call → Moves results q { q with
      pc := .operating q.begun, begun := q.begun + 1, late := q.late + q.cancelled.toNat }
  | success {k : ℕ} : q.pc = .operating k → results k = none →
      Moves results q { q with pc := .returned .nil }
  | last {k : ℕ} {e : GoError} : q.pc = .operating k → results k = some e →
      (q.attempt : ℤ) = q.maxRetries → Moves results q { q with
        lastErr := some e, pc := .returned (.wrapError (some e) "max retries exceeded") }
  | failure {k : ℕ} {e : GoError} : q.pc = .operating k → results k = some e →
      (q.attempt : ℤ) ≠ q.maxRetries → Moves results q { q with lastErr := some e, pc := .wait }
  | again : q.pc = .wait → Moves results q { q with
      pc := .check, attempt := q.attempt + 1, backoff := nextBackoff q.backoff }

theorem Retry.moves_of_step {results : ℕ → Option GoError} {q q' : Retry} {a : RetryAction}
    (h : retryStep results q a = some q') : q.Moves results q' := by
  cases a with
  | cancel =>
      rw [retryStep] at h
      split_ifs at h with hc
      cases h
      exact .cancel (by simpa using hc)
  | done =>
      rw [retryStep] at h
      split at h
      · rename_i hpc
        split_ifs at h with hc
        cases h
        exact .done hpc hc
      · cases h
  | go =>
      rw [retryStep] at h
      split at h
      · rename_i hpc
        split_ifs at h with hatt hc
        · cases h
          exact .refuse hpc hatt hc
        · cases h
          exact .pass hpc hatt (by simpa using hc)
        · cases h
          exact .leave hpc hatt
      · cases h
        exact .call ‹_›
      · rename_i k hpc
        split at h
        · cases h
          exact .success hpc ‹_›
        · cases h
          by_cases hlast : (q.attempt : ℤ) = q.maxRetries
          · rw [if_pos hlast]
            exact .last hpc ‹_› hlast
          · rw [if_neg hlast]
            exact .failure hpc ‹_› hlast
      · cases h
        exact .again ‹_›
      · cases h

/-! ### Where the call can stand -/

/-- The first `n` operations fail. -/
def Failing (results : ℕ → Option GoError) (n : ℕ) : Prop := ∀ k < n, results k ≠ none

theorem Failing.succ {results : ℕ → Option GoError} {n : ℕ} (h : Failing results n)
    {e : GoError} (he : results n = some e) : Failing results (n + 1) := by
  intro k hk
  rcases Nat.lt_succ_iff_lt_or_eq.1 hk with hlt | rfl
  · exact h k hlt
  · rw [he]
    exact Option.some_ne_none e

/-- What holds of the counts at each place of the call. -/
def Retry.At (results : ℕ → Option GoError) (q : Retry) : RetryPc → Prop
  | .check => q.begun = q.attempt
  | .call => q.begun = q.attempt ∧ q.late = 0
  | .operating k => k = q.attempt ∧ q.begun = q.attempt + 1
  | .wait =>
    q.begun = q.attempt + 1 ∧ (q.attempt : ℤ) ≠ q.maxRetries ∧ Failing results (q.attempt + 1)
  | .returned .nil => q.begun = q.attempt + 1 ∧ results q.attempt = none
  | .returned .ctxErr =>
    q.cancelled = true ∧ q.begun ≤ q.attempt + 1 ∧ Failing results q.begun
  | .returned (.wrapError lastErr _) =>
    q.begun = q.attempt + 1 ∧ (q.attempt : ℤ) = q.maxRetries ∧ Failing results (q.attempt + 1) ∧
      results q.attempt = lastErr

/-- The invariant of a call with a limit that is not negative. -/
structure RetryInv (results : ℕ → Option GoError) (q : Retry) : Prop where
  attempt : (q.attempt : ℤ) ≤ q.maxRetries
  failed : Failing results q.attempt
  late : q.late ≤ 1
  cancelled : 0 < q.late → q.cancelled = true
  here : q.At results q.pc

/-- The invariant at the place the call is known to be. -/
theorem RetryInv.at_pc {results : ℕ → Option GoError} {q : Retry} (hi : RetryInv results q)
    {pc : RetryPc} (hpc : q.pc = pc) : q.At results pc :=
  hpc ▸ hi.here

theorem retryInv_start {cfg : RabbitMQ} (hm : 0 ≤ cfg.maxRetries)
    (results : ℕ → Option GoError) : RetryInv results cfg.doWithRetry where
  attempt := hm
  failed := fun k hk => absurd hk (Nat.not_lt_zero k)
  late := Nat.zero_le 1
  cancelled := fun h => absurd h (Nat.lt_irrefl 0)
  here := rfl

/-- A cancellation changes nothing the call has done. -/
theorem RetryInv.cancel {results : ℕ → Option GoError} {q : Retry} (hi : RetryInv results q) :
    RetryInv results { q with cancelled := true } := by
  refine ⟨hi.attempt, hi.failed, hi.late, fun _ => rfl, ?_⟩
  show Retry.At results { q with cancelled := true } q.pc
  cases hpc : q.pc with
  | returned r =>
      have hhere := hi.at_pc hpc
      cases r with
      | ctxErr => exact ⟨rfl, hhere.2⟩
      | _ => exact hhere
  | _ => exact hi.at_pc hpc

/-- **One step of the call keeps the invariant.** -/
theorem RetryInv.step {results : ℕ → Option GoError} {q q' : Retry}
    (hi : RetryInv results q) (h : q.Moves results q') : RetryInv results q' := by
  have ⟨hatt, hfail, hlate, hcan, _⟩ := hi
  cases h with
  | cancel hc => exact hi.cancel
  | done hpc hc =>
      obtain ⟨hbegun, -, hfail'⟩ := hi.at_pc hpc
      exact ⟨hatt, hfail, hlate, hcan, hc, hbegun.le, hbegun ▸ hfail'⟩
  | refuse hpc _ hc =>
      have hhere := hi.at_pc hpc
      have hle : q.begun ≤ q.attempt + 1 := hhere.le.trans (Nat.le_succ _)
      exact ⟨hatt, hfail, hlate, hcan, hc, hle, fun k hk => hfail k (hhere ▸ hk)⟩
  | pass hpc _ hc =>
      have hhere := hi.at_pc hpc
      -- a call that began too late would have cancelled this check
      refine ⟨hatt, hfail, hlate, hcan, hhere, Nat.eq_zero_of_not_pos fun hpos => ?_⟩
      rw [hcan hpos] at hc
      cases hc
  | leave hpc hgt => exact absurd hatt hgt
  | call hpc =>
      obtain ⟨hbegun, hzero⟩ := hi.at_pc hpc
      refine ⟨hatt, hfail, ?_, fun hpos => ?_, hbegun, congrArg (· + 1) hbegun⟩
      · have := Bool.toNat_le q.cancelled
        show q.late + q.cancelled.toNat ≤ 1
        omega
      · have hpos' : 0 < q.late + q.cancelled.toNat := hpos
        rw [hzero, Nat.zero_add] at hpos'
        exact Bool.toNat_eq_one.1 (le_antisymm (Bool.toNat_le _) hpos')
  | success hpc hres =>
      obtain ⟨rfl, hbegun⟩ := hi.at_pc hpc
      exact ⟨hatt, hfail, hlate, hcan, hbegun, hres⟩
  | last hpc hres hlast =>
      obtain ⟨rfl, hbegun⟩ := hi.at_pc hpc
      exact ⟨hatt, hfail, hlate, hcan, hbegun, hlast, hfail.succ hres, hres⟩
  | failure hpc hres hne =>
      obtain ⟨rfl, hbegun⟩ := hi.at_pc hpc
      exact ⟨hatt, hfail, hlate, hcan, hbegun, hne, hfail.succ hres⟩
  | again hpc =>
      obtain ⟨hbegun, hne, hfail'⟩ := hi.at_pc hpc
      refine ⟨?_, hfail', hlate, hcan, hbegun⟩
      show ((q.attempt + 1 : ℕ) : ℤ) ≤ q.maxRetries
      omega

/-- The limit stays what it was. -/
theorem Retry.Moves.maxRetries {results : ℕ → Option GoError} {q q' : Retry}
    (h : q.Moves results q') : q'.maxRetries = q.maxRetries := by
  cases h <;> rfl

/-! ### The call returns -/

/-- The steps left to the return, an upper bound. -/
def Retry.left (q : Retry) : ℕ :=
  4 * (q.maxRetries - q.attempt).toNat + (!q.cancelled).toNat +
    match q.pc with
    | .check => 4
    | .call => 3
    | .operating _ => 2
    | .wait => 1
    | .returned _ => 0

/-- **Every step brings the call closer to its return.** -/
theorem RetryInv.left_lt {results : ℕ → Option GoError} {q q' : Retry}
    (hi : RetryInv results q) (h : q.Moves results q') : q'.left < q.left := by
  cases h with
  | cancel hc => simp [Retry.left, hc]
  | done hpc hc => simp [Retry.left, hpc]
  | refuse hpc _ hc => simp [Retry.left, hpc]
  | pass hpc _ hc => simp [Retry.left, hpc]
  | leave hpc hgt => simp [Retry.left, hpc]
  | call hpc => simp [Retry.left, hpc]
  | success hpc hres => simp [Retry.left, hpc]
  | last hpc hres hlast => simp [Retry.left, hpc]
  | failure hpc hres hne => simp [Retry.left, hpc]
  | again hpc =>
      -- a wait is never the last attempt's, so one round less is left
      have hatt := hi.attempt
      have hne := (hi.at_pc hpc).2.1
      simp only [Retry.left, hpc]
      omega

/-- A call that has not returned has a step. -/
theorem exists_retryStep (results : ℕ → Option GoError) (q : Retry)
    (h : ∀ r, q.pc ≠ .returned r) : ∃ q', retryStep results q .go = some q' := by
  cases hpc : q.pc with
  | check => simp only [retryStep, hpc]; split_ifs <;> exact ⟨_, rfl⟩
  | call => simp only [retryStep, hpc]; exact ⟨_, rfl⟩
  | operating k => simp only [retryStep, hpc]; split <;> exact ⟨_, rfl⟩
  | wait => simp only [retryStep, hpc]; exact ⟨_, rfl⟩
  | returned r => exact absurd hpc (h r)

/-! ### The contract -/

/-- What a caller of `DoWithRetry` can rely on, `m` being the number of retries. -/
structure RetryContract (results : ℕ → Option GoError) (m : ℤ) (q : Retry) : Prop where
  /-- The operation is called at most `m + 1` times. -/
  atMost : (q.begun : ℤ) ≤ m + 1
  /-- It is not called again after a success. -/
  notAgain : ∀ k < q.begun, results k = none → q.begun = k + 1
  /-- At most one call begins after the context was cancelled. -/
  oneLate : q.late ≤ 1
  /-- The result is nil exactly when the last call made succeeded. -/
  nil_iff : ∀ r, q.pc = .returned r →
    (r = .nil ↔ ∃ k, q.begun = k + 1 ∧ results k = none)
  /-- The result is `ctx.Err()` only if the context was cancelled. -/
  ctxErr : q.pc = .returned .ctxErr → q.cancelled = true
  /-- Otherwise there were `m + 1` calls, all failing, and the error unwraps to the last
  one's. -/
  exceeded : ∀ r, q.pc = .returned r → r ≠ .nil → r ≠ .ctxErr →
    (q.begun : ℤ) = m + 1 ∧ Failing results q.begun ∧
      ∃ k e, q.begun = k + 1 ∧ results k = some e ∧ r.unwrap = some e
  /-- Without a cancellation the first `m + 1` results decide, and the calls end with the
  first success. -/
  uncancelled : q.cancelled = false → ∀ r, q.pc = .returned r →
    (r = .nil ↔ ∃ k : ℕ, (k : ℤ) ≤ m ∧ results k = none) ∧
      ((∃ k : ℕ, (k : ℤ) ≤ m ∧ results k = none ∧ Failing results k ∧ q.begun = k + 1) ∨
        (∀ k : ℕ, (k : ℤ) ≤ m → results k ≠ none) ∧ (q.begun : ℤ) = m + 1)
  /-- The call returns: it gets closer with every step, and has one until then. -/
  ends : ∀ a q', retryStep results q a = some q' → q'.left < q.left
  returns : (∀ a, retryStep results q a = none) → ∃ r, q.pc = .returned r

/-- What the invariant says of the operations begun. -/
theorem RetryInv.begun {results : ℕ → Option GoError} {q : Retry} (hi : RetryInv results q) :
    q.begun ≤ q.attempt + 1 := by
  cases hpc : q.pc with
  | returned r =>
      have hhere := hi.at_pc hpc
      cases r with
      | nil => exact hhere.1.le
      | ctxErr => exact hhere.2.1
      | wrapError lastErr context => exact hhere.1.le
  | check => exact (hi.at_pc hpc).le.trans (Nat.le_succ _)
  | call => exact (hi.at_pc hpc).1.le.trans (Nat.le_succ _)
  | operating k => exact (hi.at_pc hpc).2.le
  | wait => exact (hi.at_pc hpc).1.le

/-- A call that returned with an error has seen nothing but failures. -/
theorem RetryInv.failing {results : ℕ → Option GoError} {q : Retry} (hi : RetryInv results q)
    {r : RetryReturn} (hr : q.pc = .returned r) (hne : r ≠ .nil) : Failing results q.begun := by
  have hhere := hi.at_pc hr
  cases r with
  | nil => exact absurd rfl hne
  | ctxErr => exact hhere.2.2
  | wrapError lastErr context =>
      obtain ⟨hbegun, -, hfail, -⟩ := hhere
      exact hbegun ▸ hfail

/-- The wrapped error is the one of the last attempt, and there was one for every retry. -/
theorem RetryInv.wrapped {results : ℕ → Option GoError} {q : Retry} (hi : RetryInv results q)
    {lastErr : Option GoError} {context : String}
    (hr : q.pc = .returned (.wrapError lastErr context)) :
    (q.begun : ℤ) = q.maxRetries + 1 ∧
      ∃ k e, q.begun = k + 1 ∧ results k = some e ∧ lastErr = some e := by
  obtain ⟨hb, hlast, hfail, hres⟩ := hi.at_pc hr
  have hsome := hfail q.attempt (Nat.lt_succ_self _)
  obtain ⟨e, he⟩ := Option.ne_none_iff_exists'.1 hsome
  exact ⟨by omega, q.attempt, e, hb, he, hres.symm.trans he⟩

/-- Without a cancellation the call made all its attempts or returned with the first success. -/
theorem RetryInv.decided {results : ℕ → Option GoError} {q : Retry} (hi : RetryInv results q)
    (hc : q.cancelled = false) {r : RetryReturn} (hr : q.pc = .returned r) :
    (r = .nil ↔ ∃ k : ℕ, (k : ℤ) ≤ q.maxRetries ∧ results k = none) ∧
      ((∃ k : ℕ, (k : ℤ) ≤ q.maxRetries ∧ results k = none ∧ Failing results k ∧
          q.begun = k + 1) ∨
        (∀ k : ℕ, (k : ℤ) ≤ q.maxRetries → results k ≠ none) ∧
          (q.begun : ℤ) = q.maxRetries + 1) := by
  have hatt := hi.attempt
  have hhere := hi.at_pc hr
  cases r with
  | nil =>
      obtain ⟨hb, hres⟩ := hhere
      exact ⟨iff_of_true rfl ⟨q.attempt, hatt, hres⟩,
        .inl ⟨q.attempt, hatt, hres, hi.failed, hb⟩⟩
  | ctxErr =>
      rw [hhere.1] at hc
      cases hc
  | wrapError lastErr context =>
      obtain ⟨hb, hlast, hfail, -⟩ := hhere
      have hall : ∀ k : ℕ, (k : ℤ) ≤ q.maxRetries → results k ≠ none := fun k hk =>
        hfail k (by omega)
      refine ⟨iff_of_false (fun h => by cases h) ?_, .inr ⟨hall, by omega⟩⟩
      rintro ⟨k, hk, hres⟩
      exact hall k hk hres

/-- A call that is stuck has returned. -/
theorem Retry.returned_of_stuck {results : ℕ → Option GoError} {q : Retry}
    (hstuck : ∀ a, retryStep results q a = none) : ∃ r, q.pc = .returned r := by
  by_contra hno
  obtain ⟨q', hq'⟩ := exists_retryStep results q fun r hr => hno ⟨r, hr⟩
  rw [hstuck] at hq'
  cases hq'

theorem RetryInv.contract {results : ℕ → Option GoError} {q : Retry} (hi : RetryInv results q) :
    RetryContract results q.maxRetries q where
  atMost := by
    have hatt := hi.attempt
    have hbegun := hi.begun
    omega
  notAgain := by
    intro k hk hres
    have hbegun := hi.begun
    by_contra hne
    exact hi.failed k (by omega) hres
  oneLate := hi.late
  nil_iff := by
    intro r hr
    constructor
    · rintro rfl
      exact ⟨q.attempt, hi.at_pc hr⟩
    · rintro ⟨k, hk, hres⟩
      by_contra hne
      exact hi.failing hr hne k (by omega) hres
  ctxErr := fun hr => (hi.at_pc hr).1
  exceeded := by
    intro r hr hne hne'
    cases r with
    | nil => exact absurd rfl hne
    | ctxErr => exact absurd rfl hne'
    | wrapError lastErr context =>
        obtain ⟨hb, hlast⟩ := hi.wrapped hr
        exact ⟨hb, hi.failing hr hne, hlast⟩
  uncancelled := fun hc _ hr => hi.decided hc hr
  ends := fun _ _ h => hi.left_lt (Retry.moves_of_step h)
  returns := Retry.returned_of_stuck

/-- **The contract of `DoWithRetry`**, for every configuration whose first producer has a
limit that is not negative, or that has no producer, every sequence of results, and
every moment at which the context is cancelled. -/
theorem doWithRetry_contract (cfg : RabbitMQ) (hm : 0 ≤ cfg.maxRetries)
    (results : ℕ → Option GoError) (q : Retry)
    (hr : Run (retryStep results) always cfg.doWithRetry q) :
    RetryContract results cfg.maxRetries q := by
  obtain ⟨hi, hmax⟩ := hr.invariant
    (I := fun q => RetryInv results q ∧ q.maxRetries = cfg.maxRetries)
    ⟨retryInv_start hm results, rfl⟩ fun _ _ _ hi _ h =>
      ⟨hi.1.step (Retry.moves_of_step h), (Retry.moves_of_step h).maxRetries.trans hi.2⟩
  exact hmax ▸ hi.contract

/-- The operation fails, the context is cancelled behind the next check, and the one call
that begins too late succeeds. -/
theorem doWithRetry_contract_late :
    ∃ q, 0 ≤ defaultRabbitMQConfig.maxRetries ∧
      Run (retryStep fun k => if k = 0 then some (.library "timeout") else none) always
        defaultRabbitMQConfig.doWithRetry q ∧
      q.pc = .returned .nil ∧ q.late = 1 ∧
      RetryContract (fun k => if k = 0 then some (.library "timeout") else none)
        defaultRabbitMQConfig.maxRetries q := by
  obtain ⟨q, hr, hq⟩ := exists_run_of_replay
    (retryStep fun k => if k = 0 then some (.library "timeout") else none) always
    defaultRabbitMQConfig.doWithRetry
    (fun q => q.pc == .returned .nil && q.late == 1)
    [.go, .go, .go, .go, .go, .cancel, .go, .go] (by decide)
  rw [Bool.and_eq_true, beq_iff_eq, beq_iff_eq] at hq
  exact ⟨q, by decide, hr, hq.1, hq.2, doWithRetry_contract _ (by decide) _ q hr⟩

end LynxRabbit
