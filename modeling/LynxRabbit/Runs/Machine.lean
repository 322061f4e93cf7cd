/-
# Guarded runs of a machine, and schedules that replay them

A machine is a partial step function `step : σ → α → Option σ`: in state `s` the
action `a` leads to `s'` when `step s a = some s'`, and is not enabled when it is
`none`.  A guard `g : σ → α → Bool` says which enabled actions a run may take, so
that one machine carries many families of runs: the environment a property
assumes is a guard, and so is the condition under which it holds.

`Run step g s t` is reachability by guarded steps; `Run.invariant` is the one
induction every safety statement uses, and `exists_run_of_measure` the one of the
statements that something can be brought to its end.  `replay` evaluates an explicit schedule,
`exists_run_of_replay` turns the evaluation into a run, and `replay_unique` compares two
schedules.
-/

import Mathlib.Data.List.Forall2
import Mathlib.Data.Nat.Notation
import Mathlib.Data.Option.Basic

namespace LynxRabbit
namespace Runs

variable {σ α : Type*}

/-- `t` is reached from `s` by steps whose actions the guard `g` admits. -/
inductive Run (step : σ → α → Option σ) (g : σ → α → Bool) (s : σ) : σ → Prop
  | refl : Run step g s s
  | tail {t u : σ} {a : α} : Run step g s t → g t a = true → step t a = some u → Run step g s u

variable {step : σ → α → Option σ} {g g' : σ → α → Bool} {s t u : σ}

/-- **The invariant rule.**  A property of the first state that every guarded
step keeps holds in every state reached. -/
theorem Run.invariant {I : σ → Prop} (hr : Run step g s t) (h₀ : I s)
    (hs : ∀ t a u, I t → g t a = true → step t a = some u → I u) : I t := by
  induction hr with
  | refl => exact h₀
  | tail _ hg hu ih => exact hs _ _ _ ih hg hu

theorem Run.trans (h : Run step g s t) (h' : Run step g t u) : Run step g s u := by
  induction h' with
  | refl => exact h
  | tail _ hg hu ih => exact .tail ih hg hu

/-- **The progress rule.**  When every state that is not done has an admitted step
that makes a measure smaller and keeps the invariant, a done state can be reached. -/
theorem exists_run_of_measure {I D : σ → Prop} (μ : σ → ℕ)
    (h : ∀ t, I t → ¬ D t → ∃ a u, g t a = true ∧ step t a = some u ∧ I u ∧ μ u < μ t)
    (hs : I s) : ∃ t, Run step g s t ∧ I t ∧ D t := by
  -- induction on the measure
  generalize hm : μ s = m
  induction m using Nat.strongRecOn generalizing s with
  | _ m ih =>
      by_cases hd : D s
      · exact ⟨s, .refl, hs, hd⟩
      · obtain ⟨a, u, hg, hu, hi, hlt⟩ := h s hs hd
        obtain ⟨t, hr, ht, hdt⟩ := ih (μ u) (hm ▸ hlt) hi rfl
        exact ⟨t, Run.trans (.tail .refl hg hu) hr, ht, hdt⟩

/-- The guard that admits every action. -/
def always (_ : σ) (_ : α) : Bool := true

/-- Two guards together. -/
def both (g g' : σ → α → Bool) (s : σ) (a : α) : Bool := g s a && g' s a

theorem both_iff {a : α} : both g g' s a = true ↔ g s a = true ∧ g' s a = true := by
  simp only [both, Bool.and_eq_true]

/-- A schedule, evaluated: `none` as soon as an action is not admitted or not
enabled. -/
def replay (step : σ → α → Option σ) (g : σ → α → Bool) : σ → List α → Option σ
  | s, [] => some s
  | s, a :: as => if g s a then (step s a).bind fun t => replay step g t as else none

theorem replay_always (s : σ) (a : α) (as : List α) :
    replay step always s (a :: as) = (step s a).bind fun t => replay step always t as := rfl

/-- **Two schedules whose actions are alike end alike**, when alike actions that are both
enabled lead from any state of the invariant to the same state. -/
theorem replay_unique {I : σ → Prop} {R : α → α → Prop}
    (hstep : ∀ s a t, I s → step s a = some t → I t)
    (hsame : ∀ s a b t u, I s → R a b → step s a = some t → step s b = some u → t = u)
    {as bs : List α} (hr : List.Forall₂ R as bs) {s t u : σ} (hi : I s)
    (ht : replay step always s as = some t) (hu : replay step always s bs = some u) : t = u := by
  induction hr generalizing s with
  | nil => exact Option.some.inj (ht.symm.trans hu)
  | cons hab _ ih =>
      rw [replay_always] at ht hu
      obtain ⟨t', ht', ht⟩ := Option.bind_eq_some_iff.1 ht
      obtain ⟨u', hu', hu⟩ := Option.bind_eq_some_iff.1 hu
      obtain rfl := hsame s _ _ t' u' hi hab ht' hu'
      exact ih (hstep s _ t' hi ht') ht hu

theorem Run.of_replay {t : σ} : ∀ {as : List α} {r : σ}, Run step g s r →
    replay step g r as = some t → Run step g s t
  | [], r, hr, h => by
      obtain rfl := Option.some.inj h
      exact hr
  | a :: as, r, hr, h => by
      rw [replay] at h
      split at h
      · rename_i hg
        obtain ⟨r', hr', h⟩ := Option.bind_eq_some_iff.1 h
        exact Run.of_replay (.tail hr hg hr') h
      · cases h

/-- **A schedule is a run.**  When the replay of `as` ends in a state with `P`,
such a state is reachable. -/
theorem exists_run_of_replay (step : σ → α → Option σ) (g : σ → α → Bool) (s : σ) (P : σ → Bool)
    (as : List α) (h : (replay step g s as).any P = true) : ∃ t, Run step g s t ∧ P t = true := by
  cases hr : replay step g s as with
  | none => rw [hr] at h; cases h
  | some t => rw [hr] at h; exact ⟨t, .of_replay .refl hr, h⟩

end Runs
end LynxRabbit
