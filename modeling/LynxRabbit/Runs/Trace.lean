/-
# What can be observed along a schedule

A step of a machine may show something, by a function of the state before it and of the
action.  `trace` lists what a schedule shows, in order; where an action is not enabled
the schedule ends, in the state `ending`.

`trace_invariant` is the rule for properties of the whole list: a relation between what
was shown so far and the state, kept by every step.
-/

import LynxRabbit.Runs.Machine

namespace LynxRabbit
namespace Runs

variable {σ α ε : Type*} {step : σ → α → Option σ} {obs : σ → α → Option ε}

/-- What a schedule shows. -/
def trace (step : σ → α → Option σ) (obs : σ → α → Option ε) : σ → List α → List ε
  | _, [] => []
  | s, a :: as =>
    match step s a with
    | none => []
    | some t => (obs s a).toList ++ trace step obs t as

/-- The state in which a schedule ends. -/
def ending (step : σ → α → Option σ) : σ → List α → σ
  | s, [] => s
  | s, a :: as =>
    match step s a with
    | none => s
    | some t => ending step t as

theorem trace_cons {s t : σ} {a : α} (h : step s a = some t) (as : List α) :
    trace step obs s (a :: as) = (obs s a).toList ++ trace step obs t as := by
  rw [trace, h]

theorem ending_cons {s t : σ} {a : α} (h : step s a = some t) (as : List α) :
    ending step s (a :: as) = ending step t as := by
  rw [ending, h]

/-- A schedule that can be replayed to its end ends there. -/
theorem ending_of_replay {as : List α} : ∀ {s t : σ}, replay step always s as = some t →
    ending step s as = t := by
  induction as with
  | nil => intro s t h; exact Option.some.inj h
  | cons a as ih =>
      intro s t h
      rw [replay_always] at h
      obtain ⟨u, hu, h⟩ := Option.bind_eq_some_iff.1 h
      rw [ending_cons hu, ih h]

/-- **The invariant rule with a history.**  A relation between what was shown and the
state that every step keeps holds at the end of every schedule. -/
theorem trace_invariant (step : σ → α → Option σ) (obs : σ → α → Option ε)
    {I : List ε → σ → Prop}
    (hstep : ∀ es s a t, I es s → step s a = some t → I (es ++ (obs s a).toList) t)
    (as : List α) : ∀ {es : List ε} {s : σ}, I es s →
      I (es ++ trace step obs s as) (ending step s as) := by
  induction as with
  | nil => intro es s h; rwa [trace, ending, List.append_nil]
  | cons a as ih =>
      intro es s h
      cases hs : step s a with
      | none => rwa [trace, ending, hs, List.append_nil]
      | some t =>
          rw [trace_cons hs, ending_cons hs, ← List.append_assoc]
          exact ih (hstep es s a t h hs)

end Runs
end LynxRabbit
