/-
# What the threads of a pool hold between them

An account says how much of something each thread holds, how much lies in the
shared state, and how much there is in all: locks held against the lock's own
count, items in flight against items handed out.  It balances when the parts add
up.  A step keeps the balance when what it moves between the thread and the shared
state cancels out, which is a statement about one thread; `Balanced.focus` makes
it one about the pool.
-/

import LynxRabbit.Runs.Pool
import Mathlib.Algebra.Order.BigOperators.Group.List
import Mathlib.Algebra.Order.Group.Nat

namespace LynxRabbit
namespace Runs

/-- What lies in the shared state, what a thread holds, and what there is in all. -/
structure Account (σ τ : Type*) where
  inside : σ → ℕ
  held : τ → ℕ
  total : σ → ℕ

namespace Account

variable {σ τ : Type*} {a : Account σ τ} {p : Pool σ τ} {s' : σ} {l r new : List τ} {t t' : τ}

/-- The parts add up. -/
def Balanced (a : Account σ τ) (p : Pool σ τ) : Prop :=
  a.inside p.shared + (p.threads.map a.held).sum = a.total p.shared

/-- **A step that cancels out keeps the balance.** -/
theorem Balanced.focus (h : a.Balanced p) (hl : p.threads = l ++ t :: r)
    (hstep : a.inside s' + a.held t' + (new.map a.held).sum + a.total p.shared =
      a.inside p.shared + a.held t + a.total s') :
    a.Balanced ⟨s', l ++ t' :: r ++ new⟩ := by
  have hsum := sum_focus l r new t t' a.held
  unfold Balanced at h ⊢
  rw [hl] at h
  simp only at hsum ⊢
  omega

/-- No thread holds more than there is. -/
theorem Balanced.held_le (h : a.Balanced p) (ht : t ∈ p.threads) : a.held t ≤ a.total p.shared := by
  have hle : a.held t ≤ (p.threads.map a.held).sum :=
    List.single_le_sum (fun _ _ => Nat.zero_le _) _ (List.mem_map_of_mem ht)
  unfold Balanced at h
  omega

/-- When the mover holds all there is, the others hold nothing. -/
theorem Balanced.others (h : a.Balanced p) (hl : p.threads = l ++ t :: r)
    (hall : a.total p.shared ≤ a.held t) {u : τ} (hu : u ∈ l ++ r) : a.held u = 0 := by
  have hle : a.held u ≤ ((l ++ r).map a.held).sum :=
    List.single_le_sum (fun _ _ => Nat.zero_le _) _ (List.mem_map_of_mem hu)
  unfold Balanced at h
  rw [hl] at h
  simp only [List.map_append, List.map_cons, List.sum_append, List.sum_cons] at h hle
  omega

/-- A new thread keeps the balance when it brings what it holds. -/
theorem Balanced.snoc (h : a.Balanced p)
    (hstep : a.inside s' + a.held t' + a.total p.shared = a.inside p.shared + a.total s') :
    a.Balanced ⟨s', p.threads ++ [t']⟩ := by
  unfold Balanced at h ⊢
  simp only [List.map_append, List.map_cons, List.map_nil, List.sum_append, List.sum_cons,
    List.sum_nil]
  omega

/-- What is there and not in the shared state is held by some thread. -/
theorem Balanced.exists_held (h : a.Balanced p) (hlt : a.inside p.shared < a.total p.shared) :
    ∃ t ∈ p.threads, 0 < a.held t := by
  by_contra hno
  have hz : (p.threads.map a.held).sum = 0 := by
    refine List.sum_eq_zero fun x hx => ?_
    obtain ⟨t, ht, rfl⟩ := List.mem_map.1 hx
    by_contra hne
    exact hno ⟨t, ht, Nat.pos_of_ne_zero hne⟩
  unfold Balanced at h
  omega

end Account
end Runs
end LynxRabbit
