/-
# Threads over a shared state

A pool is a shared state and the list of threads that run over it, in the order
they were spawned; a thread that has returned stays in the list.  One step of the
pool is one step of one thread: it may change the shared state, moves the thread
itself, and appends the threads it spawns.

`Pool.step_focus` opens a step once and for all: the list is `l ++ t :: r` around
the thread that moved, and `l ++ t' :: r ++ new` afterwards.  The rules below are
stated on that shape.  `forall_focus` is the rule of Owicki and Gries: an
assertion per thread survives the step when the moving thread keeps its own and
the change of the shared state does not break the others'.  `countP_focus` and
`not_of_countP_le_one` do the same for counts and for mutual exclusion.
-/

import Mathlib.Algebra.GroupWithZero.Nat
import Mathlib.Data.List.Basic
import Mathlib.Order.Nat

namespace LynxRabbit
namespace Runs

/-- A shared state and the threads over it, oldest first. -/
structure Pool (σ τ : Type*) where
  shared : σ
  threads : List τ

variable {σ τ β : Type*}

/-- Thread `i` takes the step its program allows under the choice `b`. -/
def Pool.step (act : σ → τ → β → Option (σ × τ × List τ)) (p : Pool σ τ) (i : ℕ) (b : β) :
    Option (Pool σ τ) :=
  match p.threads[i]? with
  | none => none
  | some t => (act p.shared t b).map fun q => ⟨q.1, p.threads.set i q.2.1 ++ q.2.2⟩

/-- The threads around the `i`-th one. -/
theorem exists_focus {ts : List τ} {i : ℕ} {t : τ} (h : ts[i]? = some t) :
    ∃ l r, ts = l ++ t :: r ∧ l.length = i := by
  obtain ⟨hi, rfl⟩ := List.getElem?_eq_some_iff.1 h
  refine ⟨ts.take i, ts.drop (i + 1), ?_, ?_⟩
  · rw [List.getElem_cons_drop, List.take_append_drop]
  · rw [List.length_take, Nat.min_eq_left (Nat.le_of_lt hi)]

/-- **A step in focus.**  The thread that moved, what it did to the shared state,
and the threads around it. -/
theorem Pool.step_focus {act : σ → τ → β → Option (σ × τ × List τ)} {p p' : Pool σ τ} {i : ℕ}
    {b : β} (h : p.step act i b = some p') :
    ∃ l t r s' t' new, p.threads = l ++ t :: r ∧ l.length = i ∧ p.threads[i]? = some t ∧
      act p.shared t b = some (s', t', new) ∧ p' = ⟨s', l ++ t' :: r ++ new⟩ := by
  unfold Pool.step at h
  split at h
  · cases h
  · rename_i t ht
    obtain ⟨⟨s', t', new⟩, ha, rfl⟩ := Option.map_eq_some_iff.1 h
    obtain ⟨l, r, hl, rfl⟩ := exists_focus ht
    refine ⟨l, t, r, s', t', new, hl, rfl, ht, ha, ?_⟩
    rw [hl, List.set_append_right l.length t' (Nat.le_refl _), Nat.sub_self, List.set_cons_zero]

/-- A step of the thread between `l` and `r`. -/
theorem Pool.step_of_focus {act : σ → τ → β → Option (σ × τ × List τ)} {p : Pool σ τ} {b : β}
    {l r new : List τ} {t t' : τ} {s' : σ} (hl : p.threads = l ++ t :: r)
    (h : act p.shared t b = some (s', t', new)) :
    p.step act l.length b = some ⟨s', l ++ t' :: r ++ new⟩ := by
  have hix : p.threads[l.length]? = some t := by rw [hl]; simp
  unfold Pool.step
  rw [hix]
  simp only
  rw [h, hl]
  simp

/-- Two choices for one thread that its program does not tell apart. -/
theorem Pool.step_unique {act : σ → τ → β → Option (σ × τ × List τ)} {p x y : Pool σ τ} {i : ℕ}
    {b b' : β} (h : ∀ t u v, act p.shared t b = some u → act p.shared t b' = some v → u = v)
    (hx : p.step act i b = some x) (hy : p.step act i b' = some y) : x = y := by
  unfold Pool.step at hx hy
  split at hx
  · cases hx
  · rename_i t ht
    rw [ht] at hy
    obtain ⟨u, hu, rfl⟩ := Option.map_eq_some_iff.1 hx
    obtain ⟨v, hv, rfl⟩ := Option.map_eq_some_iff.1 hy
    rw [h t u v hu hv]

variable {l r new : List τ} {t t' : τ}

/-- The thread that moved keeps its place. -/
theorem getElem?_focus_self (l r new : List τ) (t' : τ) :
    (l ++ t' :: r ++ new)[l.length]? = some t' := by
  simp

/-- Every other thread keeps its place. -/
theorem getElem?_focus_of_ne {j : ℕ} {u : τ} (h : (l ++ t :: r)[j]? = some u)
    (hj : j ≠ l.length) (t' : τ) (new : List τ) : (l ++ t' :: r ++ new)[j]? = some u := by
  have hlt : j < (l ++ t' :: r).length := by
    obtain ⟨hlt, -⟩ := List.getElem?_eq_some_iff.1 h
    simpa using hlt
  rw [List.getElem?_append_left hlt]
  rcases Nat.lt_or_gt_of_ne hj with hlt | hgt
  · rwa [List.getElem?_append_left hlt] at h ⊢
  · rw [List.getElem?_append_right (Nat.le_of_lt hgt)] at h ⊢
    obtain ⟨k, hk⟩ := Nat.exists_eq_add_of_lt hgt
    rw [hk, Nat.add_assoc, Nat.add_sub_cancel_left] at h ⊢
    exact h

/-- Which thread of the pool after the step stands at a place. -/
theorem getElem?_focus_cases {j : ℕ} {u : τ} (h : (l ++ t' :: r ++ new)[j]? = some u) (t : τ) :
    (j = l.length ∧ u = t') ∨ (j ≠ l.length ∧ (l ++ t :: r)[j]? = some u) ∨
      (l ++ t :: r).length ≤ j ∧ u ∈ new := by
  by_cases hj : j = l.length
  · subst hj
    rw [getElem?_focus_self] at h
    exact .inl ⟨rfl, (Option.some.inj h).symm⟩
  · by_cases hlt : j < (l ++ t' :: r).length
    · rw [List.getElem?_append_left hlt] at h
      have := getElem?_focus_of_ne h hj t []
      rw [List.append_nil] at this
      exact .inr (.inl ⟨hj, this⟩)
    · have hle : (l ++ t' :: r).length ≤ j := Nat.le_of_not_lt hlt
      rw [List.getElem?_append_right hle] at h
      refine .inr (.inr ⟨?_, List.mem_of_getElem? h⟩)
      simpa using hle

/-- Which thread stands at a place after one was added. -/
theorem getElem?_snoc_cases {ts : List τ} {j : ℕ} {u : τ} (h : (ts ++ [t])[j]? = some u) :
    ts[j]? = some u ∨ u = t := by
  by_cases hlt : j < ts.length
  · exact .inl (List.getElem?_append_left hlt ▸ h)
  · rw [List.getElem?_append_right (Nat.le_of_not_lt hlt)] at h
    exact .inr (List.mem_singleton.1 (List.mem_of_getElem? h))

/-- Where a thread of the pool after the step comes from. -/
theorem mem_focus {u : τ} (h : u ∈ l ++ t' :: r ++ new) : u ∈ l ++ r ∨ u = t' ∨ u ∈ new := by
  simp only [List.append_assoc, List.cons_append, List.mem_append, List.mem_cons] at h ⊢
  tauto

theorem mem_of_mem_others {u : τ} (h : u ∈ l ++ r) (t : τ) : u ∈ l ++ t :: r := by
  simp only [List.mem_append, List.mem_cons] at h ⊢
  tauto

theorem mem_focus_self (l r : List τ) (t : τ) : t ∈ l ++ t :: r :=
  List.mem_append_right _ (List.mem_cons_self ..)

theorem mem_focus_of_others {u : τ} (h : u ∈ l ++ r) (t' : τ) (new : List τ) :
    u ∈ l ++ t' :: r ++ new :=
  List.mem_append_left _ (mem_of_mem_others h t')

theorem mem_focus_moved (l r : List τ) (t' : τ) (new : List τ) : t' ∈ l ++ t' :: r ++ new :=
  List.mem_append_left _ (mem_focus_self l r t')

/-- A thread of the pool before the step is the one that moved or one of the
others. -/
theorem eq_or_mem_others {u : τ} (h : u ∈ l ++ t :: r) : u = t ∨ u ∈ l ++ r := by
  simp only [List.mem_append, List.mem_cons] at h ⊢
  tauto

/-- A thread at another place is one of the others. -/
theorem mem_others_of_ne {j : ℕ} {u : τ} (h : (l ++ t :: r)[j]? = some u) (hj : j ≠ l.length) :
    u ∈ l ++ r := by
  rcases Nat.lt_or_gt_of_ne hj with hlt | hgt
  · rw [List.getElem?_append_left hlt] at h
    exact List.mem_append_left _ (List.mem_of_getElem? h)
  · obtain ⟨k, rfl⟩ := Nat.exists_eq_add_of_lt hgt
    rw [List.getElem?_append_right (by omega), Nat.add_assoc, Nat.add_sub_cancel_left,
      List.getElem?_cons_succ] at h
    exact List.mem_append_right _ (List.mem_of_getElem? h)

/-- **Interference freedom.**  `L` holds of every thread before the step; `L'`
holds after it when the mover and the spawned threads have it and the others
carry it over. -/
theorem forall_focus {L L' : τ → Prop} (h : ∀ u ∈ l ++ t :: r, L u)
    (hother : ∀ u ∈ l ++ r, L u → L' u) (hself : L' t') (hnew : ∀ u ∈ new, L' u) :
    ∀ u ∈ l ++ t' :: r ++ new, L' u := by
  intro u hu
  rcases mem_focus hu with hu | rfl | hu
  · exact hother u hu (h u (mem_of_mem_others hu t))
  · exact hself
  · exact hnew u hu

theorem countP_cons_toNat (t : τ) (l : List τ) (f : τ → Bool) :
    (t :: l).countP f = l.countP f + (f t).toNat := by
  cases h : f t <;> simp [h]

/-- How a count of threads changes in a step. -/
theorem countP_focus (l r new : List τ) (t t' : τ) (f : τ → Bool) :
    (l ++ t' :: r ++ new).countP f + (f t).toNat =
      (l ++ t :: r).countP f + (f t').toNat + new.countP f := by
  simp only [List.countP_append, countP_cons_toNat]
  omega

/-- How a sum over the threads changes in a step. -/
theorem sum_focus (l r new : List τ) (t t' : τ) (f : τ → ℕ) :
    ((l ++ t' :: r ++ new).map f).sum + f t =
      ((l ++ t :: r).map f).sum + f t' + (new.map f).sum := by
  simp only [List.map_append, List.map_cons, List.sum_append, List.sum_cons]
  omega

/-- What is read off the threads in order, when the mover shows the same before
and after the step. -/
theorem filterMap_focus {ρ : Type*} (g : τ → Option ρ) (h : g t' = g t) :
    (l ++ t' :: r ++ new).filterMap g = (l ++ t :: r).filterMap g ++ new.filterMap g := by
  simp only [List.filterMap_append, List.filterMap_cons, h]

/-- How a count of threads changes when one is added. -/
theorem countP_snoc (l : List τ) (t : τ) (f : τ → Bool) :
    (l ++ [t]).countP f = l.countP f + (f t).toNat := by
  rw [List.countP_append, countP_cons_toNat, List.countP_nil, Nat.zero_add]

/-- How a count of threads changes in a step after which the others have the
property only if they had it before. -/
theorem countP_focus_le {f f' : τ → Bool} (h : ∀ u ∈ l ++ r, f' u = true → f u = true)
    (t t' : τ) (new : List τ) :
    (l ++ t' :: r ++ new).countP f' + (f t).toNat ≤
      (l ++ t :: r).countP f + (f' t').toNat + new.countP f' := by
  have hl : l.countP f' ≤ l.countP f :=
    List.countP_mono_left fun u hu => h u (List.mem_append_left _ hu)
  have hr : r.countP f' ≤ r.countP f :=
    List.countP_mono_left fun u hu => h u (List.mem_append_right _ hu)
  simp only [List.countP_append, countP_cons_toNat]
  omega

/-- **Mutual exclusion.**  When at most one thread has `f` and the mover has it,
no other thread does. -/
theorem not_of_countP_le_one {f : τ → Bool} (h : (l ++ t :: r).countP f ≤ 1) (ht : f t = true)
    {u : τ} (hu : u ∈ l ++ r) : f u = false := by
  simp only [List.countP_append, List.countP_cons, ht, if_true] at h
  have hz : (l ++ r).countP f = 0 := by rw [List.countP_append]; omega
  simpa using List.countP_eq_zero.1 hz u hu

/-- The same seen from another thread: when it has `f`, the mover does not. -/
theorem mover_of_countP_le_one {f : τ → Bool} (h : (l ++ t :: r).countP f ≤ 1) {u : τ}
    (hu : u ∈ l ++ r) (hf : f u = true) : f t = false := by
  by_contra ht
  rw [not_of_countP_le_one h (by simpa using ht) hu] at hf
  cases hf

end Runs
end LynxRabbit
