/-
# Critical sections of a readers-writer lock

Calls that run side by side over shared data and one `RWMutex`.  A call is a
straight-line program of atomic accesses and lock operations; `Lock()` is two of them,
asking and getting.  Where a call stands, outside its sections, reading, waiting for the
write lock or writing, can be read off what it has left to do (`mode`), so that a
program is well formed when every operation leaves the mode it should, and every access
is made in a mode in which it may be.

`LockAgrees` says that the lock counts the calls in each mode.  It is kept by every step
(`LockAgrees.run`), and two things follow: no call writes while one reads
(`LockAgrees.not_writing`), and the calls never block one another for good
(`LockAgrees.exists_step`), as long as no program takes the lock inside a section, which
is what being well formed rules out.
-/

import LynxRabbit.Runs.Machine
import LynxRabbit.Runs.Pool
import LynxRabbit.Runs.RWMutex

namespace LynxRabbit
namespace Runs

/-- An operation of a call: on the lock, or an access to the data. -/
inductive Op (ι : Type*)
  | rLock
  | rUnlock
  | request
  | acquire
  | unlock
  | act (i : ι)
deriving DecidableEq, Repr

/-- Where a call stands. -/
inductive Mode
  | outside
  | reading
  | asked
  | writing
deriving DecidableEq, Repr

variable {ι σ ρ : Type*}

/-- The mode of a call, by what it has left to do. -/
def mode : List (Op ι) → Mode
  | [] => .outside
  | .rLock :: _ => .outside
  | .rUnlock :: _ => .reading
  | .request :: _ => .outside
  | .acquire :: _ => .asked
  | .unlock :: _ => .writing
  | .act _ :: k => mode k

/-- Every operation leads to the mode it should, and access `i` is made in a mode in which
`ok` allows it. -/
def wellFormed (ok : ι → Mode → Bool) : List (Op ι) → Bool
  | [] => true
  | .rLock :: k => mode k == .reading && wellFormed ok k
  | .rUnlock :: k => mode k == .outside && wellFormed ok k
  | .request :: k => mode k == .asked && wellFormed ok k
  | .acquire :: k => mode k == .writing && wellFormed ok k
  | .unlock :: k => mode k == .outside && wellFormed ok k
  | .act i :: k => mode k != .asked && ok i (mode k) && wellFormed ok k

theorem wellFormed_tail {ok : ι → Mode → Bool} {o : Op ι} {k : List (Op ι)}
    (h : wellFormed ok (o :: k) = true) : wellFormed ok k = true := by
  cases o <;> simp only [wellFormed, Bool.and_eq_true] at h <;> exact h.2

/-- A program that starts outside its sections. -/
structure Program (ok : ι → Mode → Bool) where
  ops : List (Op ι)
  starts : mode ops = .outside
  wf : wellFormed ok ops = true

/-- A call that is under way: what it has left to do, and what it keeps for itself. -/
structure Runner (ok : ι → Mode → Bool) (ρ : Type*) where
  todo : List (Op ι)
  wf : wellFormed ok todo = true
  loc : ρ

/-- The lock and the data. -/
structure Guarded (σ : Type*) where
  lock : RWMutex
  data : σ

/-- What an operation does to the lock; `none` when it has to wait. -/
def Op.locks (m : RWMutex) : Op ι → Option RWMutex
  | .rLock => m.rLock
  | .rUnlock => some m.rUnlock
  | .request => m.request
  | .acquire => m.acquire
  | .unlock => some m.unlock
  | .act _ => some m

/-- What an operation does to the data and to what the call keeps. -/
def Op.effect (eff : ι → σ → ρ → σ × ρ) (s : σ) (r : ρ) : Op ι → σ × ρ
  | .act i => eff i s r
  | _ => (s, r)

variable {ok : ι → Mode → Bool} {eff : ι → σ → ρ → σ × ρ}

/-- One step of a call. -/
def Runner.step (eff : ι → σ → ρ → σ × ρ) (m : Guarded σ) (t : Runner ok ρ) (_ : Unit) :
    Option (Guarded σ × Runner ok ρ × List (Runner ok ρ)) :=
  match h : t.todo with
  | [] => none
  | o :: k =>
    (o.locks m.lock).map fun lock =>
      (⟨lock, (o.effect eff m.data t.loc).1⟩,
        ⟨k, wellFormed_tail (h ▸ t.wf), (o.effect eff m.data t.loc).2⟩, [])

/-- What can happen next: a step of a call that is under way, or a new call. -/
inductive CallAction (ok : ι → Mode → Bool) (ρ : Type*)
  | run (i : ℕ)
  | call (p : Program ok) (r : ρ)

/-- A step of the calls. -/
def callStep (eff : ι → σ → ρ → σ × ρ) (p : Pool (Guarded σ) (Runner ok ρ)) :
    CallAction ok ρ → Option (Pool (Guarded σ) (Runner ok ρ))
  | .run i => p.step (Runner.step eff) i ()
  | .call q r => some ⟨p.shared, p.threads ++ [⟨q.ops, q.wf, r⟩]⟩

/-- The call stands in this mode. -/
def Runner.inMode (x : Mode) (t : Runner ok ρ) : Bool := mode t.todo == x

/-- **The lock counts the calls in each mode.** -/
structure LockAgrees (p : Pool (Guarded σ) (Runner ok ρ)) : Prop where
  readers : p.threads.countP (Runner.inMode .reading) = p.shared.lock.readers
  asked : p.threads.countP (Runner.inMode .asked) = (p.shared.lock.writer == .pending).toNat
  writing : p.threads.countP (Runner.inMode .writing) = (p.shared.lock.writer == .held).toNat

theorem Runner.step_some {m m' : Guarded σ} {t t' : Runner ok ρ} {new : List (Runner ok ρ)}
    (h : t.step eff m () = some (m', t', new)) :
    ∃ o k lock, t.todo = o :: k ∧ o.locks m.lock = some lock ∧ t'.todo = k ∧
      m' = ⟨lock, (o.effect eff m.data t.loc).1⟩ ∧ t'.loc = (o.effect eff m.data t.loc).2 ∧
      new = [] := by
  unfold Runner.step at h
  split at h
  · cases h
  · rename_i o k hk
    obtain ⟨lock, hlock, heq⟩ := Option.map_eq_some_iff.1 h
    obtain ⟨rfl, rfl, rfl⟩ := heq
    exact ⟨o, k, lock, hk, hlock, rfl, rfl, rfl, rfl⟩

/-- How many readers, waiting writers and writers a call in this mode is. -/
def Mode.counts (x y : Mode) : ℕ := (x == y).toNat

/-- **What an operation does to the lock is what it does to the mode of its call**, when
the lock knows of the call. -/
theorem Op.locks_mode {m m' : RWMutex} {o : Op ι} {k : List (Op ι)}
    (hwf : wellFormed ok (o :: k) = true) (h : o.locks m = some m')
    (hr : mode (o :: k) = .reading → 0 < m.readers)
    (hw : mode (o :: k) = .writing → m.writer = .held) :
    m'.readers + (mode (o :: k)).counts .reading = m.readers + (mode k).counts .reading ∧
    (m'.writer == .pending).toNat + (mode (o :: k)).counts .asked =
      (m.writer == .pending).toNat + (mode k).counts .asked ∧
    (m'.writer == .held).toNat + (mode (o :: k)).counts .writing =
      (m.writer == .held).toNat + (mode k).counts .writing := by
  cases o with
  | rLock =>
      simp only [wellFormed, Bool.and_eq_true, beq_iff_eq] at hwf
      obtain ⟨h₁, h₂, h₃⟩ := RWMutex.rLock_some h
      rw [h₂, h₃, h₁, hwf.1]
      exact ⟨rfl, rfl, rfl⟩
  | rUnlock =>
      simp only [wellFormed, Bool.and_eq_true, beq_iff_eq] at hwf
      cases h
      rw [hwf.1]
      refine ⟨?_, rfl, rfl⟩
      exact Nat.sub_add_cancel (hr rfl)
  | request =>
      simp only [wellFormed, Bool.and_eq_true, beq_iff_eq] at hwf
      obtain ⟨h₁, h₂, h₃⟩ := RWMutex.request_some h
      rw [h₂, h₃, h₁, hwf.1]
      exact ⟨rfl, rfl, rfl⟩
  | acquire =>
      simp only [wellFormed, Bool.and_eq_true, beq_iff_eq] at hwf
      obtain ⟨h₁, h₂, h₃, h₄⟩ := RWMutex.acquire_some h
      rw [h₂, h₃, h₄, h₁, hwf.1]
      exact ⟨rfl, rfl, rfl⟩
  | unlock =>
      simp only [wellFormed, Bool.and_eq_true, beq_iff_eq] at hwf
      cases h
      rw [hwf.1, hw rfl]
      exact ⟨rfl, rfl, rfl⟩
  | act i =>
      cases h
      exact ⟨rfl, rfl, rfl⟩

theorem eq_of_toNat_pos {a b : Writer} (h : 0 < (a == b).toNat) : a = b := by
  by_contra hne
  rw [beq_eq_false_iff_ne.2 hne] at h
  cases h

theorem countP_inMode_pos {ts : List (Runner ok ρ)} {t : Runner ok ρ} {x : Mode} (ht : t ∈ ts)
    (hm : mode t.todo = x) : 0 < ts.countP (Runner.inMode x) := by
  refine List.countP_pos_iff.2 ⟨t, ht, ?_⟩
  rw [Runner.inMode, hm]
  exact beq_self_eq_true x

/-- What the lock knows of a call. -/
theorem LockAgrees.of_mem {p : Pool (Guarded σ) (Runner ok ρ)} (h : LockAgrees p)
    {t : Runner ok ρ} (ht : t ∈ p.threads) :
    (mode t.todo = .reading → 0 < p.shared.lock.readers) ∧
      (mode t.todo = .asked → p.shared.lock.writer = .pending) ∧
      (mode t.todo = .writing → p.shared.lock.writer = .held) :=
  ⟨fun hm => h.readers ▸ countP_inMode_pos ht hm,
    fun hm => eq_of_toNat_pos (h.asked ▸ countP_inMode_pos ht hm),
    fun hm => eq_of_toNat_pos (h.writing ▸ countP_inMode_pos ht hm)⟩

/-- A step of one call. -/
theorem LockAgrees.mover {p : Pool (Guarded σ) (Runner ok ρ)} {l r : List (Runner ok ρ)}
    {t t' : Runner ok ρ} {o : Op ι} {k : List (Op ι)} {lock : RWMutex}
    (h : LockAgrees p) (hl : p.threads = l ++ t :: r) (ht : t.todo = o :: k)
    (ht' : t'.todo = k) (hlock : o.locks p.shared.lock = some lock) (s' : σ) :
    LockAgrees ⟨⟨lock, s'⟩, l ++ t' :: r ++ []⟩ := by
  obtain ⟨hr, -, hw⟩ := h.of_mem (t := t) (by rw [hl]; exact mem_focus_self l r t)
  rw [ht] at hr hw
  obtain ⟨e₁, e₂, e₃⟩ := Op.locks_mode (ht ▸ t.wf) hlock hr hw
  have c₁ := countP_focus l r [] t t' (Runner.inMode .reading)
  have c₂ := countP_focus l r [] t t' (Runner.inMode .asked)
  have c₃ := countP_focus l r [] t t' (Runner.inMode .writing)
  rw [← hl] at c₁ c₂ c₃
  rw [h.readers] at c₁
  rw [h.asked] at c₂
  rw [h.writing] at c₃
  simp only [Runner.inMode, ht, ht', List.countP_nil, Nat.add_zero] at c₁ c₂ c₃
  unfold Mode.counts at e₁ e₂ e₃
  exact ⟨Nat.add_right_cancel (c₁.trans e₁.symm), Nat.add_right_cancel (c₂.trans e₂.symm),
    Nat.add_right_cancel (c₃.trans e₃.symm)⟩

theorem LockAgrees.step {p p' : Pool (Guarded σ) (Runner ok ρ)} {a : CallAction ok ρ}
    (h : LockAgrees p) (hs : callStep eff p a = some p') : LockAgrees p' := by
  cases a with
  | run i =>
      obtain ⟨l, t, r, m', t', new, hl, -, -, hact, rfl⟩ := Pool.step_focus hs
      obtain ⟨o, k, lock, hk, hlock, hk', rfl, -, rfl⟩ := Runner.step_some hact
      exact h.mover hl hk hk' hlock _
  | call q r =>
      obtain rfl := Option.some.inj hs
      refine ⟨?_, ?_, ?_⟩
      · rw [countP_snoc, h.readers, Runner.inMode, q.starts]
        rfl
      · rw [countP_snoc, h.asked, Runner.inMode, q.starts]
        rfl
      · rw [countP_snoc, h.writing, Runner.inMode, q.starts]
        rfl

/-! ### Exclusion -/

/-- **No call writes while one reads.** -/
theorem LockAgrees.not_writing {p : Pool (Guarded σ) (Runner ok ρ)} (h : LockAgrees p)
    {u t : Runner ok ρ} (hu : u ∈ p.threads) (hm : mode u.todo = .reading) (ht : t ∈ p.threads) :
    mode t.todo ≠ .writing := by
  intro hw
  exact RWMutex.not_held_of_readers ((h.of_mem hu).1 hm) ((h.of_mem ht).2.2 hw)

/-! ### No deadlock -/

section Progress

variable {p : Pool (Guarded σ) (Runner ok ρ)} {t : Runner ok ρ}

/-- A call whose next operation the lock lets through can go on. -/
theorem exists_callStep {o : Op ι} {k : List (Op ι)} {lock : RWMutex} (ht : t ∈ p.threads)
    (hk : t.todo = o :: k) (h : o.locks p.shared.lock = some lock) (eff : ι → σ → ρ → σ × ρ) :
    ∃ i p', callStep eff p (.run i) = some p' := by
  have hstep : ∃ m' t', t.step eff p.shared () = some (m', t', []) := by
    unfold Runner.step
    split
    · rename_i hnil
      rw [hk] at hnil
      cases hnil
    · rename_i o' k' hk'
      obtain ⟨rfl, rfl⟩ := List.cons.inj (hk.symm.trans hk')
      rw [h]
      exact ⟨_, _, rfl⟩
  obtain ⟨l, r, hl⟩ := List.append_of_mem ht
  obtain ⟨m', t', hs⟩ := hstep
  exact ⟨l.length, _, Pool.step_of_focus hl hs⟩

/-- A call in its section can go on. -/
theorem exists_callStep_of_section (ht : t ∈ p.threads)
    (hm : mode t.todo = .reading ∨ mode t.todo = .writing) (eff : ι → σ → ρ → σ × ρ) :
    ∃ i p', callStep eff p (.run i) = some p' := by
  cases hk : t.todo with
  | nil => rw [hk] at hm; rcases hm with hm | hm <;> cases hm
  | cons o k =>
      rw [hk] at hm
      cases o with
      | rLock => rcases hm with hm | hm <;> cases hm
      | request => rcases hm with hm | hm <;> cases hm
      | acquire => rcases hm with hm | hm <;> cases hm
      | rUnlock => exact exists_callStep ht hk rfl eff
      | unlock => exact exists_callStep ht hk rfl eff
      | act i => exact exists_callStep ht hk rfl eff

/-- When nobody reads, a call that has asked for the lock gets it. -/
theorem LockAgrees.exists_callStep_of_asked (h : LockAgrees p) (ht : t ∈ p.threads)
    (hm : mode t.todo = .asked) (hr : p.shared.lock.readers = 0) (eff : ι → σ → ρ → σ × ρ) :
    ∃ i p', callStep eff p (.run i) = some p' := by
  have hpend := (h.of_mem ht).2.1 hm
  have hwf := t.wf
  cases hk : t.todo with
  | nil => rw [hk] at hm; cases hm
  | cons o k =>
      rw [hk] at hm hwf
      cases o with
      | acquire => exact exists_callStep ht hk (if_pos ⟨hpend, hr⟩) eff
      | act i =>
          have hm' : mode k = .asked := hm
          simp [wellFormed, hm'] at hwf
      | _ => cases hm

/-- When the lock is free, every call can go on. -/
theorem LockAgrees.exists_callStep_of_free (h : LockAgrees p) (ht : t ∈ p.threads)
    (hne : t.todo ≠ []) (hfree : p.shared.lock.writer = .free) (eff : ι → σ → ρ → σ × ρ) :
    ∃ i p', callStep eff p (.run i) = some p' := by
  cases hk : t.todo with
  | nil => exact absurd hk hne
  | cons o k =>
      cases o with
      | rLock => exact exists_callStep ht hk (if_pos hfree) eff
      | rUnlock => exact exists_callStep ht hk rfl eff
      | request => exact exists_callStep ht hk (if_pos hfree) eff
      | acquire =>
          have hpend := (h.of_mem ht).2.1 (by rw [hk]; rfl)
          cases hfree.symm.trans hpend
      | unlock => exact exists_callStep ht hk rfl eff
      | act i => exact exists_callStep ht hk rfl eff

/-- **The calls never block one another for good**: as long as one has something left to
do, one can go on. -/
theorem LockAgrees.exists_step (h : LockAgrees p) (ht : t ∈ p.threads) (hne : t.todo ≠ [])
    (eff : ι → σ → ρ → σ × ρ) : ∃ i p', callStep eff p (.run i) = some p' := by
  have hmode : ∀ x, (∃ u ∈ p.threads, mode u.todo = x) ∨
      p.threads.countP (Runner.inMode x) = 0 := by
    intro x
    by_cases hx : ∃ u ∈ p.threads, mode u.todo = x
    · exact .inl hx
    · refine .inr (List.countP_eq_zero.2 fun u hu hm => hx ⟨u, hu, ?_⟩)
      simpa [Runner.inMode] using hm
  rcases hmode .reading with ⟨u, hu, hm⟩ | hr
  · exact exists_callStep_of_section hu (.inl hm) eff
  rcases hmode .writing with ⟨u, hu, hm⟩ | hw
  · exact exists_callStep_of_section hu (.inr hm) eff
  rcases hmode .asked with ⟨u, hu, hm⟩ | ha
  · exact h.exists_callStep_of_asked hu hm (h.readers ▸ hr) eff
  -- all are outside, and the lock is free
  refine h.exists_callStep_of_free ht hne ?_ eff
  rw [h.writing] at hw
  rw [h.asked] at ha
  cases hcase : p.shared.lock.writer with
  | free => rfl
  | pending => rw [hcase] at ha; cases ha
  | held => rw [hcase] at hw; cases hw

end Progress

/-- How many operations are left. -/
def left (p : Pool (Guarded σ) (Runner ok ρ)) : ℕ := (p.threads.map (·.todo.length)).sum

/-- Every step of a call leaves one operation less. -/
theorem left_run {p p' : Pool (Guarded σ) (Runner ok ρ)} {i : ℕ}
    (hs : callStep eff p (.run i) = some p') : left p' + 1 = left p := by
  obtain ⟨l, t, r, m', t', new, hl, -, -, hact, rfl⟩ := Pool.step_focus hs
  obtain ⟨o, k, lock, hk, -, hk', -, -, rfl⟩ := Runner.step_some hact
  have hsum := sum_focus l r [] t t' (·.todo.length)
  unfold left
  rw [hl]
  simp only [hk, hk', List.length_cons, List.map_nil, List.sum_nil, Nat.add_zero] at hsum ⊢
  omega

end Runs
end LynxRabbit
