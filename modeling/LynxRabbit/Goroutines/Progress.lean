/-
# When the goroutine pool can go on

`Submit` runs a task inline under its read lock when the queue is full.  A task
that submits takes the read lock a second time, and `RWMutex` lets no reader in
once a writer has asked: a `Wait` that asks in between waits for the inline task,
and the inline task waits for `Wait`.

`submitsLocked` is that situation seen from one goroutine: a `Submit` still to be
made above a read lock already held.  As long as no writer is pending while some
goroutine is in it, the pool is never stuck: `PoolInv.progress`.
-/

import LynxRabbit.Goroutines.Ledger

namespace LynxRabbit

open Runs

variable {ι : Type} {body : ι → List (Option ι)} {s s' : GoroutinePool ι} {p p' : PoolState ι}

/-- The frame has a `Submit` still to make, is waiting in one for its read lock, or has a
task that it has not looked at. -/
def Frame.submits : Frame ι → Bool
  | .rlock _ => true
  | .took _ => true
  | .run _ rest => !rest.isEmpty
  | _ => false

/-- A `Submit` is still to be made above a read lock that is held. -/
def submitsLocked : List (Frame ι) → Bool
  | [] => false
  | f :: fs => f.submits && fs.any Frame.holds || submitsLocked fs

/-- The goroutine has not finished; a worker in its `range` over an open and empty
queue has nothing to do. -/
def PoolThread.unfinished (s : GoroutinePool ι) : PoolThread ι → Bool
  | .submit fs => !fs.isEmpty
  | .worker fs => !fs.isEmpty || !s.workers.isEmpty || s.workersClosed
  | .exiting => true
  | .exited => false
  | .waiter pc => pc != .returned

/-! ### Enabled steps -/

/-- A frame can go on, unless it waits for a read lock a writer keeps it from. -/
theorem Frame.exists_step (body : ι → List (Option ι)) (s : GoroutinePool ι) {f : Frame ι}
    (h : s.mu.writer = .free ∨ ∀ j, f ≠ .rlock j) : ∃ q, f.step body s = some q := by
  cases f with
  | rlock j =>
      have hfree : s.mu.writer = .free := h.resolve_right fun hne => hne j rfl
      exact ⟨_, by rw [Frame.step, RWMutex.rLock, if_pos hfree]; rfl⟩
  | check j => rw [Frame.step]; split <;> exact ⟨_, rfl⟩
  | select j =>
      rw [Frame.step]
      split
      · exact ⟨_, rfl⟩
      · split
        · exact ⟨_, rfl⟩
        · split <;> exact ⟨_, rfl⟩
  | took j => rw [Frame.step]; split <;> exact ⟨_, rfl⟩
  | run k rest => cases rest <;> exact ⟨_, rfl⟩
  | unlock => exact ⟨_, rfl⟩

/-- A goroutine with frames can go on when the one on top can. -/
theorem PoolThread.exists_step_of_frame {t : PoolThread ι} {f : Frame ι} {fs : List (Frame ι)}
    (ht : t.stack = f :: fs) (h : s.mu.writer = .free ∨ ∀ j, f ≠ .rlock j) :
    ∃ q, t.step body s = some q := by
  obtain ⟨q, hq⟩ := Frame.exists_step body s h
  cases t with
  | submit gs =>
      obtain rfl : gs = f :: fs := ht
      exact ⟨_, by rw [PoolThread.step, hq]; rfl⟩
  | worker gs =>
      obtain rfl : gs = f :: fs := ht
      exact ⟨_, by rw [PoolThread.step, hq]; rfl⟩
  | _ => cases ht

/-- A worker whose queue holds something or is closed can go on, when no writer is
about. -/
theorem PoolThread.exists_step_worker {fs : List (Frame ι)} (hfree : s.mu.writer = .free)
    (h : (PoolThread.worker fs).unfinished s = true) :
    ∃ q, (PoolThread.worker fs).step body s = some q := by
  cases fs with
  | cons f fs => exact exists_step_of_frame rfl (.inl hfree)
  | nil =>
      rw [PoolThread.step]
      split
      · exact ⟨_, rfl⟩
      · rename_i hq
        have hc : s.workersClosed = true := by simpa [unfinished, hq] using h
        rw [if_pos hc]
        exact ⟨_, rfl⟩

/-- Between `Lock` and `Unlock` nothing blocks. -/
theorem WaitPc.exists_step {pc : WaitPc} (s : GoroutinePool ι) (h : pc.holding = true) :
    ∃ q, pc.step s = some q := by
  cases pc with
  | check => rw [WaitPc.step]; split <;> exact ⟨_, rfl⟩
  | close => rw [WaitPc.step]; split <;> exact ⟨_, rfl⟩
  | mark => exact ⟨_, rfl⟩
  | unlock => exact ⟨_, rfl⟩
  | _ => cases h

/-- A step of a goroutine is a step of the system. -/
theorem PoolInv.exists_run (h : PoolInv p) {t : PoolThread ι} (ht : t ∈ p.threads)
    (hstep : ∃ q, t.step body p.shared = some q) : ∃ i q, poolStep body p (.run i) = some q := by
  obtain ⟨q, hq⟩ := hstep
  obtain ⟨i, hi⟩ := List.mem_iff_getElem?.1 ht
  refine ⟨i, ⟨q.1, p.threads.set i q.2 ++ []⟩, ?_⟩
  simp only [poolStep, h.noPanic, Pool.step, hi, hq]
  rfl

/-! ### Progress -/

/-- The one situation that blocks: a writer has asked, and a goroutine that has a
read lock is going to ask for another. -/
def NoLockedSubmit (p : PoolState ι) : Prop :=
  p.shared.mu.writer = .pending → ∀ t ∈ p.threads, submitsLocked t.stack = false

/-- A goroutine that holds a read lock and has no `Submit` left under it can go
on. -/
theorem PoolThread.exists_step_of_holds {t : PoolThread ι}
    (hpos : 0 < t.stack.countP Frame.holds) (hno : submitsLocked t.stack = false) :
    ∃ q, t.step body s = some q := by
  cases hs : t.stack with
  | nil => rw [hs] at hpos; cases hpos
  | cons f fs =>
      refine exists_step_of_frame hs (.inr fun j hj => ?_)
      subst hj
      rw [hs, countP_cons_toNat] at hpos
      rw [hs] at hno
      have hany : fs.any Frame.holds = true := by
        have hpos' : 0 < fs.countP Frame.holds := by simpa [Frame.holds] using hpos
        simpa using List.countP_pos_iff.1 hpos'
      simp [submitsLocked, Frame.submits, hany] at hno

/-- While a writer is about somebody can go on: the writer, or a reader it waits
for. -/
theorem PoolInv.progress_writer (h : PoolInv p) (hno : NoLockedSubmit p)
    (hw : p.shared.mu.writer ≠ .free) : ∃ i q, poolStep body p (.run i) = some q := by
  cases hwr : p.shared.mu.writer with
  | free => exact absurd hwr hw
  | held =>
      obtain ⟨t, ht, hpos⟩ := h.heldWriter.exists_held (by simp [heldAccount, hwr])
      refine h.exists_run ht ?_
      cases t with
      | waiter pc =>
          have hpc : pc.holding = true := by
            cases hb : pc.holding with
            | true => rfl
            | false => simp [heldAccount, PoolThread.writing, hb] at hpos
          obtain ⟨q, hq⟩ := WaitPc.exists_step p.shared hpc
          exact ⟨_, by rw [PoolThread.step, hq]; rfl⟩
      | _ => cases hpos
  | pending =>
      rcases Nat.eq_zero_or_pos p.shared.mu.readers with hz | hpos
      · obtain ⟨t, ht, hpos⟩ := h.pendingWriter.exists_held (by simp [pendingAccount, hwr])
        refine h.exists_run ht ?_
        cases t with
        | waiter pc =>
            cases pc with
            | locking =>
                have hacq : p.shared.mu.acquire = some ⟨0, .held, fun _ => rfl⟩ := by
                  rw [RWMutex.acquire, if_pos ⟨hwr, hz⟩]
                exact ⟨_, by rw [PoolThread.step, WaitPc.step, hacq]; rfl⟩
            | _ => cases hpos
        | _ => cases hpos
      · obtain ⟨t, ht, hpos⟩ := h.readLocks.exists_held hpos
        exact h.exists_run ht (PoolThread.exists_step_of_holds hpos (hno hwr t ht))

/-- A call past its critical section that waits for the workers: one of them can
go on. -/
theorem PoolInv.progress_wait (h : PoolInv p) (hfree : p.shared.mu.writer = .free)
    (ht : .waiter .wait ∈ p.threads) : ∃ i q, poolStep body p (.run i) = some q := by
  have hclosed : p.shared.workersClosed = true := h.closed (h.fits _ ht)
  rcases Nat.eq_zero_or_pos p.shared.wg with hz | hpos
  · refine h.exists_run ht ⟨(p.shared, .waiter .returned), ?_⟩
    rw [PoolThread.step, WaitPc.step, if_pos hz]
    rfl
  · obtain ⟨t, ht, hlive⟩ := h.liveWorkers.exists_held hpos
    refine h.exists_run ht ?_
    cases t with
    | worker fs =>
        exact PoolThread.exists_step_worker hfree (by simp [PoolThread.unfinished, hclosed])
    | exiting => exact ⟨_, rfl⟩
    | _ => cases hlive

/-- **The pool can go on** as long as some goroutine has not finished. -/
theorem PoolInv.progress (h : PoolInv p) (hno : NoLockedSubmit p)
    (hu : ∃ t ∈ p.threads, t.unfinished p.shared = true) :
    ∃ i q, poolStep body p (.run i) = some q := by
  obtain ⟨t, ht, hu⟩ := hu
  by_cases hfree : p.shared.mu.writer = .free
  · cases t with
    | submit fs =>
        cases fs with
        | nil => cases hu
        | cons f fs => exact h.exists_run ht (PoolThread.exists_step_of_frame rfl (.inl hfree))
    | worker fs => exact h.exists_run ht (PoolThread.exists_step_worker hfree hu)
    | exiting => exact h.exists_run ht ⟨_, rfl⟩
    | exited => cases hu
    | waiter pc =>
        cases pc with
        | lock =>
            obtain ⟨m, hreq⟩ : ∃ m, p.shared.mu.request = some m := ⟨_, if_pos hfree⟩
            exact h.exists_run ht ⟨_, by rw [PoolThread.step, WaitPc.step, hreq]; rfl⟩
        | locking =>
            have hle : 1 ≤ (decide (p.shared.mu.writer = .pending)).toNat :=
              h.pendingWriter.held_le ht
            rw [hfree] at hle
            exact absurd hle (by decide)
        | wait => exact h.progress_wait hfree ht
        | returned => cases hu
        | _ => exact absurd (h.held ht rfl) (by rw [hfree]; decide)
  · exact h.progress_writer hno hfree

/-! ### The condition -/

/-- Nobody asks for the write lock while a goroutine that holds a read lock has a
`Submit` still to make, and no task that submits is begun inline while a writer
has asked. -/
def nestsSafely (body : ι → List (Option ι)) (p : PoolState ι) : PoolAction ι → Bool
  | .run i =>
    match p.threads[i]? with
    | some (.waiter .lock) => p.threads.all fun t => !submitsLocked t.stack
    | some t =>
      match t.stack with
      | .select j :: _ =>
        decide (p.shared.mu.writer ≠ .pending) ||
          decide (p.shared.workers.length < p.shared.size) || j.task.all fun i => (body i).isEmpty
      | _ => true
    | none => true
  | _ => true

/-- A frame that moves under the condition while a writer has asked brings no
`Submit` above a read lock. -/
theorem Frame.Moves.submitsLocked {f : Frame ι} {new fs : List (Frame ι)}
    (h : f.Moves body s s' new) (hw : s'.mu.writer = .pending)
    (hinline : ∀ j i, f = .select j → j.task = some i → s.workers.length < s.size ∨ body i = [])
    (hno : submitsLocked (f :: fs) = false) : LynxRabbit.submitsLocked (new ++ fs) = false := by
  obtain ⟨htop, hfs⟩ := Bool.or_eq_false_iff.1 hno
  cases h
  case lock m hm =>
      rw [(RWMutex.rLock_some hm).2.2] at hw
      cases hw
  case inline j i _ hfull hj =>
      have hb : body i = [] := (hinline j i rfl hj).resolve_left hfull
      simp [LynxRabbit.submitsLocked, submits, hb, hfs]
  case start =>
      have hnone : fs.any Frame.holds = false := by simpa [submits] using htop
      simp [LynxRabbit.submitsLocked, hnone, hfs]
  case call =>
      have hnone : fs.any Frame.holds = false := by simpa [submits] using htop
      simp [LynxRabbit.submitsLocked, holds, hnone, hfs]
  all_goals simp [LynxRabbit.submitsLocked, submits, hfs]

/-- A writer becomes pending only by asking. -/
theorem PoolThread.Moves.asks {t t' : PoolThread ι} (h : t.Moves body s s' t')
    (hw : s'.mu.writer = .pending) : s.mu.writer = .pending ∨ t = .waiter .lock := by
  cases h with
  | submit hf => exact .inl (hf.writer ▸ hw)
  | worker hf => exact .inl (hf.writer ▸ hw)
  | waiter hm =>
      cases hm with
      | request _ => exact .inr rfl
      | acquire hm => rw [(RWMutex.acquire_some hm).2.2.2] at hw; cases hw
      | unlock => cases hw
      | _ => exact .inl hw
  | _ => exact .inl hw

/-- What the condition says of a goroutine at its `select` while a writer has asked. -/
theorem inline_of_nestsSafely {i : ℕ} {t : PoolThread ι} {f : Frame ι} {fs : List (Frame ι)}
    (hg : nestsSafely body p (.run i) = true) (hix : p.threads[i]? = some t)
    (hpend : p.shared.mu.writer = .pending) (hst : t.stack = f :: fs) :
    ∀ j k, f = .select j → j.task = some k →
      p.shared.workers.length < p.shared.size ∨ body k = [] := by
  rintro j k rfl hj
  simp only [nestsSafely, hix] at hg
  cases t with
  | waiter pc => cases hst
  | exiting => cases hst
  | exited => cases hst
  | submit gs =>
      obtain rfl : gs = _ := hst
      simpa [PoolThread.stack, hpend, hj] using hg
  | worker gs =>
      obtain rfl : gs = _ := hst
      simpa [PoolThread.stack, hpend, hj] using hg

theorem NoLockedSubmit.snoc (h : NoLockedSubmit p) {t : PoolThread ι} (hmu : s'.mu = p.shared.mu)
    (ht : submitsLocked t.stack = false) : NoLockedSubmit ⟨s', p.threads ++ [t]⟩ := by
  intro hw
  exact List.forall_mem_append.2 ⟨h (hmu ▸ hw), List.forall_mem_singleton.2 ht⟩

theorem NoLockedSubmit.step {a : PoolAction ι} (h : NoLockedSubmit p)
    (hg : nestsSafely body p a = true) (hs : poolStep body p a = some p') : NoLockedSubmit p' := by
  cases (moves_of_poolStep hs).2 with
  | @run l t r s' t' hl hix hm =>
      intro hw
      rcases hm.asks hw with hpend | rfl
      · have hall := h hpend
        rw [hl] at hall
        refine forall_focus hall (fun _ _ hu => hu) ?_ (fun u hu => absurd hu List.not_mem_nil)
        have hself := hall t (mem_focus_self l r t)
        cases hm with
        | submit hf => exact hf.submitsLocked hw (inline_of_nestsSafely hg hix hpend rfl) hself
        | worker hf => exact hf.submitsLocked hw (inline_of_nestsSafely hg hix hpend rfl) hself
        | receive _ => simp [PoolThread.stack, submitsLocked]
        | exit _ _ => rfl
        | done => rfl
        | waiter _ => rfl
      · -- a writer asks: the condition is about everybody
        simp only [nestsSafely, hix] at hg
        rw [List.all_eq_true, hl] at hg
        refine forall_focus (L := fun u => submitsLocked u.stack = false)
          (fun u hu => by simpa using hg u hu) (fun _ _ hu => hu) ?_
          (fun u hu => absurd hu List.not_mem_nil)
        cases hm with
        | waiter _ => rfl
  | submit => exact h.snoc rfl rfl
  | wait => exact h.snoc rfl rfl

/-- **The pool never deadlocks when tasks submit tasks**, as long as no `Wait` or
`Close` asks for the lock while a task that runs inline has a `Submit` still to
make, and no such task is begun inline while one has asked.  In every state of
such a run in which a submitter, a waiter or a worker has not finished, one of the
goroutines can take a step. -/
theorem pool_never_stuck (body : ι → List (Option ι)) (n : ℕ) (p : PoolState ι)
    (h : Run (poolStep body) (nestsSafely body) (newGoroutinePool ι n) p)
    (hu : ∃ t ∈ p.threads, t.unfinished p.shared = true) :
    ∃ i q, poolStep body p (.run i) = some q := by
  have hno : NoLockedSubmit p :=
    h.invariant (I := NoLockedSubmit) nofun fun _ _ _ ih hg hs => ih.step hg hs
  exact (poolInv_of_run h).progress hno hu

/-- A task that submits another one. -/
def nestedTask : Bool → List (Option Bool)
  | true => [some false]
  | false => []

/-- One worker with a full queue: a task that submits runs inline on its submitter
and makes its `Submit` before a `Wait` asks for the lock. -/
def nestedInTime : List (PoolAction Bool) :=
  [.submit (some false), .run 1, .run 1, .run 1, .run 1,
    .submit (some true), .run 2, .run 2, .run 2, .run 2, .run 2, .wait, .run 3]

theorem pool_never_stuck_nested :
    ∃ p : PoolState Bool, p.shared.mu.writer = .pending ∧
      (∃ t ∈ p.threads, t.unfinished p.shared = true) ∧
      ∃ i q, poolStep nestedTask p (.run i) = some q := by
  obtain ⟨p, hr, hp⟩ := exists_run_of_replay (poolStep nestedTask) (nestsSafely nestedTask)
    (newGoroutinePool Bool 1)
    (fun p => decide (p.shared.mu.writer = .pending) &&
      p.threads.any fun t => t.unfinished p.shared) nestedInTime (by decide)
  obtain ⟨hw, hu⟩ := Bool.and_eq_true_iff.1 hp
  have hu : ∃ t ∈ p.threads, t.unfinished p.shared = true := List.any_eq_true.1 hu
  exact ⟨p, of_decide_eq_true hw, hu, pool_never_stuck nestedTask 1 p hr hu⟩

/-- The same, but the `Wait` asks for the lock while the inline task has its
`Submit` still to make; the worker then drains the queue. -/
def nestedTooLate : List (PoolAction Bool) :=
  [.submit (some false), .run 1, .run 1, .run 1, .run 1,
    .submit (some true), .run 2, .run 2, .run 2, .wait, .run 3, .run 2, .run 0, .run 0, .run 0]

/-- No goroutine can take a step. -/
def stuck (body : ι → List (Option ι)) (p : PoolState ι) : Bool :=
  (List.range p.threads.length).all fun i => (poolStep body p (.run i)).isNone

theorem eq_none_of_stuck (h : stuck body p = true) (i : ℕ) : poolStep body p (.run i) = none := by
  rcases Nat.lt_or_ge i p.threads.length with hi | hi
  · exact Option.isNone_iff_eq_none.1 (List.all_eq_true.1 h i (List.mem_range.2 hi))
  · simp [poolStep, Pool.step, List.getElem?_eq_none hi]

theorem pool_stuck_nested :
    ∃ p : PoolState Bool, Run (poolStep nestedTask) always (newGoroutinePool Bool 1) p ∧
      (∃ t ∈ p.threads, t.unfinished p.shared = true) ∧
      ∀ i, poolStep nestedTask p (.run i) = none := by
  obtain ⟨p, hr, hp⟩ := exists_run_of_replay (poolStep nestedTask) always (newGoroutinePool Bool 1)
    (fun p => (p.threads.any fun t => t.unfinished p.shared) && stuck nestedTask p)
    nestedTooLate (by decide)
  obtain ⟨hu, hst⟩ := Bool.and_eq_true_iff.1 hp
  exact ⟨p, hr, List.any_eq_true.1 hu, eq_none_of_stuck hst⟩

end LynxRabbit
