/-
# Every accepted task runs once, and before `Wait` returns

What the accounts of `Ledger` say about a task.  A call of `Submit` looks at
`closed` once, so its task is accepted or dropped and not both; an accepted task
is in one place, so it is begun at most once, and a dropped one never is.  Once a
`Wait` or `Close` has returned every worker is gone, the queue is empty and no
submitter runs a task, so every accepted task is among the finished ones.

For tasks that leave the pool alone the goroutines also get there.  `work` bounds
the steps they can still take, whatever the schedule, and where they cannot take
one every accepted task has run.
-/

import LynxRabbit.Goroutines.Progress

namespace LynxRabbit

open Runs

variable {ι : Type} {body : ι → List (Option ι)} {s s' : GoroutinePool ι} {p p' : PoolState ι}

/-! ### Once -/

/-- A call is accepted or dropped, once. -/
theorem PoolInv.looks_once (h : PoolInv p) (k : ℕ) :
    p.shared.accepted.countP (·.token == k) + p.shared.dropped.countP (·.token == k) ≤ 1 := by
  have hcalls := h.calls k
  unfold Account.Balanced at hcalls
  have hle : (decide (k < p.shared.calls)).toNat ≤ 1 := Bool.toNat_le _
  simp only [callAccount] at hcalls
  omega

/-- A task is begun or waits in the queue at most as often as it was accepted. -/
theorem PoolInv.started_add_queued_le (h : PoolInv p) (k : ℕ) :
    p.shared.started.count k + p.shared.workers.countP (·.real k) ≤
      p.shared.accepted.countP (·.token == k) := by
  have hruns := h.runs k
  have hplaces := h.places k
  unfold Account.Balanced at hruns hplaces
  -- a frame that runs the task also counts as a place where it is
  have hsum : (p.threads.map (runAccount k).held).sum ≤
      (p.threads.map (placeAccount k).held).sum := by
    refine List.sum_le_sum fun t _ => List.countP_mono_left fun f _ hf => ?_
    cases f with
    | run k' ts => exact hf
    | _ => cases hf
  have hreal : p.shared.accepted.countP (·.real k) ≤ p.shared.accepted.countP (·.token == k) :=
    List.countP_mono_left fun j _ hj => (Bool.and_eq_true_iff.1 hj).1
  simp only [runAccount, placeAccount] at hruns hplaces hsum
  omega

theorem PoolInv.started_le (h : PoolInv p) (k : ℕ) :
    p.shared.started.count k ≤ p.shared.accepted.countP (·.token == k) :=
  Nat.le_of_add_right_le (h.started_add_queued_le k)

theorem PoolInv.started_le_one (h : PoolInv p) (k : ℕ) : p.shared.started.count k ≤ 1 := by
  have hstarted := h.started_le k
  have honce := h.looks_once k
  omega

/-- A dropped task never runs. -/
theorem PoolInv.dropped_never (h : PoolInv p) {j : Job ι} (hj : j ∈ p.shared.dropped) :
    p.shared.started.count j.token = 0 := by
  have hpos : 0 < p.shared.dropped.countP (·.token == j.token) :=
    List.countP_pos_iff.2 ⟨j, hj, beq_self_eq_true _⟩
  have hstarted := h.started_le j.token
  have honce := h.looks_once j.token
  omega

/-- When the queue is empty and no goroutine holds or runs a task, every accepted
task was begun and finished once. -/
theorem PoolInv.all_finished (h : PoolInv p) (hq : p.shared.workers = [])
    (hidle : ∀ t ∈ p.threads, ∀ f ∈ t.stack, f.busy true = false) {j : Job ι}
    (hj : j ∈ p.shared.accepted) (ht : j.task.isSome = true) :
    p.shared.started.count j.token = 1 ∧ p.shared.finished.count j.token = 1 := by
  have hcarry : (p.threads.map (placeAccount j.token).held).sum = 0 := by
    refine List.sum_eq_zero fun x hx => ?_
    obtain ⟨t, htm, rfl⟩ := List.mem_map.1 hx
    refine List.countP_eq_zero.2 fun f hf hcar => ?_
    have := hidle t htm f hf
    cases f with
    | select _ => cases this
    | took _ => cases this
    | run _ _ => cases this
    | _ => cases hcar
  have hrun : (p.threads.map (runAccount j.token).held).sum = 0 := by
    refine List.sum_eq_zero fun x hx => ?_
    obtain ⟨t, htm, rfl⟩ := List.mem_map.1 hx
    refine List.countP_eq_zero.2 fun f hf hcar => ?_
    have := hidle t htm f hf
    cases f with
    | run _ _ => cases this
    | _ => cases hcar
  have hpos : 0 < p.shared.accepted.countP (·.real j.token) :=
    List.countP_pos_iff.2 ⟨j, hj, by simp [Job.real, ht]⟩
  have hstarted := h.started_le_one j.token
  have hplaces := h.places j.token
  have hruns := h.runs j.token
  unfold Account.Balanced at hplaces hruns
  rw [hcarry] at hplaces
  rw [hrun] at hruns
  simp only [placeAccount, runAccount, hq, List.countP_nil] at hplaces hruns
  omega

/-- The queue is empty when every worker has seen it so; without workers it always
is. -/
theorem PoolInv.queue_empty (h : PoolInv p)
    (hw : ∀ t ∈ p.threads, t.isWorker = true → p.shared.workers = []) :
    p.shared.workers = [] := by
  rcases Nat.eq_zero_or_pos p.shared.size with hz | hpos
  · have := h.room
    exact List.eq_nil_of_length_eq_zero (by omega)
  · obtain ⟨t, ht, hheld⟩ := h.allWorkers.exists_held hpos
    refine hw t ht ?_
    cases hb : t.isWorker with
    | true => rfl
    | false => simp [workerAccount, hb] at hheld

/-! ### After `Wait` -/

/-- Once a `Wait` or `Close` has returned no worker is left. -/
theorem PoolInv.not_live (h : PoolInv p) (hret : .waiter .returned ∈ p.threads)
    {t : PoolThread ι} (ht : t ∈ p.threads) : t.live = false := by
  have hle : t.live.toNat ≤ p.shared.wg := h.liveWorkers.held_le ht
  rw [(h.fits _ hret).2] at hle
  cases hb : t.live with
  | false => rfl
  | true => rw [hb] at hle; exact absurd hle (by decide)

/-- And nobody holds or runs a task. -/
theorem PoolInv.idle_of_returned (h : PoolInv p) (hret : .waiter .returned ∈ p.threads) :
    ∀ t ∈ p.threads, ∀ f ∈ t.stack, f.busy true = false := by
  intro t ht
  cases t with
  | submit fs => exact (h.fits _ ht).2 (h.closed (h.fits _ hret).1)
  | worker fs => cases h.not_live hret ht
  | _ => exact fun f hf => absurd hf List.not_mem_nil

theorem PoolInv.queue_empty_of_returned (h : PoolInv p) (hret : .waiter .returned ∈ p.threads) :
    p.shared.workers = [] := by
  refine h.queue_empty fun t ht hw => ?_
  cases t with
  | exited => exact (h.fits _ ht).2
  | worker fs => cases h.not_live hret ht
  | exiting => cases h.not_live hret ht
  | _ => cases hw

/-! ### Tasks that leave the pool alone -/

/-- The stack of a goroutine when no task submits: a call that waits for its lock
is alone on it, and so is a task that a worker has just received, and no task has a
`Submit` to make. -/
def FlatStack (fs : List (Frame ι)) : Prop :=
  (∃ j, fs = [.rlock j] ∨ fs = [.took j]) ∨ ∀ f ∈ fs, f.submits = false

theorem FlatStack.submitsLocked {fs : List (Frame ι)} (h : FlatStack fs) :
    submitsLocked fs = false := by
  rcases h with ⟨j, rfl | rfl⟩ | h
  · rfl
  · rfl
  · induction fs with
    | nil => rfl
    | cons f fs ih =>
        have hf := h f List.mem_cons_self
        have hfs := ih fun g hg => h g (List.mem_cons_of_mem _ hg)
        simp [LynxRabbit.submitsLocked, hf, hfs]

theorem Frame.Moves.flat {f : Frame ι} {new fs : List (Frame ι)} (hb : ∀ i, body i = [])
    (h : f.Moves body s s' new) (hf : FlatStack (f :: fs)) : FlatStack (new ++ fs) := by
  rcases hf with ⟨j, heq | heq⟩ | hall
  · cases heq
    cases h
    exact .inr (by simp [submits])
  · cases heq
    cases h with
    | ignore _ => exact .inr fun g hg => absurd hg List.not_mem_nil
    | start _ => exact .inr (by simp [submits, hb])
  · right
    have hfs : ∀ g ∈ fs, g.submits = false := fun g hg => hall g (List.mem_cons_of_mem _ hg)
    have hnew : ∀ g ∈ new, g.submits = false := by
      have htop := hall f List.mem_cons_self
      cases h
      case call => cases htop
      case start => cases htop
      case inline i _ _ _ => simp [submits, hb i]
      all_goals simp [submits]
    intro g hg
    rcases List.mem_append.1 hg with hg | hg
    · exact hnew g hg
    · exact hfs g hg

/-- No goroutine has a `Submit` to make inside a task. -/
def Flat (p : PoolState ι) : Prop := ∀ t ∈ p.threads, FlatStack t.stack

theorem Flat.step {a : PoolAction ι} (hb : ∀ i, body i = []) (h : Flat p)
    (hs : poolStep body p a = some p') : Flat p' := by
  cases (moves_of_poolStep hs).2 with
  | @run l t r s' t' hl _ hm =>
      unfold Flat at h
      rw [hl] at h
      refine forall_focus h (fun _ _ hu => hu) ?_ (fun u hu => absurd hu List.not_mem_nil)
      have ht := h t (mem_focus_self l r t)
      cases hm with
      | submit hf => exact hf.flat hb ht
      | worker hf => exact hf.flat hb ht
      | receive _ => exact .inl ⟨_, .inr rfl⟩
      | _ => exact .inr fun f hf => absurd hf List.not_mem_nil
  | submit =>
      intro t ht
      rcases List.mem_append.1 ht with ht | ht
      · exact h t ht
      · obtain rfl := List.mem_singleton.1 ht
        exact .inl ⟨_, .inl rfl⟩
  | wait =>
      intro t ht
      rcases List.mem_append.1 ht with ht | ht
      · exact h t ht
      · obtain rfl := List.mem_singleton.1 ht
        exact .inr fun f hf => absurd hf List.not_mem_nil

theorem flat_of_run {g : PoolState ι → PoolAction ι → Bool} {n : ℕ} (hb : ∀ i, body i = [])
    (h : Run (poolStep body) g (newGoroutinePool ι n) p) : Flat p := by
  refine h.invariant (I := Flat) (fun t ht => ?_) fun _ _ _ ih _ hs => ih.step hb hs
  obtain rfl := List.eq_of_mem_replicate ht
  exact .inr fun f hf => absurd hf List.not_mem_nil

/-! ### How many steps are left -/

/-- The steps a frame stands for. -/
def Frame.work : Frame ι → ℕ
  | .rlock _ => 8
  | .check _ => 7
  | .select _ => 6
  | .took _ => 3
  | .run _ _ => 2
  | .unlock => 1

/-- The steps a `Wait` or `Close` has left. -/
def WaitPc.work : WaitPc → ℕ
  | .lock => 7
  | .locking => 6
  | .check => 5
  | .close => 4
  | .mark => 3
  | .unlock => 2
  | .wait => 1
  | .returned => 0

/-- The steps a goroutine has left; a worker has two for its own end. -/
def PoolThread.work : PoolThread ι → ℕ
  | .submit fs => (fs.map Frame.work).sum
  | .worker fs => (fs.map Frame.work).sum + 2
  | .exiting => 1
  | .exited => 0
  | .waiter pc => pc.work

/-- The steps the goroutines have left between them, with four for a task in the
queue. -/
def work (p : PoolState ι) : ℕ :=
  4 * p.shared.workers.length + (p.threads.map PoolThread.work).sum

theorem Frame.Moves.work_lt {f : Frame ι} {new : List (Frame ι)} (h : f.Moves body s s' new)
    (hf : (∃ j, f = .rlock j ∨ f = .took j) ∨ f.submits = false) :
    4 * s'.workers.length + (new.map Frame.work).sum < 4 * s.workers.length + f.work := by
  cases h
  case call => rcases hf with ⟨j, hj | hj⟩ | hf <;> cases ‹_›
  all_goals simp [work] <;> omega

theorem PoolThread.Moves.work_lt {t t' : PoolThread ι} (h : t.Moves body s s' t')
    (ht : FlatStack t.stack) :
    4 * s'.workers.length + t'.work < 4 * s.workers.length + t.work := by
  have htop : ∀ {f : Frame ι} {fs}, t.stack = f :: fs →
      (∃ j, f = .rlock j ∨ f = .took j) ∨ f.submits = false := by
    intro f fs hst
    rw [hst] at ht
    rcases ht with ⟨j, hj⟩ | hall
    · exact .inl ⟨j, hj.imp (fun hj => (List.cons.inj hj).1) fun hj => (List.cons.inj hj).1⟩
    · exact .inr (hall f List.mem_cons_self)
  cases h with
  | submit hf =>
      have := hf.work_lt (htop rfl)
      simp only [work, List.map_append, List.map_cons, List.sum_append, List.sum_cons]
      omega
  | worker hf =>
      have := hf.work_lt (htop rfl)
      simp only [work, List.map_append, List.map_cons, List.sum_append, List.sum_cons]
      omega
  | receive hq => simp [work, hq, Frame.work]; omega
  | exit hq hc => simp [work]
  | done => simp [work]
  | waiter hw => cases hw <;> simp [work, WaitPc.work]

theorem work_lt_of_run {i : ℕ} (h : Flat p) (hs : poolStep body p (.run i) = some p') :
    work p' < work p := by
  cases (moves_of_poolStep hs).2 with
  | @run l t r s' t' hl _ hm =>
      have hlt := hm.work_lt (h t (hl ▸ mem_focus_self l r t))
      have hsum := sum_focus l r [] t t' PoolThread.work
      simp only [work, hl, List.map_nil, List.sum_nil] at hsum ⊢
      omega

/-- Only the goroutines there are take steps. -/
def goroutinesOnly (_ : PoolState ι) : PoolAction ι → Bool
  | .run _ => true
  | _ => false

/-- A schedule of the goroutines there are is no longer than their work. -/
theorem length_le_work (hb : ∀ i, body i = []) {q : PoolState ι} :
    ∀ {as : List (PoolAction ι)} {p : PoolState ι}, Flat p →
      replay (poolStep body) goroutinesOnly p as = some q → as.length ≤ work p
  | [], _, _, _ => Nat.zero_le _
  | a :: as, p, hflat, h => by
      rw [replay] at h
      split at h
      · rename_i hg
        obtain ⟨p', hs, h⟩ := Option.bind_eq_some_iff.1 h
        have ih := length_le_work hb (hflat.step hb hs) h
        cases a with
        | run i =>
            have := work_lt_of_run hflat hs
            rw [List.length_cons]
            omega
        | _ => cases hg
      · cases h

/-- Where no goroutine can take a step every accepted task has run. -/
theorem PoolInv.finished_of_stuck (h : PoolInv p) (hflat : Flat p)
    (hst : ∀ i, poolStep body p (.run i) = none) {j : Job ι} (hj : j ∈ p.shared.accepted)
    (ht : j.task.isSome = true) :
    p.shared.started.count j.token = 1 ∧ p.shared.finished.count j.token = 1 := by
  have hdone : ∀ t ∈ p.threads, t.unfinished p.shared = false := by
    intro t ht
    by_contra hu
    obtain ⟨i, q, hq⟩ : ∃ i q, poolStep body p (.run i) = some q :=
      h.progress (fun _ t ht => (hflat t ht).submitsLocked)
        ⟨t, ht, Bool.eq_true_of_not_eq_false hu⟩
    rw [hst i] at hq
    cases hq
  have hq : p.shared.workers = [] := by
    refine h.queue_empty fun t ht hw => ?_
    have hd := hdone t ht
    cases t with
    | worker fs =>
        simp only [PoolThread.unfinished, Bool.or_eq_false_iff] at hd
        simpa using hd.1.2
    | exited => exact (h.fits _ ht).2
    | exiting => cases hd
    | _ => cases hw
  refine h.all_finished hq (fun t ht => ?_) hj ht
  have hd := hdone t ht
  cases t with
  | submit fs =>
      obtain rfl : fs = [] := by simpa [PoolThread.unfinished] using hd
      exact fun f hf => absurd hf List.not_mem_nil
  | worker fs =>
      simp only [PoolThread.unfinished, Bool.or_eq_false_iff] at hd
      obtain rfl : fs = [] := by simpa using hd.1.1
      exact fun f hf => absurd hf List.not_mem_nil
  | _ => exact fun f hf => absurd hf List.not_mem_nil

/-- **Every accepted task runs exactly once, and before `Wait` returns.**  For
every size of the pool and every interleaving of calls and goroutines:

* nothing panics and the queue is closed at most once;
* a task is begun at most once, and never when its `Submit` saw `closed` true;
* when a `Wait` or `Close` has returned, every task whose `Submit` saw `closed`
  false has been begun and finished, once, and no goroutine runs a task;
* when the tasks leave the pool alone, the goroutines there are can take no more
  than `work p` steps, and where they can take none every accepted task has been
  begun and finished, once. -/
theorem tasks_run_once (body : ι → List (Option ι)) (n : ℕ) (p : PoolState ι)
    (h : Run (poolStep body) always (newGoroutinePool ι n) p) :
    p.shared.panicked = false ∧ p.shared.closes ≤ 1 ∧
    (∀ j ∈ p.shared.accepted, p.shared.started.count j.token ≤ 1) ∧
    (∀ j ∈ p.shared.dropped, p.shared.started.count j.token = 0) ∧
    (.waiter .returned ∈ p.threads →
      (∀ j ∈ p.shared.accepted, j.task.isSome = true →
        p.shared.started.count j.token = 1 ∧ p.shared.finished.count j.token = 1) ∧
      ∀ t ∈ p.threads, ∀ k rest, .run k rest ∉ t.stack) ∧
    ((∀ i, body i = []) →
      (∀ as q, replay (poolStep body) goroutinesOnly p as = some q → as.length ≤ work p) ∧
      ((∀ i, poolStep body p (.run i) = none) → ∀ j ∈ p.shared.accepted,
        j.task.isSome = true →
        p.shared.started.count j.token = 1 ∧ p.shared.finished.count j.token = 1)) := by
  have hinv := poolInv_of_run h
  refine ⟨hinv.noPanic, ?_, fun j _ => hinv.started_le_one j.token,
    fun j hj => hinv.dropped_never hj, fun hret => ⟨fun j hj ht => ?_, ?_⟩,
    fun hb => ⟨fun as q hq => ?_, fun hst j hj ht => ?_⟩⟩
  · rw [hinv.once]
    exact Bool.toNat_le _
  · exact hinv.all_finished (hinv.queue_empty_of_returned hret) (hinv.idle_of_returned hret) hj ht
  · intro t ht k rest hmem
    cases hinv.idle_of_returned hret t ht _ hmem
  · exact length_le_work hb (flat_of_run hb h) hq
  · exact hinv.finished_of_stuck (flat_of_run hb h) hst hj ht

/-- One worker: a task goes to the queue, a second runs inline, a nil one is sent,
and a fourth comes after `Wait` has returned. -/
def fourCalls : List (PoolAction Unit) :=
  [.submit (some ()), .run 1, .run 1, .run 1, .run 1,
    .submit (some ()), .run 2, .run 2, .run 2, .run 2, .run 2, .run 0, .run 0, .run 0,
    .submit none, .run 3, .run 3, .run 3, .run 3,
    .wait, .run 4, .run 4, .run 4, .run 4, .run 4, .run 4, .run 0, .run 0, .run 0, .run 0, .run 4,
    .submit (some ()), .run 5, .run 5, .run 5]

theorem tasks_run_once_four_calls :
    ∃ p : PoolState Unit, p.shared.accepted.map (·.token) = [0, 1, 2] ∧
      p.shared.dropped.map (·.token) = [3] ∧ p.shared.panicked = false ∧
      p.shared.started.count 3 = 0 ∧
      ∀ j ∈ p.shared.accepted, j.task.isSome = true → p.shared.finished.count j.token = 1 := by
  obtain ⟨p, hr, hp⟩ := exists_run_of_replay (poolStep fun _ => []) always
    (newGoroutinePool Unit 1)
    (fun p => decide (p.shared.accepted.map (·.token) = [0, 1, 2] ∧
      p.shared.dropped = [⟨3, some ()⟩] ∧ .waiter .returned ∈ p.threads)) fourCalls (by decide)
  obtain ⟨hacc, hdrop, hret⟩ := of_decide_eq_true hp
  obtain ⟨hpanic, -, -, hnever, hall, -⟩ := tasks_run_once _ 1 p hr
  exact ⟨p, hacc, by rw [hdrop]; rfl, hpanic,
    hnever ⟨3, some ()⟩ (by rw [hdrop]; exact List.mem_singleton.2 rfl),
    fun j hj ht => ((hall hret).1 j hj ht).2⟩

end LynxRabbit
