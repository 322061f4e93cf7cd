/-
# Who holds what in the goroutine pool

The invariant of the pool.  Its counting half is a set of accounts: read locks
against the frames that hold one, writers against the calls of `Wait` and `Close`
in their critical section, `wg` against the live workers, and, for each call of
`Submit`, the places its task can be in.  A task that was accepted is in exactly
one of the hands of its submitter, the queue, the hands of a worker, a goroutine that
runs it, and the finished ones.

The other half is an assertion for each goroutine, `PoolThread.Fits`.  What makes
it stable is the lock: the queue is closed while nobody holds a read lock, so no
goroutine stands between its look at `closed` and its send, and nobody runs a task
inline.
-/

import LynxRabbit.Goroutines.Pool

namespace LynxRabbit

open Runs

variable {ι : Type} {body : ι → List (Option ι)} {s s' : GoroutinePool ι} {p p' : PoolState ι}

/-! ### Accounts -/

/-- The frame holds a read lock. -/
def Frame.holds : Frame ι → Bool
  | .check _ => true
  | .select _ => true
  | .unlock => true
  | _ => false

/-- The call numbered `k` has not looked at `closed` yet. -/
def Frame.arriving (k : ℕ) : Frame ι → Bool
  | .rlock j => j.token == k
  | .check j => j.token == k
  | _ => false

/-- A task that can run, submitted by the call numbered `k`. -/
def Job.real (k : ℕ) (j : Job ι) : Bool := j.token == k && j.task.isSome

/-- The task of the call numbered `k` runs here. -/
def Frame.runs (k : ℕ) : Frame ι → Bool
  | .run k' _ => k' == k
  | _ => false

/-- The task of the call numbered `k` is in the hands of its submitter or of a worker, or
runs. -/
def Frame.carries (k : ℕ) : Frame ι → Bool
  | .select j => j.real k
  | .took j => j.real k
  | .run k' _ => k' == k
  | _ => false

/-- The frames of a goroutine. -/
def PoolThread.stack : PoolThread ι → List (Frame ι)
  | .submit fs => fs
  | .worker fs => fs
  | _ => []

/-- A worker that has not called `Done`. -/
def PoolThread.live : PoolThread ι → Bool
  | .worker _ => true
  | .exiting => true
  | _ => false

/-- A worker, gone or not. -/
def PoolThread.isWorker : PoolThread ι → Bool
  | .exited => true
  | t => t.live

/-- Between asking for the write lock and getting it. -/
def PoolThread.asking : PoolThread ι → Bool
  | .waiter .locking => true
  | _ => false

/-- Between `Lock` and `Unlock`. -/
def WaitPc.holding : WaitPc → Bool
  | .check => true
  | .close => true
  | .mark => true
  | .unlock => true
  | _ => false

/-- In the critical section of `Wait` or `Close`. -/
def PoolThread.writing : PoolThread ι → Bool
  | .waiter pc => pc.holding
  | _ => false

/-- Read locks: the lock's own count is the number of frames that hold one. -/
def readAccount : Account (GoroutinePool ι) (PoolThread ι) :=
  ⟨fun _ => 0, fun t => t.stack.countP Frame.holds, fun s => s.mu.readers⟩

/-- The writer that has asked. -/
def pendingAccount : Account (GoroutinePool ι) (PoolThread ι) :=
  ⟨fun _ => 0, fun t => t.asking.toNat, fun s => (decide (s.mu.writer = .pending)).toNat⟩

/-- The writer that is in. -/
def heldAccount : Account (GoroutinePool ι) (PoolThread ι) :=
  ⟨fun _ => 0, fun t => t.writing.toNat, fun s => (decide (s.mu.writer = .held)).toNat⟩

/-- `wg` counts the live workers. -/
def liveAccount : Account (GoroutinePool ι) (PoolThread ι) :=
  ⟨fun _ => 0, fun t => t.live.toNat, fun s => s.wg⟩

/-- There are as many workers as the pool has room for tasks. -/
def workerAccount : Account (GoroutinePool ι) (PoolThread ι) :=
  ⟨fun _ => 0, fun t => t.isWorker.toNat, fun s => s.size⟩

/-- A call looks at `closed` once. -/
def callAccount (k : ℕ) : Account (GoroutinePool ι) (PoolThread ι) :=
  ⟨fun s => s.accepted.countP (·.token == k) + s.dropped.countP (·.token == k),
    fun t => t.stack.countP (Frame.arriving k), fun s => (decide (k < s.calls)).toNat⟩

/-- Where the accepted tasks are. -/
def placeAccount (k : ℕ) : Account (GoroutinePool ι) (PoolThread ι) :=
  ⟨fun s => s.workers.countP (·.real k) + s.finished.count k,
    fun t => t.stack.countP (Frame.carries k), fun s => s.accepted.countP (·.real k)⟩

/-- What was started runs or has finished. -/
def runAccount (k : ℕ) : Account (GoroutinePool ι) (PoolThread ι) :=
  ⟨fun s => s.finished.count k, fun t => t.stack.countP (Frame.runs k), fun s => s.started.count k⟩

/-- What a step of one goroutine must satisfy to keep an account in balance. -/
def Cancels (a : Account (GoroutinePool ι) (PoolThread ι)) (s : GoroutinePool ι)
    (t : PoolThread ι) (s' : GoroutinePool ι) (t' : PoolThread ι) : Prop :=
  a.inside s' + a.held t' + a.total s = a.inside s + a.held t + a.total s'

/-- The same for the frame on top of a stack, for an account that counts frames. -/
theorem Cancels.of_frame {a : Account (GoroutinePool ι) (PoolThread ι)} {w : Frame ι → Bool}
    (hw : ∀ t, a.held t = t.stack.countP w) {t t' : PoolThread ι} {f : Frame ι}
    {fs new : List (Frame ι)} (ht : t.stack = f :: fs) (ht' : t'.stack = new ++ fs)
    (h : a.inside s' + new.countP w + a.total s = a.inside s + (w f).toNat + a.total s') :
    Cancels a s t s' t' := by
  unfold Cancels
  rw [hw, hw, ht, ht', List.countP_append, countP_cons_toNat]
  omega

/-- One more call has been made than are numbered below it. -/
theorem made_succ (k n : ℕ) :
    (decide (k < n + 1)).toNat = (decide (k < n)).toNat + (n == k).toNat := by
  rcases Nat.lt_trichotomy k n with h | rfl | h
  · rw [decide_eq_true (by omega), decide_eq_true h, beq_false_of_ne (by omega)]
    rfl
  · rw [decide_eq_true (by omega), decide_eq_false (by omega), beq_self_eq_true]
    rfl
  · rw [decide_eq_false (by omega), decide_eq_false (by omega), beq_false_of_ne (by omega)]
    rfl

theorem Frame.Moves.calls {f : Frame ι} {new : List (Frame ι)} (h : f.Moves body s s' new)
    (k : ℕ) : (callAccount k).inside s' + new.countP (Frame.arriving k) + (callAccount k).total s =
      (callAccount k).inside s + (f.arriving k).toNat + (callAccount k).total s' := by
  cases h
  case call =>
      simp only [callAccount, arriving, countP_cons_toNat, List.countP_nil, made_succ]
      simp only [Bool.toNat_false]
      omega
  all_goals simp [callAccount, arriving, countP_cons_toNat] <;> omega

theorem Frame.Moves.places {f : Frame ι} {new : List (Frame ι)} (h : f.Moves body s s' new)
    (hp : s'.panicked = false) (k : ℕ) :
    (placeAccount k).inside s' + new.countP (Frame.carries k) + (placeAccount k).total s =
      (placeAccount k).inside s + (f.carries k).toNat + (placeAccount k).total s' := by
  cases h
  case panic => cases hp
  case skip hj => simp [placeAccount, carries, Job.real, hj]
  case inline hj => simp [placeAccount, carries, Job.real, hj, countP_cons_toNat]
  case ignore hj => simp [placeAccount, carries, Job.real, hj]
  case start hj => simp [placeAccount, carries, Job.real, hj, countP_cons_toNat]
  case finish => simp [placeAccount, carries, List.count, countP_cons_toNat]; omega
  all_goals simp [placeAccount, carries, countP_cons_toNat] <;> omega

theorem Frame.Moves.runs {f : Frame ι} {new : List (Frame ι)} (h : f.Moves body s s' new) (k : ℕ) :
    (runAccount k).inside s' + new.countP (Frame.runs k) + (runAccount k).total s =
      (runAccount k).inside s + (f.runs k).toNat + (runAccount k).total s' := by
  cases h
  all_goals simp [runAccount, Frame.runs, List.count, countP_cons_toNat] <;> omega

theorem Frame.Moves.readLocks {f : Frame ι} {new : List (Frame ι)} (h : f.Moves body s s' new)
    (hheld : f.holds = true → 0 < s.mu.readers) :
    new.countP Frame.holds + s.mu.readers = (f.holds).toNat + s'.mu.readers := by
  cases h
  case lock m hm =>
      obtain ⟨-, hr, -⟩ := RWMutex.rLock_some hm
      simp [holds, countP_cons_toNat, hr]
      omega
  case unlock =>
      have := hheld rfl
      simp [holds, RWMutex.rUnlock]
      omega
  all_goals simp [holds, countP_cons_toNat]

/-- `Submit` never changes where the writers stand. -/
theorem Frame.Moves.writer {f : Frame ι} {new : List (Frame ι)} (h : f.Moves body s s' new) :
    s'.mu.writer = s.mu.writer := by
  cases h
  case lock m hm =>
      obtain ⟨hw, -, hw'⟩ := RWMutex.rLock_some hm
      exact hw'.trans hw.symm
  all_goals rfl

theorem WaitPc.Moves.readers {pc pc' : WaitPc} (h : pc.Moves s s' pc') :
    s'.mu.readers = s.mu.readers := by
  cases h
  case request m hm => exact (RWMutex.request_some hm).2.1
  case acquire m hm =>
      obtain ⟨-, hr, hr', -⟩ := RWMutex.acquire_some hm
      exact hr'.trans hr.symm
  all_goals rfl

/-! ### The assertion of each goroutine -/

/-- Every task of the stack runs inline: a read lock is held further down. -/
def covered : List (Frame ι) → Bool
  | [] => true
  | .took _ :: fs => fs.any Frame.holds && covered fs
  | .run _ _ :: fs => fs.any Frame.holds && covered fs
  | _ :: fs => covered fs

/-- What may not be on a stack once the queue is closed: a call that has seen
`closed` false, and in a submitter also a task. -/
def Frame.busy (submitter : Bool) : Frame ι → Bool
  | .select _ => true
  | .took _ => submitter
  | .run _ _ => submitter
  | _ => false

/-- What a goroutine relies on. -/
def PoolThread.Fits (s : GoroutinePool ι) : PoolThread ι → Prop
  | .submit fs => covered fs = true ∧ (s.workersClosed = true → ∀ f ∈ fs, f.busy true = false)
  | .worker fs => s.workersClosed = true → ∀ f ∈ fs, f.busy false = false
  | .exiting => s.workersClosed = true ∧ s.workers = []
  | .exited => s.workersClosed = true ∧ s.workers = []
  | .waiter .close => s.workersClosed = false
  | .waiter .mark => s.workersClosed = true
  | .waiter .unlock => s.closed = true
  | .waiter .wait => s.closed = true
  | .waiter .returned => s.closed = true ∧ s.wg = 0
  | .waiter _ => True

/-- The invariant of the pool. -/
structure PoolInv (p : PoolState ι) : Prop where
  noPanic : p.shared.panicked = false
  readLocks : readAccount.Balanced p
  pendingWriter : pendingAccount.Balanced p
  heldWriter : heldAccount.Balanced p
  liveWorkers : liveAccount.Balanced p
  allWorkers : workerAccount.Balanced p
  calls : ∀ k, (callAccount k).Balanced p
  places : ∀ k, (placeAccount k).Balanced p
  runs : ∀ k, (runAccount k).Balanced p
  room : p.shared.workers.length ≤ p.shared.size
  once : p.shared.closes = p.shared.workersClosed.toNat
  closed : p.shared.closed = true → p.shared.workersClosed = true
  marking : p.shared.workersClosed = true → p.shared.closed = true ∨ .waiter .mark ∈ p.threads
  fits : ∀ t ∈ p.threads, t.Fits p.shared

/-! ### Steps of the accounts -/

section Accounts

variable {t t' : PoolThread ι}

theorem PoolThread.Moves.calls (h : t.Moves body s s' t') (k : ℕ) :
    Cancels (callAccount k) s t s' t' := by
  cases h with
  | submit hf => exact .of_frame (fun _ => rfl) rfl rfl (hf.calls k)
  | worker hf => exact .of_frame (fun _ => rfl) rfl rfl (hf.calls k)
  | receive hq => rfl
  | exit hq hc => rfl
  | done => rfl
  | waiter hw => cases hw <;> rfl

theorem PoolThread.Moves.places (h : t.Moves body s s' t') (hp : s'.panicked = false) (k : ℕ) :
    Cancels (placeAccount k) s t s' t' := by
  cases h with
  | submit hf => exact .of_frame (fun _ => rfl) rfl rfl (hf.places hp k)
  | worker hf => exact .of_frame (fun _ => rfl) rfl rfl (hf.places hp k)
  | receive hq =>
      simp [Cancels, placeAccount, stack, hq, countP_cons_toNat, Frame.carries]
      omega
  | exit hq hc => rfl
  | done => rfl
  | waiter hw => cases hw <;> rfl

theorem PoolThread.Moves.runs (h : t.Moves body s s' t') (k : ℕ) :
    Cancels (runAccount k) s t s' t' := by
  cases h with
  | submit hf => exact .of_frame (fun _ => rfl) rfl rfl (hf.runs k)
  | worker hf => exact .of_frame (fun _ => rfl) rfl rfl (hf.runs k)
  | receive hq => rfl
  | exit hq hc => rfl
  | done => rfl
  | waiter hw => cases hw <;> rfl

theorem PoolThread.Moves.readLocks (h : t.Moves body s s' t')
    (hheld : 0 < t.stack.countP Frame.holds → 0 < s.mu.readers) :
    Cancels readAccount s t s' t' := by
  have htop : ∀ {f : Frame ι} {fs}, t.stack = f :: fs → f.holds = true → 0 < s.mu.readers := by
    intro f fs ht hf
    refine hheld (List.countP_pos_iff.2 ⟨f, ?_, hf⟩)
    rw [ht]
    exact List.mem_cons_self
  cases h with
  | submit hf =>
      have := hf.readLocks (htop rfl)
      exact .of_frame (fun _ => rfl) rfl rfl (by simp only [readAccount]; omega)
  | worker hf =>
      have := hf.readLocks (htop rfl)
      exact .of_frame (fun _ => rfl) rfl rfl (by simp only [readAccount]; omega)
  | receive hq => rfl
  | exit hq hc => rfl
  | done => rfl
  | waiter hw => simp [Cancels, readAccount, stack, hw.readers]

/-- The two accounts of the writers: asking, getting the lock and leaving it move
one writer on. -/
theorem PoolThread.Moves.writers (h : t.Moves body s s' t')
    (hheld : t.writing = true → s.mu.writer = .held) :
    Cancels pendingAccount s t s' t' ∧ Cancels heldAccount s t s' t' := by
  cases h with
  | submit hf => exact ⟨by simp [Cancels, pendingAccount, asking, hf.writer],
      by simp [Cancels, heldAccount, writing, hf.writer]⟩
  | worker hf => exact ⟨by simp [Cancels, pendingAccount, asking, hf.writer],
      by simp [Cancels, heldAccount, writing, hf.writer]⟩
  | receive hq => exact ⟨rfl, rfl⟩
  | exit hq hc => exact ⟨rfl, rfl⟩
  | done => exact ⟨rfl, rfl⟩
  | waiter hw =>
      cases hw with
      | request hm =>
          obtain ⟨hw, -, hw'⟩ := RWMutex.request_some hm
          exact ⟨by simp [Cancels, pendingAccount, asking, hw, hw'],
            by simp [Cancels, heldAccount, writing, WaitPc.holding, hw, hw']⟩
      | acquire hm =>
          obtain ⟨hw, -, -, hw'⟩ := RWMutex.acquire_some hm
          exact ⟨by simp [Cancels, pendingAccount, asking, hw, hw'],
            by simp [Cancels, heldAccount, writing, WaitPc.holding, hw, hw']⟩
      | unlock =>
          have hw := hheld rfl
          exact ⟨by simp [Cancels, pendingAccount, asking, hw, RWMutex.unlock],
            by simp [Cancels, heldAccount, writing, WaitPc.holding, hw, RWMutex.unlock]⟩
      | isClosed _ => exact ⟨rfl, rfl⟩
      | isOpen _ => exact ⟨rfl, rfl⟩
      | panic _ => exact ⟨rfl, rfl⟩
      | close _ => exact ⟨rfl, rfl⟩
      | mark => exact ⟨rfl, rfl⟩
      | wait _ => exact ⟨rfl, rfl⟩

/-- `wg` and the number of workers. -/
theorem PoolThread.Moves.workers (h : t.Moves body s s' t') (hlive : t.live = true → 0 < s.wg) :
    Cancels liveAccount s t s' t' ∧ Cancels workerAccount s t s' t' := by
  cases h with
  | submit hf => cases hf <;> exact ⟨rfl, rfl⟩
  | worker hf => cases hf <;> exact ⟨rfl, rfl⟩
  | receive hq => exact ⟨rfl, rfl⟩
  | exit hq hc => exact ⟨rfl, rfl⟩
  | done =>
      have := hlive rfl
      refine ⟨?_, rfl⟩
      simp only [Cancels, liveAccount, live, Bool.toNat_false, Bool.toNat_true]
      omega
  | waiter hw => cases hw <;> exact ⟨rfl, rfl⟩

end Accounts

/-! ### Steps of the assertions -/

/-- What a step never takes back: the queue stays closed, and empty once it is
both; `closed` stays set; `wg` only falls. -/
structure Later (s s' : GoroutinePool ι) : Prop where
  workersClosed : s.workersClosed = true → s'.workersClosed = true
  closed : s.closed = true → s'.closed = true
  drained : s.workersClosed = true → s.workers = [] → s'.workers = []
  wg : s'.wg ≤ s.wg

theorem Frame.Moves.later {f : Frame ι} {new : List (Frame ι)} (h : f.Moves body s s' new) :
    Later s s' ∧ s'.workersClosed = s.workersClosed ∧ s'.closed = s.closed := by
  cases h
  case send hc _ => exact ⟨⟨id, id, fun h => (by rw [hc] at h; cases h), Nat.le_refl _⟩, rfl, rfl⟩
  all_goals exact ⟨⟨id, id, fun _ => id, Nat.le_refl _⟩, rfl, rfl⟩

theorem PoolThread.Moves.later {t t' : PoolThread ι} (h : t.Moves body s s' t') : Later s s' := by
  cases h with
  | submit hf => exact hf.later.1
  | worker hf => exact hf.later.1
  | receive hq => exact ⟨id, id, fun _ h => (by rw [hq] at h; cases h), Nat.le_refl _⟩
  | exit hq hc => exact ⟨id, id, fun _ => id, Nat.le_refl _⟩
  | done => exact ⟨id, id, fun _ => id, Nat.sub_le _ _⟩
  | waiter hw =>
      cases hw with
      | close hc => exact ⟨fun _ => rfl, id, fun _ => id, Nat.le_refl _⟩
      | mark => exact ⟨id, fun _ => rfl, fun _ => id, Nat.le_refl _⟩
      | _ => exact ⟨id, id, fun _ => id, Nat.le_refl _⟩

/-- Only one step closes the queue. -/
theorem PoolThread.Moves.closes {t t' : PoolThread ι} (h : t.Moves body s s' t') :
    s'.workersClosed = s.workersClosed ∨ t = .waiter .close := by
  cases h with
  | submit hf => exact .inl hf.later.2.1
  | worker hf => exact .inl hf.later.2.1
  | waiter hw =>
      cases hw with
      | close hc => exact .inr rfl
      | _ => exact .inl rfl
  | _ => exact .inl rfl

/-- Without a read lock nothing on a stack of inline tasks is busy. -/
theorem not_busy_of_covered : ∀ {fs : List (Frame ι)}, covered fs = true →
    fs.countP Frame.holds = 0 → ∀ f ∈ fs, f.busy true = false
  | [], _, _ => nofun
  | f :: fs, hc, hz => by
      have hzs : fs.countP Frame.holds = 0 := by
        rw [countP_cons_toNat] at hz
        omega
      have hnone : f.holds = false := by simpa using List.countP_eq_zero.1 hz f List.mem_cons_self
      have hrest : fs.any Frame.holds = false := by
        simpa using List.countP_eq_zero.1 hzs
      refine List.forall_mem_cons.2 ⟨?_, ?_⟩
      · cases f with
        | select j => cases hnone
        | took j => simp [covered, hrest] at hc
        | run k ts => simp [covered, hrest] at hc
        | _ => rfl
      · refine not_busy_of_covered ?_ hzs
        cases f with
        | took j => exact (Bool.and_eq_true_iff.1 hc).2
        | run k ts => exact (Bool.and_eq_true_iff.1 hc).2
        | _ => exact hc

theorem not_busy_of_holds {fs : List (Frame ι)} (hz : fs.countP Frame.holds = 0) :
    ∀ f ∈ fs, f.busy false = false := by
  intro f hf
  have hnone : f.holds = false := by simpa using List.countP_eq_zero.1 hz f hf
  cases f with
  | select j => cases hnone
  | _ => rfl

/-- **The assertions do not interfere.**  A step of one goroutine leaves the
assertion of another alone; the one that closes the queue does so because nobody
holds a read lock and nobody else is about to close it. -/
theorem PoolThread.Fits.other {t t' u : PoolThread ι} (hu : u.Fits s) (hm : t.Moves body s s' t')
    (hclose : t = .waiter .close → u.stack.countP Frame.holds = 0 ∧ u.writing = false) :
    u.Fits s' := by
  have hl := hm.later
  cases u with
  | submit fs =>
      refine ⟨hu.1, fun hc => ?_⟩
      rcases hm.closes with heq | ht
      · exact hu.2 (heq ▸ hc)
      · exact not_busy_of_covered hu.1 (hclose ht).1
  | worker fs =>
      intro hc
      rcases hm.closes with heq | ht
      · exact hu (heq ▸ hc)
      · exact not_busy_of_holds (hclose ht).1
  | exiting => exact ⟨hl.workersClosed hu.1, hl.drained hu.1 hu.2⟩
  | exited => exact ⟨hl.workersClosed hu.1, hl.drained hu.1 hu.2⟩
  | waiter pc =>
      cases pc with
      | close =>
          rcases hm.closes with heq | ht
          · exact heq.trans hu
          · cases (hclose ht).2
      | mark => exact hl.workersClosed hu
      | unlock => exact hl.closed hu
      | wait => exact hl.closed hu
      | returned =>
          have := hl.wg
          exact ⟨hl.closed hu.1, by have := hu.2; omega⟩
      | _ => trivial

theorem Frame.Moves.covered {f : Frame ι} {new fs : List (Frame ι)} (h : f.Moves body s s' new)
    (hc : covered (f :: fs) = true) : covered (new ++ fs) = true := by
  cases h
  case ignore => exact (Bool.and_eq_true_iff.1 hc).2
  case finish => exact (Bool.and_eq_true_iff.1 hc).2
  case inline => simpa [LynxRabbit.covered, holds] using hc
  all_goals exact hc

/-- A frame becomes busy only by seeing `closed` false or by a queue that is open. -/
theorem Frame.Moves.not_busy {f : Frame ι} {new fs : List (Frame ι)} {b : Bool}
    (h : f.Moves body s s' new)
    (hopen : f.holds = true → s.workersClosed = true → s.closed = true)
    (hb : s.workersClosed = true → ∀ g ∈ f :: fs, g.busy b = false) :
    s'.workersClosed = true → ∀ g ∈ new ++ fs, g.busy b = false := by
  intro hc
  rw [h.later.2.1] at hc
  have hfs : ∀ g ∈ fs, g.busy b = false := fun g hg => hb hc g (List.mem_cons_of_mem _ hg)
  have hnew : ∀ g ∈ new, g.busy b = false := by
    cases h
    case accept h => rw [hopen rfl hc] at h; cases h
    case inline h _ _ => rw [hc] at h; cases h
    case start =>
        have := hb hc _ List.mem_cons_self
        simpa [busy] using this
    case call =>
        have := hb hc _ List.mem_cons_self
        simpa [busy] using this
    all_goals simp [busy]
  intro g hg
  rcases List.mem_append.1 hg with hg | hg
  · exact hnew g hg
  · exact hfs g hg

/-- The assertion of the goroutine that moved. -/
theorem PoolThread.Fits.self {t t' : PoolThread ι} (ht : t.Fits s) (hm : t.Moves body s s' t')
    (hopen : 0 < t.stack.countP Frame.holds → s.workersClosed = true → s.closed = true)
    (hfree : t = .waiter .check → s.workersClosed = true → s.closed = true) : t'.Fits s' := by
  have htop : ∀ {f : Frame ι} {fs}, t.stack = f :: fs → f.holds = true →
      s.workersClosed = true → s.closed = true := by
    intro f fs hs hf
    refine hopen (List.countP_pos_iff.2 ⟨f, ?_, hf⟩)
    rw [hs]
    exact List.mem_cons_self
  cases hm with
  | submit hf => exact ⟨hf.covered ht.1, hf.not_busy (htop rfl) ht.2⟩
  | worker hf => exact hf.not_busy (htop rfl) ht
  | receive hq => exact fun _ => by simp [Frame.busy]
  | exit hq hc => exact ⟨hc, hq⟩
  | done => exact ht
  | waiter hw =>
      cases hw with
      | request _ => trivial
      | acquire _ => trivial
      | isClosed hc => exact hc
      | isOpen hc =>
          show s.workersClosed = false
          by_contra hne
          rw [hfree rfl (by simpa using hne)] at hc
          cases hc
      | panic hc => exact hc
      | close hc => rfl
      | mark => rfl
      | unlock => exact ht
      | wait hz => exact ⟨ht, hz⟩

/-! ### The invariant -/

section Invariant

variable {l r : List (PoolThread ι)} {t t' : PoolThread ι}

/-- A goroutine in its critical section holds the lock. -/
theorem PoolInv.held (h : PoolInv p) (ht : t ∈ p.threads) (hw : t.writing = true) :
    p.shared.mu.writer = .held := by
  have hle : t.writing.toNat ≤ (decide (p.shared.mu.writer = .held)).toNat :=
    h.heldWriter.held_le ht
  rw [hw] at hle
  by_contra hne
  rw [decide_eq_false hne] at hle
  exact absurd hle (by decide)

theorem PoolInv.readers (h : PoolInv p) (ht : t ∈ p.threads) :
    t.stack.countP Frame.holds ≤ p.shared.mu.readers :=
  h.readLocks.held_le ht

/-- While a read lock is held the two marks of the closed pool agree. -/
theorem PoolInv.closed_of_readers (h : PoolInv p) (hr : 0 < p.shared.mu.readers)
    (hc : p.shared.workersClosed = true) : p.shared.closed = true := by
  rcases h.marking hc with hcl | hmark
  · exact hcl
  · exact absurd (h.held hmark rfl) (RWMutex.not_held_of_readers hr)

/-- The goroutine in the critical section is the only one there. -/
theorem PoolInv.alone (h : PoolInv p) (hl : p.threads = l ++ t :: r) (hw : t.writing = true)
    {u : PoolThread ι} (hu : u ∈ l ++ r) : u.writing = false := by
  have hz : u.writing.toNat = 0 := by
    refine h.heldWriter.others hl ?_ hu
    show (decide (p.shared.mu.writer = .held)).toNat ≤ t.writing.toNat
    rw [hw]
    exact Bool.toNat_le _
  simpa using hz

/-- Nobody panics: no send finds the queue closed, and no close does. -/
theorem PoolInv.noPanic_step (h : PoolInv p) (ht : t ∈ p.threads)
    (hm : t.Moves body p.shared s' t') : s'.panicked = false := by
  have hfits := h.fits t ht
  have hframe : ∀ {f : Frame ι} {new}, f.Moves body p.shared s' new →
      (p.shared.workersClosed = true → ∀ j, f ≠ .select j) → s'.panicked = false := by
    intro f new hf hsel
    cases hf
    case panic j hc => exact absurd rfl (hsel hc j)
    all_goals exact h.noPanic
  cases hm with
  | submit hf =>
      refine hframe hf fun hc j hj => ?_
      have := hfits.2 hc _ List.mem_cons_self
      rw [hj] at this
      cases this
  | worker hf =>
      refine hframe hf fun hc j hj => ?_
      have := hfits hc _ List.mem_cons_self
      rw [hj] at this
      cases this
  | waiter hw =>
      cases hw with
      | panic hc => rw [show p.shared.workersClosed = false from hfits] at hc; cases hc
      | _ => exact h.noPanic
  | _ => exact h.noPanic

theorem PoolThread.Moves.room (hm : t.Moves body s s' t') (h : s.workers.length ≤ s.size) :
    s'.workers.length ≤ s'.size := by
  have hframe : ∀ {f : Frame ι} {new}, f.Moves body s s' new → s'.workers.length ≤ s'.size := by
    intro f new hf
    cases hf
    case send _ hlt => rw [List.length_append]; exact hlt
    all_goals exact h
  cases hm with
  | submit hf => exact hframe hf
  | worker hf => exact hframe hf
  | receive hq => rw [hq, List.length_cons] at h; exact Nat.le_of_succ_le h
  | waiter hw => cases hw <;> exact h
  | _ => exact h

theorem PoolThread.Moves.once (hm : t.Moves body s s' t') (hp : s'.panicked = false)
    (h : s.closes = s.workersClosed.toNat) : s'.closes = s'.workersClosed.toNat := by
  cases hm with
  | submit hf => cases hf <;> exact h
  | worker hf => cases hf <;> exact h
  | waiter hw =>
      cases hw with
      | close hc => rw [hc] at h; show s.closes + 1 = 1; rw [h]; rfl
      | _ => exact h
  | _ => exact h

theorem PoolThread.Moves.closed (hm : t.Moves body s s' t') (ht : t.Fits s)
    (h : s.closed = true → s.workersClosed = true) :
    s'.closed = true → s'.workersClosed = true := by
  intro hc
  cases hm with
  | submit hf => rw [hf.later.2.2] at hc; rw [hf.later.2.1]; exact h hc
  | worker hf => rw [hf.later.2.2] at hc; rw [hf.later.2.1]; exact h hc
  | waiter hw =>
      cases hw with
      | close _ => rfl
      | mark => exact ht
      | _ => exact h hc
  | _ => exact h hc

theorem PoolInv.marking_step (h : PoolInv p) (hl : p.threads = l ++ t :: r)
    (hm : t.Moves body p.shared s' t') (hc : s'.workersClosed = true) :
    s'.closed = true ∨ .waiter .mark ∈ l ++ t' :: r ++ [] := by
  rcases hm.closes with heq | rfl
  · rcases h.marking (heq ▸ hc) with hcl | hmark
    · exact .inl (hm.later.closed hcl)
    · rw [hl] at hmark
      rcases eq_or_mem_others hmark with rfl | hother
      · cases hm with
        | waiter hw => cases hw; exact .inl rfl
      · exact .inr (mem_focus_of_others hother t' [])
  · cases hm with
    | waiter hw => cases hw <;> exact .inr (mem_focus_moved l r _ [])

/-- **One step of a goroutine keeps the invariant.** -/
theorem PoolInv.run (h : PoolInv p) (hl : p.threads = l ++ t :: r)
    (hm : t.Moves body p.shared s' t') : PoolInv ⟨s', l ++ t' :: r ++ []⟩ := by
  have ht : t ∈ p.threads := hl ▸ mem_focus_self l r t
  have hp := h.noPanic_step ht hm
  have hfits := h.fits t ht
  have hwriters := hm.writers (h.held ht)
  have hworkers := hm.workers fun hlive => by
    have : t.live.toNat ≤ p.shared.wg := h.liveWorkers.held_le ht
    rw [hlive] at this
    exact this
  have hopen : 0 < t.stack.countP Frame.holds → p.shared.workersClosed = true →
      p.shared.closed = true :=
    fun hpos => h.closed_of_readers (Nat.lt_of_lt_of_le hpos (h.readers ht))
  have hfree : t = .waiter .check → p.shared.workersClosed = true → p.shared.closed = true := by
    rintro rfl hc
    rcases h.marking hc with hcl | hmark
    · exact hcl
    · rw [hl] at hmark
      rcases eq_or_mem_others hmark with heq | hother
      · cases heq
      · cases h.alone hl rfl hother
  have hclose : ∀ u ∈ l ++ r, t = .waiter .close →
      u.stack.countP Frame.holds = 0 ∧ u.writing = false := by
    rintro u hu rfl
    have hr := h.readers (hl ▸ mem_of_mem_others hu _)
    rw [p.shared.mu.excl (h.held ht rfl)] at hr
    exact ⟨Nat.le_zero.1 hr, h.alone hl rfl hu⟩
  have hbal : ∀ {a : Account (GoroutinePool ι) (PoolThread ι)}, a.Balanced p →
      Cancels a p.shared t s' t' → a.Balanced ⟨s', l ++ t' :: r ++ []⟩ := by
    intro a ha hc
    exact ha.focus hl (by unfold Cancels at hc; simpa using hc)
  exact {
    noPanic := hp
    readLocks := hbal h.readLocks
      (hm.readLocks fun hpos => Nat.lt_of_lt_of_le hpos (h.readers ht))
    pendingWriter := hbal h.pendingWriter hwriters.1
    heldWriter := hbal h.heldWriter hwriters.2
    liveWorkers := hbal h.liveWorkers hworkers.1
    allWorkers := hbal h.allWorkers hworkers.2
    calls := fun k => hbal (h.calls k) (hm.calls k)
    places := fun k => hbal (h.places k) (hm.places hp k)
    runs := fun k => hbal (h.runs k) (hm.runs k)
    room := hm.room h.room
    once := hm.once hp h.once
    closed := hm.closed hfits h.closed
    marking := h.marking_step hl hm
    fits := forall_focus (hl ▸ h.fits) (fun u hu hL => hL.other hm (hclose u hu))
      (hfits.self hm hopen hfree) (fun u hu => absurd hu List.not_mem_nil) }

/-- A new call keeps the invariant: it holds nothing but its own number. -/
theorem PoolInv.snoc (h : PoolInv p) {n : ℕ} (hfits : t.Fits p.shared)
    (hholds : t.stack.countP Frame.holds = 0) (hasking : t.asking = false)
    (hwriting : t.writing = false) (hworker : t.isWorker = false)
    (harr : ∀ k, t.stack.countP (Frame.arriving k) + (decide (k < p.shared.calls)).toNat =
      (decide (k < n)).toNat)
    (hcarry : ∀ k, t.stack.countP (Frame.carries k) = 0)
    (hruns : ∀ k, t.stack.countP (Frame.runs k) = 0) :
    PoolInv ⟨{ p.shared with calls := n }, p.threads ++ [t]⟩ := by
  have hlive : t.live = false := by cases t <;> first | rfl | cases hworker
  exact {
    noPanic := h.noPanic
    readLocks := h.readLocks.snoc (by simp [readAccount, hholds])
    pendingWriter := h.pendingWriter.snoc (by simp [pendingAccount, hasking])
    heldWriter := h.heldWriter.snoc (by simp [heldAccount, hwriting])
    liveWorkers := h.liveWorkers.snoc (by simp [liveAccount, hlive])
    allWorkers := h.allWorkers.snoc (by simp [workerAccount, hworker])
    calls := fun k => (h.calls k).snoc (by have := harr k; simp only [callAccount]; omega)
    places := fun k => (h.places k).snoc (by simp [placeAccount, hcarry])
    runs := fun k => (h.runs k).snoc (by simp [runAccount, hruns])
    room := h.room
    once := h.once
    closed := h.closed
    marking := fun hc => (h.marking hc).imp id (List.mem_append_left _)
    fits := by
      intro u hu
      rcases List.mem_append.1 hu with hu | hu
      · exact (h.fits u hu)
      · obtain rfl := List.mem_singleton.1 hu
        exact hfits }

/-- **Every step of the system keeps the invariant.** -/
theorem PoolInv.step {a : PoolAction ι} (h : PoolInv p) (hs : poolStep body p a = some p') :
    PoolInv p' := by
  cases (moves_of_poolStep hs).2 with
  | run hl _ hm => exact h.run hl hm
  | submit =>
      refine h.snoc ⟨rfl, fun _ => by simp [Frame.busy]⟩ rfl rfl rfl rfl (fun k => ?_)
        (fun _ => rfl) (fun _ => rfl)
      rw [made_succ, PoolThread.stack, countP_cons_toNat, List.countP_nil]
      simp only [Frame.arriving]
      omega
  | wait =>
      exact h.snoc (n := p.shared.calls) trivial rfl rfl rfl rfl (fun k => Nat.zero_add _)
        (fun _ => rfl) (fun _ => rfl)

theorem PoolInv.init (n : ℕ) : PoolInv (newGoroutinePool ι n) := by
  have hsum : ∀ (f : PoolThread ι → ℕ), ((newGoroutinePool ι n).threads.map f).sum =
      n * f (.worker []) := by
    intro f
    simp [newGoroutinePool]
  have hzero : ∀ {a : Account (GoroutinePool ι) (PoolThread ι)}, a.held (.worker []) = 0 →
      a.inside (newGoroutinePool ι n).shared = a.total (newGoroutinePool ι n).shared →
      a.Balanced (newGoroutinePool ι n) := by
    intro a ha heq
    unfold Account.Balanced
    rw [hsum, ha, heq]
    rfl
  have hone : ∀ {a : Account (GoroutinePool ι) (PoolThread ι)}, a.held (.worker []) = 1 →
      a.inside (newGoroutinePool ι n).shared = 0 → a.total (newGoroutinePool ι n).shared = n →
      a.Balanced (newGoroutinePool ι n) := by
    intro a ha hin htot
    unfold Account.Balanced
    rw [hsum, ha, hin, htot]
    omega
  exact {
    noPanic := rfl
    readLocks := hzero rfl rfl
    pendingWriter := hzero rfl rfl
    heldWriter := hzero rfl rfl
    liveWorkers := hone rfl rfl rfl
    allWorkers := hone rfl rfl rfl
    calls := fun k => hzero rfl (by simp [callAccount, newGoroutinePool])
    places := fun k => hzero rfl rfl
    runs := fun k => hzero rfl rfl
    room := Nat.zero_le _
    once := rfl
    closed := nofun
    marking := nofun
    fits := fun t ht => by
      obtain rfl := List.eq_of_mem_replicate ht
      exact fun _ => nofun }

theorem poolInv_of_run {g : PoolState ι → PoolAction ι → Bool} {n : ℕ}
    (h : Run (poolStep body) g (newGoroutinePool ι n) p) : PoolInv p :=
  h.invariant (PoolInv.init n) fun _ _ _ ih _ hs => ih.step hs

end Invariant

end LynxRabbit
