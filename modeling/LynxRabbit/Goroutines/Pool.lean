/-
# The goroutine pool

`GoroutinePool` of `pool.go`: `NewGoroutinePool`, `worker`, `Submit`, `Wait` and
`Close`, one atomic step at a time.

A task is a function, by its name in `ι`, or nil; what it does with the pool is
the list of the tasks it submits, `body`.  A goroutine that submits is a stack of
frames.  `Submit` is the frames `rlock`, `check`, `select` and `unlock`, the last
being the deferred `RUnlock`: a task that runs inline is a `run` frame on top of
the `unlock` frame of the call that runs it, and a `Submit` it makes is on top of
that.  A worker takes a task out of the channel in one step, which leaves it with a
`took` frame, and looks at it and begins it in another.  A send is ready when the
buffer has room; a pool of size zero has no worker, so there it never is.

The fields from `calls` on are the history: they number the calls of `Submit` and
record which saw `closed` false or true, and which tasks were begun and finished.
Nothing reads them.
-/

import LynxRabbit.Runs.Account
import LynxRabbit.Runs.Machine
import LynxRabbit.Runs.RWMutex

namespace LynxRabbit

open Runs

/-- A call of `Submit`: its number, and its argument, `none` for nil. -/
structure Job (ι : Type) where
  token : ℕ
  task : Option ι
deriving DecidableEq, Repr

/-- `GoroutinePool`; `size` is the capacity of the `workers` channel. -/
structure GoroutinePool (ι : Type) where
  size : ℕ
  workers : List (Job ι) := []
  workersClosed : Bool := false
  wg : ℕ
  closed : Bool := false
  mu : RWMutex := RWMutex.unlocked
  panicked : Bool := false
  calls : ℕ := 0
  closes : ℕ := 0
  accepted : List (Job ι) := []
  dropped : List (Job ι) := []
  started : List ℕ := []
  finished : List ℕ := []

/-- A frame of a goroutine that submits or runs tasks. -/
inductive Frame (ι : Type)
  | rlock (j : Job ι)
  | check (j : Job ι)
  | select (j : Job ι)
  | took (j : Job ι)
  | run (token : ℕ) (rest : List (Option ι))
  | unlock
deriving DecidableEq, Repr

variable {ι : Type}

/-- One atomic step of the frame on top, and the frames in its place. -/
def Frame.step (body : ι → List (Option ι)) (s : GoroutinePool ι) :
    Frame ι → Option (GoroutinePool ι × List (Frame ι))
  | .rlock j => s.mu.rLock.map fun m => ({ s with mu := m }, [.check j])
  | .check j =>
    if s.closed then some ({ s with dropped := s.dropped ++ [j] }, [.unlock])
    else some ({ s with accepted := s.accepted ++ [j] }, [.select j])
  | .select j =>
    -- a send on a closed channel panics, also in a select with a default
    if s.workersClosed then some ({ s with panicked := true }, [.unlock])
    else if s.workers.length < s.size then
      some ({ s with workers := s.workers ++ [j] }, [.unlock])
    else match j.task with
      | none => some (s, [.unlock])
      | some i =>
        some ({ s with started := s.started ++ [j.token] }, [.run j.token (body i), .unlock])
  | .took j =>
    match j.task with
    | none => some (s, [])
    | some i => some ({ s with started := s.started ++ [j.token] }, [.run j.token (body i)])
  | .run k (t :: ts) => some ({ s with calls := s.calls + 1 }, [.rlock ⟨s.calls, t⟩, .run k ts])
  | .run k [] => some ({ s with finished := s.finished ++ [k] }, [])
  | .unlock => some ({ s with mu := s.mu.rUnlock }, [])

/-- Where a `Wait` or a `Close` stands; their bodies are the same. -/
inductive WaitPc
  | lock
  | locking
  | check
  | close
  | mark
  | unlock
  | wait
  | returned
deriving DecidableEq, Repr

/-- One atomic step of `Wait` or `Close`. -/
def WaitPc.step (s : GoroutinePool ι) : WaitPc → Option (GoroutinePool ι × WaitPc)
  | .lock => s.mu.request.map fun m => ({ s with mu := m }, .locking)
  | .locking => s.mu.acquire.map fun m => ({ s with mu := m }, .check)
  | .check => if s.closed then some (s, .unlock) else some (s, .close)
  | .close =>
    if s.workersClosed then some ({ s with panicked := true }, .mark)
    else some ({ s with workersClosed := true, closes := s.closes + 1 }, .mark)
  | .mark => some ({ s with closed := true }, .unlock)
  | .unlock => some ({ s with mu := s.mu.unlock }, .wait)
  | .wait => if s.wg = 0 then some (s, .returned) else none
  | .returned => none

/-- A goroutine: one in a call of `Submit`, a worker (in its `range` when the stack
is empty, then in its deferred `Done`, then gone), or one in `Wait` or `Close`. -/
inductive PoolThread (ι : Type)
  | submit (stack : List (Frame ι))
  | worker (stack : List (Frame ι))
  | exiting
  | exited
  | waiter (pc : WaitPc)
deriving DecidableEq, Repr

/-- One atomic step of a goroutine. -/
def PoolThread.step (body : ι → List (Option ι)) (s : GoroutinePool ι) :
    PoolThread ι → Option (GoroutinePool ι × PoolThread ι)
  | .submit [] => none
  | .submit (f :: fs) => (f.step body s).map fun q => (q.1, .submit (q.2 ++ fs))
  | .worker (f :: fs) => (f.step body s).map fun q => (q.1, .worker (q.2 ++ fs))
  | .worker [] =>
    match s.workers with
    | j :: js => some ({ s with workers := js }, .worker [.took j])
    | [] => if s.workersClosed then some (s, .exiting) else none
  | .exiting => some ({ s with wg := s.wg - 1 }, .exited)
  | .exited => none
  | .waiter pc => (pc.step s).map fun q => (q.1, .waiter q.2)

/-- What can happen next: a goroutine takes a step, or somebody calls `Submit`, or
`Wait` or `Close`. -/
inductive PoolAction (ι : Type)
  | run (i : ℕ)
  | submit (t : Option ι)
  | wait
deriving DecidableEq, Repr

/-- The pool and the goroutines around it. -/
abbrev PoolState (ι : Type) := Pool (GoroutinePool ι) (PoolThread ι)

/-- A step of the system; after a panic the process is gone. -/
def poolStep (body : ι → List (Option ι)) (p : PoolState ι) : PoolAction ι → Option (PoolState ι)
  | a => if p.shared.panicked then none
    else match a with
      | .run i => p.step (fun s t (_ : Unit) => (t.step body s).map fun q => (q.1, q.2, [])) i ()
      | .submit t =>
        some ⟨{ p.shared with calls := p.shared.calls + 1 },
          p.threads ++ [.submit [.rlock ⟨p.shared.calls, t⟩]]⟩
      | .wait => some ⟨p.shared, p.threads ++ [.waiter .lock]⟩

/-- `NewGoroutinePool`: as many workers as the channel has room for tasks. -/
def newGoroutinePool (ι : Type) (size : ℕ) : PoolState ι :=
  ⟨{ size := size, wg := size }, List.replicate size (.worker [])⟩

/-! ### What a step can do -/

/-- The steps of a frame, one constructor for each thing `Submit` or a task does. -/
inductive Frame.Moves (body : ι → List (Option ι)) (s : GoroutinePool ι) :
    Frame ι → GoroutinePool ι → List (Frame ι) → Prop
  | lock {j m} : s.mu.rLock = some m → Moves body s (.rlock j) { s with mu := m } [.check j]
  | drop {j} : s.closed = true →
      Moves body s (.check j) { s with dropped := s.dropped ++ [j] } [.unlock]
  | accept {j} : s.closed = false →
      Moves body s (.check j) { s with accepted := s.accepted ++ [j] } [.select j]
  | panic {j} : s.workersClosed = true →
      Moves body s (.select j) { s with panicked := true } [.unlock]
  | send {j} : s.workersClosed = false → s.workers.length < s.size →
      Moves body s (.select j) { s with workers := s.workers ++ [j] } [.unlock]
  | skip {j} : s.workersClosed = false → ¬ s.workers.length < s.size → j.task = none →
      Moves body s (.select j) s [.unlock]
  | inline {j i} : s.workersClosed = false → ¬ s.workers.length < s.size → j.task = some i →
      Moves body s (.select j) { s with started := s.started ++ [j.token] }
        [.run j.token (body i), .unlock]
  | ignore {j} : j.task = none → Moves body s (.took j) s []
  | start {j i} : j.task = some i →
      Moves body s (.took j) { s with started := s.started ++ [j.token] } [.run j.token (body i)]
  | call {k t ts} : Moves body s (.run k (t :: ts)) { s with calls := s.calls + 1 }
      [.rlock ⟨s.calls, t⟩, .run k ts]
  | finish {k} : Moves body s (.run k []) { s with finished := s.finished ++ [k] } []
  | unlock : Moves body s .unlock { s with mu := s.mu.rUnlock } []

/-- The steps of `Wait` and `Close`. -/
inductive WaitPc.Moves (s : GoroutinePool ι) : WaitPc → GoroutinePool ι → WaitPc → Prop
  | request {m} : s.mu.request = some m → Moves s .lock { s with mu := m } .locking
  | acquire {m} : s.mu.acquire = some m → Moves s .locking { s with mu := m } .check
  | isClosed : s.closed = true → Moves s .check s .unlock
  | isOpen : s.closed = false → Moves s .check s .close
  | panic : s.workersClosed = true → Moves s .close { s with panicked := true } .mark
  | close : s.workersClosed = false →
      Moves s .close { s with workersClosed := true, closes := s.closes + 1 } .mark
  | mark : Moves s .mark { s with closed := true } .unlock
  | unlock : Moves s .unlock { s with mu := s.mu.unlock } .wait
  | wait : s.wg = 0 → Moves s .wait s .returned

/-- The steps of a goroutine. -/
inductive PoolThread.Moves (body : ι → List (Option ι)) (s : GoroutinePool ι) :
    PoolThread ι → GoroutinePool ι → PoolThread ι → Prop
  | submit {f fs s' new} : Frame.Moves body s f s' new →
      Moves body s (.submit (f :: fs)) s' (.submit (new ++ fs))
  | worker {f fs s' new} : Frame.Moves body s f s' new →
      Moves body s (.worker (f :: fs)) s' (.worker (new ++ fs))
  | receive {j js} : s.workers = j :: js →
      Moves body s (.worker []) { s with workers := js } (.worker [.took j])
  | exit : s.workers = [] → s.workersClosed = true → Moves body s (.worker []) s .exiting
  | done : Moves body s .exiting { s with wg := s.wg - 1 } .exited
  | waiter {pc pc' s'} : WaitPc.Moves s pc s' pc' → Moves body s (.waiter pc) s' (.waiter pc')

variable {body : ι → List (Option ι)} {s s' : GoroutinePool ι}

theorem Frame.moves_of_step {f : Frame ι} {new : List (Frame ι)}
    (h : f.step body s = some (s', new)) : f.Moves body s s' new := by
  cases f with
  | rlock j =>
      obtain ⟨m, hm, heq⟩ := Option.map_eq_some_iff.1 h
      cases heq
      exact .lock hm
  | check j =>
      rw [Frame.step] at h
      split at h <;> cases h
      · exact .drop ‹_›
      · exact .accept (Bool.eq_false_of_not_eq_true ‹_›)
  | select j =>
      rw [Frame.step] at h
      split at h
      · cases h
        exact .panic ‹_›
      · rename_i hopen
        have hc : s.workersClosed = false := by simpa using hopen
        split at h
        · cases h
          exact .send hc ‹_›
        · split at h <;> cases h
          · exact .skip hc ‹_› ‹_›
          · exact .inline hc ‹_› ‹_›
  | took j =>
      rw [Frame.step] at h
      split at h <;> cases h
      · exact .ignore ‹_›
      · exact .start ‹_›
  | run k rest =>
      cases rest with
      | nil => cases h; exact .finish
      | cons t ts => cases h; exact .call
  | unlock => cases h; exact .unlock

theorem WaitPc.moves_of_step {pc pc' : WaitPc} (h : pc.step s = some (s', pc')) :
    pc.Moves s s' pc' := by
  cases pc with
  | lock =>
      obtain ⟨m, hm, heq⟩ := Option.map_eq_some_iff.1 h
      cases heq
      exact .request hm
  | locking =>
      obtain ⟨m, hm, heq⟩ := Option.map_eq_some_iff.1 h
      cases heq
      exact .acquire hm
  | check =>
      rw [WaitPc.step] at h
      split at h <;> cases h
      · exact .isClosed ‹_›
      · exact .isOpen (Bool.eq_false_of_not_eq_true ‹_›)
  | close =>
      rw [WaitPc.step] at h
      split at h <;> cases h
      · exact .panic ‹_›
      · exact .close (Bool.eq_false_of_not_eq_true ‹_›)
  | mark => cases h; exact .mark
  | unlock => cases h; exact .unlock
  | wait =>
      rw [WaitPc.step] at h
      split at h <;> cases h
      exact .wait ‹_›
  | returned => cases h

theorem PoolThread.moves_of_step {t t' : PoolThread ι} (h : t.step body s = some (s', t')) :
    t.Moves body s s' t' := by
  unfold PoolThread.step at h
  split at h
  · cases h
  · obtain ⟨⟨s₁, new⟩, hf, heq⟩ := Option.map_eq_some_iff.1 h
    cases heq
    exact .submit (Frame.moves_of_step hf)
  · obtain ⟨⟨s₁, new⟩, hf, heq⟩ := Option.map_eq_some_iff.1 h
    cases heq
    exact .worker (Frame.moves_of_step hf)
  · split at h
    · rename_i hq
      cases h
      exact .receive hq
    · split at h <;> cases h
      exact .exit ‹_› ‹_›
  · cases h
    exact .done
  · cases h
  · obtain ⟨⟨s₁, pc'⟩, hpc, heq⟩ := Option.map_eq_some_iff.1 h
    cases heq
    exact .waiter (WaitPc.moves_of_step hpc)

/-- **A step of the system in focus.** -/
inductive PoolMoves (body : ι → List (Option ι)) (p : PoolState ι) :
    PoolAction ι → PoolState ι → Prop
  | run {l t r s' t'} : p.threads = l ++ t :: r → p.threads[l.length]? = some t →
      t.Moves body p.shared s' t' → PoolMoves body p (.run l.length) ⟨s', l ++ t' :: r ++ []⟩
  | submit {t} : PoolMoves body p (.submit t)
      ⟨{ p.shared with calls := p.shared.calls + 1 },
        p.threads ++ [.submit [.rlock ⟨p.shared.calls, t⟩]]⟩
  | wait : PoolMoves body p .wait ⟨p.shared, p.threads ++ [.waiter .lock]⟩

theorem moves_of_poolStep {p p' : PoolState ι} {a : PoolAction ι}
    (h : poolStep body p a = some p') : p.shared.panicked = false ∧ PoolMoves body p a p' := by
  unfold poolStep at h
  split at h
  · cases h
  · rename_i hp
    refine ⟨by simpa using hp, ?_⟩
    cases a with
    | run i =>
        obtain ⟨l, t, r, s', t', new, hl, rfl, hix, hact, rfl⟩ := Pool.step_focus h
        obtain ⟨⟨s₁, t₁⟩, ht, heq⟩ := Option.map_eq_some_iff.1 hact
        cases heq
        exact .run hl hix (PoolThread.moves_of_step ht)
    | submit t => cases h; exact .submit
    | wait => cases h; exact .wait

end LynxRabbit
