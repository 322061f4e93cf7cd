/-
# The order of the pool's queue, and the pool after `Wait`

Two facts about what comes after a state of the goroutine pool, `pool.go`, whatever
the callers, the workers and the tasks do.

The channel is a queue, but a worker takes a task out of it in one step and begins it
in another, so of two tasks in the queue the one behind may be begun first.  It passes
only tasks that other workers have in their hands: when it is begun, fewer tasks than
there are workers are unfinished of those that were in front of it
(`queued_begins_behind_few`).  With one worker the queue is served in order, one task
after the other.  Nothing is said of a task that found the channel full: it runs inline
at once, before those that wait.

`Wait` and `Close` are final: once one of them has returned, no goroutine of the
pool is left and no task is accepted, begun or finished any more, and every later
`Submit` that gets to look drops its task (`pool_inert_after_wait`).
-/

import Mathlib.Data.List.Nodup
import Mathlib.Data.List.Perm.Subperm
import LynxRabbit.Goroutines.Tasks

namespace LynxRabbit

open Runs

variable {ι : Type} {body : ι → List (Option ι)} {s s' : GoroutinePool ι} {p p' q : PoolState ι}

/-! ### What a worker has in its hands -/

/-- The token of a task that can run and was received, or runs. -/
def Frame.token : Frame ι → Option ℕ
  | .took j => if j.task.isSome then some j.token else none
  | .run k _ => some k
  | _ => none

/-- The task a worker has from the queue: the frame at the bottom of its stack is for it, and
what is above are calls of `Submit` that it makes. -/
def PoolThread.serving : PoolThread ι → Option ℕ
  | .worker fs => fs.getLast?.bind Frame.token
  | _ => none

/-- How many workers have the task of the call numbered `k`. -/
def hands (k : ℕ) (ts : List (PoolThread ι)) : ℕ :=
  (ts.map fun t => (t.serving == some k).toNat).sum

theorem Frame.carries_of_token {f : Frame ι} {k : ℕ} (h : f.token = some k) :
    f.carries k = true := by
  cases f with
  | took j =>
      rw [token] at h
      split at h
      · rename_i hj
        obtain rfl := Option.some.inj h
        simp [carries, Job.real, hj]
      · cases h
  | run k' ts =>
      obtain rfl := Option.some.inj h
      exact beq_self_eq_true _
  | _ => cases h

/-- A task a worker has is among those its stack carries. -/
theorem PoolThread.serving_le_carries (t : PoolThread ι) (k : ℕ) :
    (t.serving == some k).toNat ≤ t.stack.countP (Frame.carries k) := by
  by_cases hk : t.serving = some k
  · cases t with
    | worker fs =>
        obtain ⟨f, hlast, hf⟩ := Option.bind_eq_some_iff.1 hk
        have hpos : 0 < fs.countP (Frame.carries k) :=
          List.countP_pos_iff.2 ⟨f, List.mem_of_getLast? hlast, Frame.carries_of_token hf⟩
        exact (Bool.toNat_le _).trans hpos
    | _ => cases hk
  · rw [beq_false_of_ne hk]
    exact Nat.zero_le _

/-- A task has finished or is in the hands of a worker, once at most. -/
theorem PoolInv.finished_add_hands_le (h : PoolInv p) (k : ℕ) :
    p.shared.finished.count k + hands k p.threads ≤ 1 := by
  have hplaces := h.places k
  have honce := h.looks_once k
  have hreal : p.shared.accepted.countP (·.real k) ≤ p.shared.accepted.countP (·.token == k) :=
    List.countP_mono_left fun j _ hj => (Bool.and_eq_true_iff.1 hj).1
  have hsum : hands k p.threads ≤ (p.threads.map (placeAccount k).held).sum :=
    List.sum_le_sum fun t _ => t.serving_le_carries k
  unfold Account.Balanced at hplaces
  simp only [placeAccount] at hplaces hsum
  omega

/-- Only workers have tasks in their hands, and each has one. -/
theorem length_filterMap_serving_le (ts : List (PoolThread ι)) :
    (ts.filterMap PoolThread.serving).length ≤ (ts.map fun t => t.isWorker.toNat).sum := by
  induction ts with
  | nil => exact Nat.le_refl _
  | cons t ts ih =>
      rw [List.map_cons, List.sum_cons]
      cases hs : t.serving with
      | none =>
          rw [List.filterMap_cons_none hs]
          omega
      | some k =>
          have hw : t.isWorker = true := by
            cases t with
            | worker fs => rfl
            | _ => cases hs
          rw [List.filterMap_cons_some hs, List.length_cons, hw, Bool.toNat_true]
          omega

theorem mem_filterMap_serving {ts : List (PoolThread ι)} {k : ℕ} (h : 0 < hands k ts) :
    k ∈ ts.filterMap PoolThread.serving := by
  induction ts with
  | nil => cases h
  | cons t ts ih =>
      by_cases hk : t.serving = some k
      · rw [List.filterMap_cons_some hk]
        exact List.mem_cons_self
      · rw [hands, List.map_cons, List.sum_cons, beq_false_of_ne hk, Bool.toNat_false,
          Nat.zero_add] at h
        exact List.mem_filterMap.2
          ((List.mem_filterMap.1 (ih h)).imp fun u hu => ⟨List.mem_cons_of_mem _ hu.1, hu.2⟩)

/-! ### The queue is served at its front -/

/-- The tokens of the tasks of a piece of the queue that can run, in its order. -/
def tokens (js : List (Job ι)) : List ℕ := (js.filter (·.task.isSome)).map (·.token)

/-- Those of them that have not finished. -/
def unfinished (s : GoroutinePool ι) (js : List (Job ι)) : List ℕ :=
  (tokens js).filter fun k => !s.finished.contains k

/-- **From `p` to `q` the jobs `taken` left the queue at its front**: each of them has finished
or is in the hands of a worker, and when one of them was taken there were fewer unfinished
ones in front of it than there are workers. -/
structure Served (p q : PoolState ι) (taken : List (Job ι)) : Prop where
  queue : ∃ sent, p.shared.workers ++ sent = taken ++ q.shared.workers
  placed : ∀ k, (tokens taken).count k ≤ q.shared.finished.count k + hands k q.threads
  ahead : ∀ front j rest, taken = front ++ j :: rest →
    (unfinished q.shared front).length < q.shared.size

/-- What a step of a goroutine other than taking a job does to the queue and to the tasks
that have finished. -/
structure Serves (s : GoroutinePool ι) (t : PoolThread ι) (s' : GoroutinePool ι)
    (t' : PoolThread ι) : Prop where
  sent : ∃ js, s'.workers = s.workers ++ js
  finished : ∃ ks, s'.finished = s.finished ++ ks
  size : s'.size = s.size
  keeps : ∀ k, s.finished.count k + (t.serving == some k).toNat ≤
    s'.finished.count k + (t'.serving == some k).toNat

theorem Frame.Moves.serves {f : Frame ι} {new fs : List (Frame ι)} (h : f.Moves body s s' new) :
    Serves s (.worker (f :: fs)) s' (.worker (new ++ fs)) := by
  cases fs with
  | nil =>
      cases h with
      | send hc hroom => exact ⟨⟨_, rfl⟩, ⟨[], by simp⟩, rfl, fun k => Nat.le_refl _⟩
      | ignore hj =>
          refine ⟨⟨[], by simp⟩, ⟨[], by simp⟩, rfl, fun k => ?_⟩
          simp [PoolThread.serving, token, hj]
      | start hj =>
          refine ⟨⟨[], by simp⟩, ⟨[], by simp⟩, rfl, fun k => ?_⟩
          simp [PoolThread.serving, token, hj]
      | @finish k' =>
          refine ⟨⟨[], by simp⟩, ⟨_, rfl⟩, rfl, fun k => ?_⟩
          by_cases hk : k' = k <;> simp [PoolThread.serving, token, hk]
      | _ => exact ⟨⟨[], by simp⟩, ⟨[], by simp⟩, rfl, fun k => Nat.le_refl _⟩
  | cons g gs =>
      -- what is at the bottom stays there
      have hsame : PoolThread.serving (.worker (new ++ g :: gs)) =
          PoolThread.serving (.worker (f :: g :: gs)) := by
        simp [PoolThread.serving, List.getLast?_append, List.getLast?_cons]
      refine ⟨?_, ?_, ?_, fun k => ?_⟩
      · cases h with
        | send hc hroom => exact ⟨_, rfl⟩
        | _ => exact ⟨[], (List.append_nil _).symm⟩
      · cases h with
        | finish => exact ⟨_, rfl⟩
        | _ => exact ⟨[], (List.append_nil _).symm⟩
      · cases h <;> rfl
      · rw [hsame]
        cases h with
        | finish => simp
        | _ => exact Nat.le_refl _

/-- A step takes the first job out of the queue, or leaves those in it where they are. -/
theorem PoolThread.Moves.serves {t t' : PoolThread ι} (h : t.Moves body s s' t') :
    Serves s t s' t' ∨ ∃ j js, s.workers = j :: js ∧ t = .worker [] ∧ t' = .worker [.took j] ∧
      s' = { s with workers := js } := by
  cases h with
  | submit hf =>
      obtain ⟨hsent, hfin, hsize, -⟩ : Serves s (.worker [_]) s' (.worker (_ ++ [])) := hf.serves
      refine .inl ⟨hsent, hfin, hsize, fun k => ?_⟩
      obtain ⟨ks, hks⟩ := hfin
      simp [serving, hks]
  | worker hf => exact .inl hf.serves
  | receive hq => exact .inr ⟨_, _, hq, rfl, rfl, rfl⟩
  | waiter hw =>
      cases hw <;> exact .inl ⟨⟨[], by simp⟩, ⟨[], by simp⟩, rfl, fun k => Nat.le_refl _⟩
  | _ => exact .inl ⟨⟨[], by simp⟩, ⟨[], by simp⟩, rfl, fun k => Nat.le_refl _⟩

theorem hands_focus (k : ℕ) (l r : List (PoolThread ι)) (t t' : PoolThread ι) :
    hands k (l ++ t' :: r ++ []) + (t.serving == some k).toNat =
      hands k (l ++ t :: r) + (t'.serving == some k).toNat :=
  sum_focus l r [] t t' fun t => (t.serving == some k).toNat

/-- More may finish of a piece of the queue, and none is unfinished again. -/
theorem length_unfinished_le {ks : List ℕ} (h : s'.finished = s.finished ++ ks)
    (js : List (Job ι)) : (unfinished s' js).length ≤ (unfinished s js).length := by
  refine (List.Sublist.length_le (List.monotone_filter_right _ fun k hk => ?_))
  rw [h] at hk
  simp_all

variable {taken : List (Job ι)}

/-- **A worker that is about to take a job finds few unfinished ones in front of it**: each is
in the hands of another worker. -/
theorem Served.few {l r : List (PoolThread ι)} (h : Served p q taken) (hinv : PoolInv q)
    (hl : q.threads = l ++ .worker [] :: r) :
    (unfinished q.shared taken).length < q.shared.size := by
  have hcount : ∀ k, (tokens taken).count k ≤ 1 :=
    fun k => (h.placed k).trans (hinv.finished_add_hands_le k)
  have hnodup : (unfinished q.shared taken).Nodup :=
    (List.nodup_iff_count_le_one.2 hcount).filter _
  have hsub : unfinished q.shared taken ⊆ (l ++ r).filterMap PoolThread.serving := by
    intro k hk
    obtain ⟨hin, hout⟩ := List.mem_filter.1 hk
    have hfin : q.shared.finished.count k = 0 := List.count_eq_zero.2 (by simpa using hout)
    have hpos : 0 < (tokens taken).count k := List.count_pos_iff.2 hin
    have hplaced := h.placed k
    have hserved : k ∈ q.threads.filterMap PoolThread.serving :=
      mem_filterMap_serving (by omega)
    rw [hl] at hserved
    simpa [PoolThread.serving] using hserved
  have hlen := (List.subperm_of_subset hnodup hsub).length_le.trans
    (length_filterMap_serving_le (l ++ r))
  have hall := hinv.allWorkers
  unfold Account.Balanced at hall
  simp only [workerAccount, hl, List.map_append, List.map_cons, List.sum_append, List.sum_cons,
    PoolThread.isWorker, PoolThread.live, Bool.toNat_true] at hall hlen
  omega

/-- A worker that has received a job has its task, if it has one. -/
theorem count_tokens_singleton (j : Job ι) (k : ℕ) : (tokens [j]).count k =
    (PoolThread.serving (.worker [.took j]) == some k).toNat := by
  cases hj : j.task with
  | none => simp [tokens, PoolThread.serving, Frame.token, hj]
  | some x =>
      have hcount : (tokens [j]).count k = [j.token].count k := by simp [tokens, hj]
      have hserving : PoolThread.serving (.worker [.took j]) = some j.token := by
        simp [PoolThread.serving, Frame.token, hj]
      rw [hcount, hserving, List.count_singleton, Option.some_beq_some]
      cases j.token == k <;> rfl

/-- A step that leaves the jobs of the queue where they are. -/
theorem Served.serve {l r : List (PoolThread ι)} {t t' : PoolThread ι} {s' : GoroutinePool ι}
    (h : Served p q taken) (hl : q.threads = l ++ t :: r) (hv : Serves q.shared t s' t') :
    Served p ⟨s', l ++ t' :: r ++ []⟩ taken := by
  obtain ⟨sent, hqueue⟩ := h.queue
  obtain ⟨more, hmore⟩ := hv.sent
  obtain ⟨ks, hks⟩ := hv.finished
  refine ⟨⟨sent ++ more, ?_⟩, fun k => ?_, fun front j rest he => ?_⟩
  · rw [← List.append_assoc, hqueue, hmore, List.append_assoc]
  · have hplaced := h.placed k
    have hkeeps := hv.keeps k
    have hhands := hands_focus k l r t t'
    rw [hl] at hplaced
    show _ ≤ s'.finished.count k + hands k (l ++ t' :: r ++ [])
    omega
  · exact (length_unfinished_le hks front).trans_lt (hv.size ▸ h.ahead front j rest he)

/-- An idle worker takes the first job out of the queue. -/
theorem Served.take {l r : List (PoolThread ι)} {j : Job ι} {js : List (Job ι)}
    (h : Served p q taken) (hinv : PoolInv q) (hl : q.threads = l ++ .worker [] :: r)
    (hq : q.shared.workers = j :: js) :
    Served p ⟨{ q.shared with workers := js }, l ++ .worker [.took j] :: r ++ []⟩
      (taken ++ [j]) := by
  obtain ⟨sent, hqueue⟩ := h.queue
  refine ⟨⟨sent, ?_⟩, fun k => ?_, fun front j' rest he => ?_⟩
  · rw [hqueue, hq, List.append_assoc]
    rfl
  · have hplaced := h.placed k
    have hhands := hands_focus k l r (.worker []) (.worker [.took j])
    rw [hl] at hplaced
    have hnew := count_tokens_singleton j k
    have hold : ((PoolThread.serving (.worker [] : PoolThread ι)) == some k).toNat = 0 := rfl
    have happ : (tokens (taken ++ [j])).count k =
        (tokens taken).count k + (tokens [j]).count k := by
      simp [tokens]
    show _ ≤ q.shared.finished.count k + hands k (l ++ .worker [.took j] :: r ++ [])
    omega
  · -- the job that is taken now, or one that was taken before
    rcases List.eq_nil_or_concat rest with rfl | ⟨rest', last, rfl⟩
    · obtain ⟨rfl, -⟩ := List.append_inj' he rfl
      exact h.few hinv hl
    · have hinit : taken = front ++ j' :: rest' := by
        rw [List.concat_eq_append, ← List.cons_append, ← List.append_assoc] at he
        exact (List.append_inj' he rfl).1
      exact h.ahead front j' rest' hinit

theorem Served.step {a : PoolAction ι} (h : Served p q taken) (hinv : PoolInv q)
    (hs : poolStep body q a = some p') : ∃ taken', Served p p' taken' := by
  cases (moves_of_poolStep hs).2 with
  | run hl hix hm =>
      rcases hm.serves with hv | ⟨j, js, hq, rfl, rfl, rfl⟩
      · exact ⟨taken, h.serve hl hv⟩
      · exact ⟨taken ++ [j], h.take hinv hl hq⟩
  | submit =>
      refine ⟨taken, h.queue, fun k => ?_, h.ahead⟩
      simpa [hands, PoolThread.serving] using h.placed k
  | wait =>
      refine ⟨taken, h.queue, fun k => ?_, h.ahead⟩
      simpa [hands, PoolThread.serving] using h.placed k

theorem served_of_run {g : PoolState ι → PoolAction ι → Bool} (hp : PoolInv p)
    (h : Run (poolStep body) g p q) : ∃ taken, Served p q taken := by
  refine (h.invariant (I := fun u => PoolInv u ∧ ∃ taken, Served p u taken) ⟨hp, [], ?_⟩
    fun u a u' ih _ hs => ⟨ih.1.step hs, ih.2.elim fun _ h => h.step ih.1 hs⟩).2
  exact ⟨⟨[], List.append_nil _⟩, fun k => Nat.zero_le _, fun front j rest he => by simp at he⟩

/-- What waits in the queue was not begun. -/
theorem PoolInv.waits (h : PoolInv p) {j : Job ι} (hj : j ∈ p.shared.workers)
    (ht : j.task.isSome = true) : p.shared.started.count j.token = 0 := by
  have hpos : 0 < p.shared.workers.countP (·.real j.token) :=
    List.countP_pos_iff.2 ⟨j, hj, by simp [Job.real, ht]⟩
  have hle := h.started_add_queued_le j.token
  have honce := h.looks_once j.token
  omega

theorem size_of_run {g : PoolState ι → PoolAction ι → Bool} (h : Run (poolStep body) g p q) :
    q.shared.size = p.shared.size := by
  refine h.invariant (I := fun u => u.shared.size = p.shared.size) rfl fun u a u' ih _ hs => ?_
  cases (moves_of_poolStep hs).2 with
  | run hl hix hm =>
      rcases hm.serves with hv | ⟨j, js, -, -, -, rfl⟩
      · exact hv.size.trans ih
      · exact ih
  | _ => exact ih

/-- **A queued task is begun behind all but a few of those in front of it.**  Let a task wait
in the queue of a pool of `n` workers, behind the jobs `front`.  In every continuation of every
run, when it has been begun, fewer than `n` of the tasks in front of it are unfinished; with
one worker, all of them have finished. -/
theorem queued_begins_behind_few (body : ι → List (Option ι)) (n : ℕ) (p q : PoolState ι)
    (front rest : List (Job ι)) (b : Job ι)
    (hp : Run (poolStep body) always (newGoroutinePool ι n) p)
    (hq : Run (poolStep body) always p q) (hw : p.shared.workers = front ++ b :: rest)
    (hb : b.task.isSome = true) (hbegun : b.token ∈ q.shared.started) :
    (unfinished q.shared front).length < n := by
  have hinv := poolInv_of_run (hp.trans hq)
  have hout : b ∉ q.shared.workers := fun hmem =>
    List.count_eq_zero.1 (hinv.waits hmem hb) hbegun
  obtain ⟨taken, hserved⟩ := served_of_run (poolInv_of_run hp) hq
  obtain ⟨sent, hqueue⟩ := hserved.queue
  rw [hw, List.append_assoc, List.cons_append] at hqueue
  -- it has left the queue, and so have those in front of it
  obtain ⟨later, htaken⟩ : ∃ later, taken = front ++ b :: later := by
    rcases List.append_eq_append_iff.1 hqueue with ⟨as, htaken, hrest⟩ | ⟨cs, -, hleft⟩
    · cases as with
      | nil =>
          rw [List.nil_append] at hrest
          exact absurd (hrest ▸ List.mem_cons_self) hout
      | cons c as =>
          obtain ⟨rfl, -⟩ := List.cons.inj hrest
          exact ⟨as, htaken⟩
    · exact absurd (by simp [hleft]) hout
  have hlt := hserved.ahead front b later htaken
  rwa [size_of_run (hp.trans hq)] at hlt

/-- Two tasks in the queue of a pool of two: both workers take one, and the one with the second
begins it first. -/
theorem queued_begins_behind_few_overtaken :
    ∃ p q : PoolState Unit, p.shared.workers = [⟨0, some ()⟩, ⟨1, some ()⟩] ∧
      Run (poolStep fun _ => []) always p q ∧ q.shared.started = [1] ∧
      (unfinished q.shared [⟨0, some ()⟩]).length < 2 := by
  obtain ⟨p, hr, hp⟩ := exists_run_of_replay (poolStep fun _ => []) always
    (newGoroutinePool Unit 2)
    (fun p => decide (p.shared.workers = [⟨0, some ()⟩, ⟨1, some ()⟩]) &&
      (replay (poolStep fun _ => []) always p [.run 0, .run 1, .run 1]).any
        (·.shared.started == [1]))
    [.submit (some ()), .run 2, .run 2, .run 2, .run 2, .submit (some ()), .run 3, .run 3, .run 3]
    (by decide)
  rw [Bool.and_eq_true, Option.any_eq_true, decide_eq_true_eq] at hp
  obtain ⟨hw, q, hq, hb⟩ := hp
  have hpq := Run.of_replay .refl hq
  have hst : q.shared.started = [1] := beq_iff_eq.1 hb
  exact ⟨p, q, hw, hpq, hst, queued_begins_behind_few _ 2 p q [⟨0, some ()⟩] [] ⟨1, some ()⟩ hr
    hpq hw rfl (by rw [hst]; exact List.mem_singleton.2 rfl)⟩

/-! ### After `Wait` -/

/-- The pool is shut: a `Wait` or `Close` has returned, and what was accepted, begun and
finished is what `s` shows. -/
structure Shut (s : GoroutinePool ι) (q : PoolState ι) : Prop where
  inv : PoolInv q
  returned : .waiter .returned ∈ q.threads
  accepted : q.shared.accepted = s.accepted
  started : q.shared.started = s.started
  finished : q.shared.finished = s.finished

/-- A step after that accepts, begins and finishes nothing. -/
theorem Shut.frame {t t' : PoolThread ι} (h : Shut s q) (ht : t ∈ q.threads)
    (hm : t.Moves body q.shared s' t') :
    s'.accepted = q.shared.accepted ∧ s'.started = q.shared.started ∧
      s'.finished = q.shared.finished := by
  have hidle := h.inv.idle_of_returned h.returned t ht
  have hclosed : q.shared.closed = true := (h.inv.fits _ h.returned).1
  have hempty := h.inv.queue_empty_of_returned h.returned
  have hframe : ∀ {f : Frame ι} {fs new}, t.stack = f :: fs → f.Moves body q.shared s' new →
      s'.accepted = q.shared.accepted ∧ s'.started = q.shared.started ∧
        s'.finished = q.shared.finished := by
    intro f fs new hst hf
    have hbusy : f.busy true = false := hidle f (hst ▸ List.mem_cons_self)
    cases hf with
    | accept hopen => rw [hclosed] at hopen; cases hopen
    | inline => cases hbusy
    | start => cases hbusy
    | finish => cases hbusy
    | _ => exact ⟨rfl, rfl, rfl⟩
  cases hm with
  | submit hf => exact hframe rfl hf
  | worker hf => exact hframe rfl hf
  | waiter hw => cases hw <;> exact ⟨rfl, rfl, rfl⟩
  | _ => exact ⟨rfl, rfl, rfl⟩

theorem Shut.step {a : PoolAction ι} (h : Shut s q) (hs : poolStep body q a = some p') :
    Shut s p' := by
  have hinv := h.inv.step hs
  cases (moves_of_poolStep hs).2 with
  | @run l t r s' t' hl hix hm =>
      obtain ⟨hacc, hst, hfin⟩ := h.frame (hl ▸ mem_focus_self l r t) hm
      refine ⟨hinv, ?_, hacc.trans h.accepted, hst.trans h.started, hfin.trans h.finished⟩
      rcases eq_or_mem_others (hl ▸ h.returned) with rfl | hother
      · cases hm with
        | waiter hw => cases hw
      · exact mem_focus_of_others hother t' []
  | submit =>
      exact ⟨hinv, List.mem_append_left _ h.returned, h.accepted, h.started, h.finished⟩
  | wait => exact ⟨hinv, List.mem_append_left _ h.returned, h.accepted, h.started, h.finished⟩

/-- A call that was made is accepted, dropped, or has not looked at `closed` yet. -/
theorem PoolInv.call_cases (h : PoolInv p) {k : ℕ} (hk : k < p.shared.calls) :
    (∃ j ∈ p.shared.accepted, j.token = k) ∨ (∃ j ∈ p.shared.dropped, j.token = k) ∨
      ∃ t ∈ p.threads, ∃ f ∈ t.stack, f.arriving k = true := by
  have hcalls := h.calls k
  unfold Account.Balanced at hcalls
  simp only [callAccount, hk, decide_true, Bool.toNat_true] at hcalls
  by_contra hno
  simp only [not_or, not_exists, not_and] at hno
  obtain ⟨hacc, hdrop, harr⟩ := hno
  have hacc' : p.shared.accepted.countP (·.token == k) = 0 :=
    List.countP_eq_zero.2 fun j hj he => hacc j hj (beq_iff_eq.1 he)
  have hdrop' : p.shared.dropped.countP (·.token == k) = 0 :=
    List.countP_eq_zero.2 fun j hj he => hdrop j hj (beq_iff_eq.1 he)
  have harr' : (p.threads.map fun t => t.stack.countP (Frame.arriving k)).sum = 0 := by
    refine List.sum_eq_zero fun x hx => ?_
    obtain ⟨t, ht, rfl⟩ := List.mem_map.1 hx
    exact List.countP_eq_zero.2 fun f hf he => harr t ht f hf he
  omega

theorem PoolInv.accepted_lt (h : PoolInv p) {j : Job ι} (hj : j ∈ p.shared.accepted) :
    j.token < p.shared.calls := by
  have hcalls := h.calls j.token
  unfold Account.Balanced at hcalls
  have hpos : 0 < p.shared.accepted.countP (·.token == j.token) :=
    List.countP_pos_iff.2 ⟨j, hj, beq_self_eq_true _⟩
  simp only [callAccount] at hcalls
  by_contra hge
  simp only [hge, decide_false, Bool.toNat_false] at hcalls
  omega

/-- **A pool whose `Wait` or `Close` has returned stays as it is.**  In every continuation of
every run no task is accepted, begun or finished any more, the queue is empty and every
worker has exited, and a `Submit` that was called since has dropped its task or has not
looked yet. -/
theorem pool_inert_after_wait (body : ι → List (Option ι)) (n : ℕ) (p q : PoolState ι)
    (hp : Run (poolStep body) always (newGoroutinePool ι n) p)
    (hret : .waiter .returned ∈ p.threads) (hq : Run (poolStep body) always p q) :
    q.shared.accepted = p.shared.accepted ∧ q.shared.started = p.shared.started ∧
    q.shared.finished = p.shared.finished ∧ q.shared.workers = [] ∧
    (∀ t ∈ q.threads, t.isWorker = true → t = .exited) ∧
    ∀ k, p.shared.calls ≤ k → k < q.shared.calls →
      (∃ j ∈ q.shared.dropped, j.token = k) ∨
        ∃ t ∈ q.threads, ∃ f ∈ t.stack, f.arriving k = true := by
  have hinv := poolInv_of_run hp
  have hshut : Shut p.shared q := hq.invariant (I := Shut p.shared) ⟨hinv, hret, rfl, rfl, rfl⟩
    fun u a u' ih _ hs => ih.step hs
  refine ⟨hshut.accepted, hshut.started, hshut.finished,
    hshut.inv.queue_empty_of_returned hshut.returned, fun t ht hw => ?_, fun k hge hlt => ?_⟩
  · have hlive := hshut.inv.not_live hshut.returned ht
    cases t with
    | exited => rfl
    | worker fs => cases hlive
    | exiting => cases hlive
    | _ => cases hw
  · rcases hshut.inv.call_cases hlt with ⟨j, hj, rfl⟩ | hrest
    · rw [hshut.accepted] at hj
      exact absurd (hinv.accepted_lt hj) (Nat.not_lt.2 hge)
    · exact hrest

/-- A pool of one, after `Wait`; then a `Submit` drops its task. -/
theorem pool_inert_after_wait_dropped :
    ∃ p q : PoolState Unit, .waiter .returned ∈ p.threads ∧ p.shared.calls < q.shared.calls ∧
      Run (poolStep fun _ => []) always p q ∧ q.shared.started = p.shared.started ∧
      q.shared.workers = [] := by
  obtain ⟨p, hr, hp⟩ := exists_run_of_replay (poolStep fun _ => []) always
    (newGoroutinePool Unit 1)
    (fun p => decide (.waiter .returned ∈ p.threads) &&
      (replay (poolStep fun _ => []) always p [.submit (some ()), .run 3, .run 3, .run 3]).any
        fun q => decide (p.shared.calls < q.shared.calls))
    [.submit (some ()), .run 1, .run 1, .run 1, .run 1, .wait, .run 2, .run 2, .run 2, .run 2,
      .run 2, .run 2, .run 0, .run 0, .run 0, .run 0, .run 0, .run 2] (by decide)
  rw [Bool.and_eq_true, Option.any_eq_true, decide_eq_true_eq] at hp
  obtain ⟨hret, q, hq, hcalls⟩ := hp
  have hpq := Run.of_replay .refl hq
  obtain ⟨-, hstarted, -, hempty, -⟩ := pool_inert_after_wait _ 1 p q hr hret hpq
  exact ⟨p, q, hret, of_decide_eq_true hcalls, hpq, hstarted, hempty⟩

end LynxRabbit
