/-
# The pace of the reconnect attempts

`watchConnection` (`managers.go`) tries to reconnect as soon as it has seen the
disconnect, and after every failure waits before it tries again: half a second at first,
twice as long after each failure, and never longer than thirty seconds.

`paces` lists what one watcher did in a schedule of the whole system, its attempts and
the waits it sat out.  `watcher_pace` says that this list is always a beginning of one
fixed list, `script`, whatever the other goroutines, the broker and the callers do in
between.  A watcher that reconnects hands over to a new one, so the script begins anew
with the next disconnect.
-/

import LynxRabbit.Client.Frames
import LynxRabbit.Runs.Trace

namespace LynxRabbit

open Runs

/-- What a watcher does about a disconnect; waits are in milliseconds. -/
inductive Pace
  | attempt
  | wait (ms : ℕ)
deriving DecidableEq, Repr

/-- What a step does of this, if it is a step of a watcher. -/
def WatchConnection.pace (s : Client) (o : Choice) : WatchConnection → Option Pace
  | .check _ => if s.manager.stopChanClosed then none else some .attempt
  -- the timer fires
  | .backoff ms => if o = .stop then none else some (.wait ms)
  | _ => none

/-- What goroutine `i` does of this in a step of the system. -/
def pace (i : ℕ) (p : State) : Action → Option Pace
  | .run j o =>
    if j = i then
      match p.threads[j]? with
      | some (.watcher pc) => pc.pace p.shared o
      | _ => none
    else none
  | _ => none

/-- What goroutine `i` has done of this in a schedule. -/
def paces (i : ℕ) : State → List Action → List Pace := trace step (pace i)

/-- The wait after the failure numbered `k`, from zero. -/
def reconnectWait (k : ℕ) : ℕ := min (500 * 2 ^ k) 30000

/-- `n` attempts, each with the wait that follows its failure. -/
def script (n : ℕ) : List Pace :=
  (List.range n).flatMap fun k => [.attempt, .wait (reconnectWait k)]

theorem script_succ (n : ℕ) : script (n + 1) = script n ++ [.attempt, .wait (reconnectWait n)] := by
  rw [script, List.range_succ, List.flatMap_append, List.flatMap_singleton]
  rfl

theorem reconnectWait_succ (k : ℕ) : reconnectWait (k + 1) = min (2 * reconnectWait k) 30000 := by
  unfold reconnectWait
  rw [pow_succ]
  omega

/-! ### Where a watcher stands in its script -/

/-- What the goroutine has done so far fits where it stands: the back-off it is in is the
one of its next failure. -/
def Paced (es : List Pace) : Option Thread → Prop
  | some (.watcher pc) =>
    match pc with
    | .waiting _ => es = []
    | .disconnected => es = []
    | .check ms => ∃ k, es = script k ∧ ms = reconnectWait k
    | .callback ms _ => ∃ k, es = script k ++ [.attempt] ∧ ms = reconnectWait k
    | .backoff ms => ∃ k, es = script k ++ [.attempt] ∧ ms = reconnectWait k
    | _ => ∃ k, es <+: script k
  | _ => es = []

theorem attempt_isPrefix (k : ℕ) : script k ++ [.attempt] <+: script (k + 1) := by
  rw [script_succ]
  exact ⟨[.wait (reconnectWait k)], by simp⟩

theorem Paced.isPrefix {es : List Pace} {t : Option Thread} (h : Paced es t) :
    ∃ k, es <+: script k := by
  have hnil : es = [] → ∃ k, es <+: script k := fun he => ⟨0, by rw [he]; exact List.nil_prefix⟩
  have hattempt : ∀ {ms}, (∃ k, es = script k ++ [.attempt] ∧ ms = reconnectWait k) →
      ∃ k, es <+: script k := by
    rintro ms ⟨k, rfl, -⟩
    exact ⟨k + 1, attempt_isPrefix k⟩
  cases t with
  | none => exact hnil h
  | some t =>
      cases t with
      | watcher pc =>
          cases pc with
          | waiting n => exact hnil h
          | disconnected => exact hnil h
          | check ms =>
              obtain ⟨k, rfl, -⟩ := h
              exact ⟨k, List.prefix_refl _⟩
          | callback ms cb => exact hattempt h
          | backoff ms => exact hattempt h
          | _ => exact h
      | _ => exact hnil h

/-- What has been started just now has done nothing yet. -/
theorem Spawn.paced (x : Spawn) : Paced [] (some x.thread) := by
  cases x <;> rfl

theorem Call.paced (k : Call) (id : ℕ) : Paced [] (some (k.thread id)) := by
  cases k <;> rfl

/-- **A step of a watcher follows the script.** -/
theorem WatchConnection.step_paced {s s' : Client} {o : Choice} {pc pc' : WatchConnection}
    {new : List Spawn} {es : List Pace} (h : pc.step s o = some (s', pc', new))
    (hp : Paced es (some (.watcher pc))) :
    Paced (es ++ (pc.pace s o).toList) (some (.watcher pc')) := by
  have hprefix := hp.isPrefix
  cases pc with
  | waiting n =>
      obtain rfl : es = [] := hp
      cases WatchConnection.moves_of_step h with
      | receive hn => rfl
      | _ => exact ⟨0, List.prefix_refl _⟩
  | disconnected =>
      obtain rfl : es = [] := hp
      cases h
      exact ⟨0, rfl, rfl⟩
  | check ms =>
      obtain ⟨k, rfl, rfl⟩ := hp
      rw [WatchConnection.step] at h
      rw [WatchConnection.pace]
      split_ifs at h ⊢ with hstop
      · cases h
        exact ⟨k, by simp⟩
      · cases h
        exact ⟨k, rfl, rfl⟩
  | callback ms cb =>
      obtain ⟨k, rfl, rfl⟩ := hp
      rw [show WatchConnection.pace s o (.callback (reconnectWait k) cb) = none from rfl,
        Option.toList_none, List.append_nil]
      cases WatchConnection.moves_of_step h with
      | callback ms hm => exact ⟨k, rfl, rfl⟩
      | failure ms f hf => exact ⟨k, rfl, rfl⟩
      | _ => exact ⟨k + 1, attempt_isPrefix k⟩
  | backoff ms =>
      obtain ⟨k, rfl, rfl⟩ := hp
      rw [WatchConnection.step] at h
      rw [WatchConnection.pace]
      split_ifs at h ⊢ with ho hstop
      · cases h
        exact ⟨k + 1, by rw [Option.toList_none, List.append_nil]; exact attempt_isPrefix k⟩
      · cases h
        refine ⟨k + 1, ?_, (reconnectWait_succ k).symm⟩
        rw [script_succ]
        simp
  | established c => cases h; simpa [WatchConnection.pace, Paced] using hprefix
  | renotify c => cases h; simpa [WatchConnection.pace, Paced] using hprefix
  | handover n => cases h; simpa [WatchConnection.pace, Paced] using hprefix
  | returned => cases h

/-- Any other goroutine has no part in it. -/
theorem paced_of_isWatcher_eq_false {es : List Pace} {t : Thread} (h : t.isWatcher = false) :
    Paced es (some t) ↔ es = [] := by
  cases t with
  | watcher pc => cases h
  | _ => rfl

/-- A step of one goroutine, as the goroutine `i` sees it. -/
theorem paced_run {i j : ℕ} {p q : State} {o : Choice} {es : List Pace}
    (h : step p (.run j o) = some q) (hp : Paced es p.threads[i]?) :
    Paced (es ++ (pace i p (.run j o)).toList) q.threads[i]? := by
  obtain ⟨l, t, r, s', t', new, hl, hj, ht, hstep, rfl⟩ := step_run_focus h
  have hmoves := Thread.moves_of_step hstep
  by_cases hij : j = i
  · subst hij
    rw [ht] at hp
    have hself : (l ++ t' :: r ++ new)[j]? = some t' := by rw [← hj]; exact getElem?_focus_self ..
    rw [hself, pace, if_pos rfl, ht]
    cases hw : t.isWatcher with
    | false =>
        rw [paced_of_isWatcher_eq_false hw] at hp
        rw [paced_of_isWatcher_eq_false (hmoves.isWatcher.1.trans hw), hp]
        cases t with
        | watcher pc => cases hw
        | _ => rfl
    | true =>
        cases t with
        | watcher pc =>
            obtain ⟨⟨s₁, pc', sp⟩, hpc, he⟩ := Option.map_eq_some_iff.1 hstep
            cases he
            exact WatchConnection.step_paced hpc hp
        | _ => cases hw
  · rw [pace, if_neg hij, Option.toList_none, List.append_nil]
    cases hq : (l ++ t' :: r ++ new)[i]? with
    | none =>
        -- nothing stands there now, so nothing did
        have hlen := List.getElem?_eq_none_iff.1 hq
        have hnone : p.threads[i]? = none := by
          rw [List.getElem?_eq_none_iff, hl]
          simp only [List.length_append, List.length_cons] at hlen ⊢
          omega
        rwa [hnone] at hp
    | some u =>
        rcases getElem?_focus_cases hq t with ⟨he, -⟩ | ⟨-, hu⟩ | ⟨hlen, hu⟩
        · exact absurd (hj.symm.trans he.symm) hij
        · rwa [hl, hu] at hp
        · obtain ⟨x, rfl⟩ := hmoves.spawned u hu
          rw [hl, List.getElem?_eq_none hlen] at hp
          obtain rfl : es = [] := hp
          exact x.paced

/-- **A step of the system keeps every watcher in its script.** -/
theorem paced_step {i : ℕ} {p q : State} {a : Action} {es : List Pace} (h : step p a = some q)
    (hp : Paced es p.threads[i]?) : Paced (es ++ (pace i p a).toList) q.threads[i]? := by
  cases a with
  | run j o => exact paced_run h hp
  | drop c =>
      cases (moves_of_step h).2
      simpa [pace] using hp
  | cancel id =>
      cases (moves_of_step h).2
      simpa [pace] using hp
  | call k =>
      cases (moves_of_step h).2
      rw [show pace i p (.call k) = none from rfl, Option.toList_none, List.append_nil]
      rcases Nat.lt_trichotomy i p.threads.length with hlt | rfl | hgt
      · rwa [List.getElem?_append_left hlt]
      · rw [List.getElem?_eq_none (Nat.le_refl _)] at hp
        obtain rfl : es = [] := hp
        simpa using k.paced p.threads.length
      · rw [List.getElem?_eq_none (Nat.le_of_lt hgt)] at hp
        rwa [List.getElem?_eq_none (by simpa using Nat.succ_le_of_lt hgt)]

/-- **The pace of the attempts.**  In every schedule of the system, what a watcher has done
is a beginning of its script: it tries at once after the disconnect, and sits out half a
second before the second attempt, twice the last wait before each one after that, and
thirty seconds once the doubling has passed them. -/
theorem watcher_pace (cfg : RabbitMQ) (as : List Action) (i : ℕ) :
    ∃ n, paces i (fresh cfg) as <+: script n := by
  have hp : Paced [] (fresh cfg).threads[i]? := rfl
  have hall := trace_invariant step (pace i) (I := fun es p => Paced es p.threads[i]?)
    (fun es p a q hp hs => paced_step hs hp) as hp
  exact hall.isPrefix

-- two dials refused
example : paces 2 (fresh defaultRabbitMQConfig) (boot ++ .drop 0 :: solo 2 3 ++
    [.run 2 (.fail "refused"), .run 2 .ok, .run 2 .ok, .run 2 (.fail "refused"), .run 2 .ok]) =
      [.attempt, .wait 500, .attempt, .wait 1000] := by
  decide

end LynxRabbit
