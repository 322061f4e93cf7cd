/-
# Stopping the connection manager

`Start`, `Stop` and `watchConnection` of the `ConnectionManager` (`managers.go`) on
their own: any number of `Stop` calls beside the watchers, with whatever arrives on
the notify channels and whatever the reconnect callback returns.

The steps are those of the source: `Stop` sets `stopped` under the mutex, and only the
call that found it unset goes on to the `select` on `stopChan` and to `close`; a
watcher looks at `stopChan`, then calls the callback.  `closes` and `late` count the
closes and the calls of the callback that begin after the close; `panicked` is a close
of a closed channel.

In the client's model a step stands for several of these.
`WatchConnection.Moves.refines` and `CleanupWithContext.Moves.refines` say how.
-/

import LynxRabbit.Client.Frames

namespace LynxRabbit

open Runs

/-- What the manager's goroutines share, and the two counts. -/
structure Manager where
  connected : Bool := false
  stopped : Bool := false
  stopChanClosed : Bool := false
  panicked : Bool := false
  closes : ℕ := 0
  late : ℕ := 0
deriving DecidableEq, Repr

/-- Where `Start` stands.  A notify channel and a callback are registered. -/
inductive StartCall
  | enter
  | spawn
  | returned
deriving DecidableEq, Repr

/-- One atomic step of `Start`; `true` starts the watcher. -/
def StartCall.step (m : Manager) : StartCall → Option (Manager × StartCall × Bool)
  | .enter => some ({ m with connected := true }, .spawn, false)
  | .spawn => some (m, .returned, true)
  | .returned => none

/-- Where a `Stop` call stands; `first` says that it found `stopped` unset. -/
inductive StopCall
  | enter
  | select
  | close
  | returned (first : Bool)
deriving DecidableEq, Repr

/-- One atomic step of `Stop`. -/
def StopCall.step (m : Manager) : StopCall → Option (Manager × StopCall)
  | .enter =>
    if m.stopped then some ({ m with connected := false }, .returned false)
    else some ({ m with connected := false, stopped := true }, .select)
  | .select => some (m, if m.stopChanClosed then .returned true else .close)
  | .close =>
    some (if m.stopChanClosed then { m with panicked := true }
      else { m with stopChanClosed := true, closes := m.closes + 1 }, .returned true)
  | .returned _ => none

/-- Where a `watchConnection` goroutine stands. -/
inductive Watching
  | waiting
  | disconnected
  | check
  | invoke
  | running
  | established
  | renotify
  | handover
  | backoff
  | returned
deriving DecidableEq, Repr

/-- What a watcher meets: the closed `stopChan`, a value or the close of its notify
channel, the result of the callback, or the timer. -/
inductive WatchEvent
  | stop
  | notified (isError : Bool)
  | result (ok : Bool)
  | timer
deriving DecidableEq, Repr

/-- One atomic step of `watchConnection`; `true` starts the next watcher. -/
def Watching.step (m : Manager) (b : WatchEvent) : Watching → Option (Manager × Watching × Bool)
  | .waiting =>
    match b with
    | .stop => if m.stopChanClosed then some (m, .returned, false) else none
    | .notified isError => some (m, if isError then .disconnected else .returned, false)
    | _ => none
  | .disconnected => some ({ m with connected := false }, .check, false)
  | .check => some (m, if m.stopChanClosed then .returned else .invoke, false)
  | .invoke => some ({ m with late := m.late + m.stopChanClosed.toNat }, .running, false)
  | .running =>
    match b with
    | .result ok => some (m, if ok then .established else .backoff, false)
    | _ => none
  | .established => some ({ m with connected := true }, .renotify, false)
  | .renotify => some (m, .handover, false)
  | .handover => some (m, .returned, true)
  | .backoff =>
    match b with
    | .stop => if m.stopChanClosed then some (m, .returned, false) else none
    | .timer => some (m, .check, false)
    | _ => none
  | .returned => none

/-- A goroutine of the manager, or a call of one of its methods. -/
inductive ManagerThread
  | start (pc : StartCall)
  | stop (pc : StopCall)
  | watcher (pc : Watching)
deriving DecidableEq, Repr

def ManagerThread.step (m : Manager) (t : ManagerThread) (b : WatchEvent) :
    Option (Manager × ManagerThread × List ManagerThread) :=
  match t with
  | .start pc => (pc.step m).map fun q =>
      (q.1, .start q.2.1, if q.2.2 then [.watcher .waiting] else [])
  | .stop pc => (pc.step m).map fun q => (q.1, .stop q.2, [])
  | .watcher pc => (pc.step m b).map fun q =>
      (q.1, .watcher q.2.1, if q.2.2 then [.watcher .waiting] else [])

inductive ManagerAction
  | run (i : ℕ) (b : WatchEvent)
  | stop
deriving DecidableEq, Repr

/-- A step of the manager. -/
def managerStep (p : Pool Manager ManagerThread) (a : ManagerAction) :
    Option (Pool Manager ManagerThread) :=
  if p.shared.panicked then none
  else match a with
    | .run i b => p.step ManagerThread.step i b
    | .stop => some { p with threads := p.threads ++ [.stop .enter] }

/-- The manager on which `Start` is called once. -/
def startedManager : Pool Manager ManagerThread := ⟨{}, [.start .enter]⟩

/-- A `Stop` call that found `stopped` unset. -/
def ManagerThread.first : ManagerThread → Bool
  | .stop .select => true
  | .stop .close => true
  | .stop (.returned first) => first
  | _ => false

/-- Such a call that has returned. -/
def ManagerThread.firstDone : ManagerThread → Bool
  | .stop (.returned first) => first
  | _ => false

/-- A `Stop` call that has been through the mutex. -/
def ManagerThread.entered : ManagerThread → Bool
  | .stop pc => pc != .enter
  | _ => false

/-- A watcher that has not returned, or the `Start` that is to begin one: only these can
still call the callback. -/
def ManagerThread.watching : ManagerThread → Bool
  | .start pc => pc != .returned
  | .watcher pc => pc != .returned
  | .stop _ => false

/-- A watcher that has looked at `stopChan` and is about to call the callback. -/
def ManagerThread.invoking : ManagerThread → Bool
  | .watcher .invoke => true
  | _ => false

/-- The invariant of the manager: the one `Stop` call that was first closes `stopChan`,
and a call of the callback that begins after the close was let through before it. -/
structure ManagerInv (p : Pool Manager ManagerThread) : Prop where
  alive : p.shared.panicked = false
  first : p.threads.countP ManagerThread.first = p.shared.stopped.toNat
  closes : p.shared.closes = p.threads.countP ManagerThread.firstDone
  closed : p.shared.stopChanClosed.toNat = p.shared.closes
  watching : p.threads.countP ManagerThread.watching ≤ 1
  entered : ∀ t ∈ p.threads, t.entered = true → p.shared.stopped = true
  early : p.shared.stopChanClosed = false → p.shared.late = 0
  late : p.shared.late + p.threads.countP ManagerThread.invoking ≤ 1

theorem ManagerThread.watching_of_invoking {t : ManagerThread} (h : t.invoking = true) :
    t.watching = true := by
  cases t with
  | start pc => cases h
  | stop pc => cases h
  | watcher pc => cases pc <;> first | rfl | cases h

/-- A `Stop` call that was first and has not returned finds `stopChan` open. -/
theorem ManagerInv.open_of_first {p : Pool Manager ManagerThread} (hi : ManagerInv p)
    {l r : List ManagerThread} {t : ManagerThread} (hl : p.threads = l ++ t :: r)
    (hf : t.first = true) (hd : t.firstDone = false) : p.shared.stopChanClosed = false := by
  have hone := hi.first
  have hdone := hi.closes
  have hclosed := hi.closed
  have hle : p.shared.stopped.toNat ≤ 1 := Bool.toNat_le _
  -- the only first call is this one
  have hnone : p.threads.countP ManagerThread.firstDone = 0 := by
    rw [List.countP_eq_zero]
    intro u hu hu'
    rw [hl] at hone hu
    rcases eq_or_mem_others hu with rfl | hu
    · rw [hd] at hu'
      cases hu'
    · have hfalse := not_of_countP_le_one (hone.trans_le hle) hf hu
      cases u with
      | stop pc =>
          cases pc with
          | returned first => rw [show first = true from hu'] at hfalse; cases hfalse
          | _ => cases hu'
      | start pc => cases hu'
      | watcher pc => cases hu'
  cases hc : p.shared.stopChanClosed with
  | false => rfl
  | true =>
      rw [hc, hdone, hnone] at hclosed
      cases hclosed

/-- What a step of one goroutine does to the counts. -/
structure ManagerThread.Effect (m : Manager) (t : ManagerThread) (m' : Manager)
    (t' : ManagerThread) (new : List ManagerThread) : Prop where
  alive : m'.panicked = m.panicked
  first : t'.first.toNat + m.stopped.toNat = t.first.toNat + m'.stopped.toNat
  closes : m'.closes + t.firstDone.toNat = m.closes + t'.firstDone.toNat
  closed : m'.stopChanClosed.toNat + m.closes = m.stopChanClosed.toNat + m'.closes
  watching : t'.watching.toNat + new.countP ManagerThread.watching ≤ t.watching.toNat
  stopped : m.stopped = true → m'.stopped = true
  entered : t'.entered = true → t.entered = true ∨ m'.stopped = true
  early : m.stopChanClosed = false → m'.late = m.late
  late : m.stopChanClosed = true → m'.stopChanClosed = true ∧
    m'.late + t'.invoking.toNat ≤ m.late + t.invoking.toNat
  spawned : ∀ u ∈ new, u = .watcher .waiting

/-- A step that writes at most `connected` and starts nobody. -/
theorem ManagerThread.effect_of_connected {m : Manager} {t t' : ManagerThread} (b : Bool)
    (hfirst : t'.first = t.first) (hdone : t'.firstDone = t.firstDone)
    (hw : t'.watching.toNat ≤ t.watching.toNat)
    (hst : t'.entered = true → t.entered = true ∨ m.stopped = true)
    (hin : m.stopChanClosed = true → t'.invoking = false) :
    t.Effect m { m with connected := b } t' [] := by
  refine ⟨rfl, ?_, ?_, rfl, hw, id, hst, fun _ => rfl, fun hc => ⟨hc, ?_⟩, nofun⟩
  · rw [hfirst]
  · rw [hdone]
  · rw [hin hc]
    exact Nat.le_add_right _ _

/-- A `Stop` call sets `stopped` once, and closes the channel once. -/
theorem StopCall.step_effect {m m' : Manager} {pc pc' : StopCall} (h : pc.step m = some (m', pc'))
    (hopen : (ManagerThread.stop pc).first = true → (ManagerThread.stop pc).firstDone = false →
      m.stopChanClosed = false) : ManagerThread.Effect m (.stop pc) m' (.stop pc') [] := by
  cases pc with
  | enter =>
      rw [StopCall.step] at h
      split_ifs at h with hst <;> cases h
      · exact ManagerThread.effect_of_connected false rfl rfl le_rfl (fun _ => .inr hst)
          fun _ => rfl
      · refine ⟨rfl, ?_, rfl, rfl, le_rfl, fun _ => rfl, fun _ => .inr rfl, fun _ => rfl,
          fun hc => ⟨hc, le_rfl⟩, nofun⟩
        rw [show m.stopped = false by simpa using hst]
        rfl
  | select =>
      have hc := hopen rfl rfl
      rw [StopCall.step, hc] at h
      cases h
      exact ManagerThread.effect_of_connected m.connected rfl rfl le_rfl (fun _ => .inl rfl)
        fun _ => rfl
  | close =>
      have hc := hopen rfl rfl
      rw [StopCall.step, hc] at h
      cases h
      refine ⟨rfl, rfl, rfl, ?_, le_rfl, id, fun _ => .inl rfl, fun _ => rfl, fun hc' => ?_, nofun⟩
      · rw [hc]
        show 1 + m.closes = 0 + (m.closes + 1)
        omega
      · rw [hc] at hc'
        cases hc'
  | returned first => cases h

/-- Starting a watcher at the end of one's own work leaves the counts alone. -/
theorem ManagerThread.effect_of_handover {m : Manager} {t t' : ManagerThread}
    (hfirst : t'.first = t.first) (hdone : t'.firstDone = t.firstDone)
    (hw : t.watching = true) (hw' : t'.watching = false) (hst : t'.entered = false)
    (hin : t'.invoking = false) : t.Effect m m t' [.watcher .waiting] := by
  refine ⟨rfl, ?_, ?_, rfl, ?_, id, fun h => ?_, fun _ => rfl, fun hc => ⟨hc, ?_⟩, fun u hu => ?_⟩
  · rw [hfirst]
  · rw [hdone]
  · rw [hw, hw']
    exact le_rfl
  · rw [hst] at h
    cases h
  · rw [hin]
    exact Nat.le_add_right _ _
  · exact List.mem_singleton.1 hu

theorem StartCall.step_effect {m m' : Manager} {pc pc' : StartCall} {next : Bool}
    (h : pc.step m = some (m', pc', next)) :
    ManagerThread.Effect m (.start pc) m' (.start pc')
      (if next then [.watcher .waiting] else []) := by
  cases pc with
  | enter =>
      cases h
      exact ManagerThread.effect_of_connected true rfl rfl le_rfl nofun fun _ => rfl
  | spawn =>
      cases h
      exact ManagerThread.effect_of_handover rfl rfl rfl rfl rfl rfl
  | returned => cases h

/-- A watcher stays one watcher, and calls the callback late only if it was let
through. -/
theorem Watching.step_effect {m m' : Manager} {b : WatchEvent} {pc pc' : Watching} {next : Bool}
    (h : pc.step m b = some (m', pc', next)) :
    ManagerThread.Effect m (.watcher pc) m' (.watcher pc')
      (if next then [.watcher .waiting] else []) := by
  have hquiet : ∀ {pc pc' : Watching} (b : Bool), (ManagerThread.watcher pc).watching = true →
      (m.stopChanClosed = true → (ManagerThread.watcher pc').invoking = false) →
      ManagerThread.Effect m (.watcher pc) { m with connected := b } (.watcher pc') [] := by
    intro pc pc' b hw hin
    refine ManagerThread.effect_of_connected b rfl rfl ?_ nofun hin
    rw [hw]
    exact Bool.toNat_le _
  cases pc with
  | waiting =>
      cases b with
      | stop =>
          rw [Watching.step] at h
          split_ifs at h
          cases h
          exact hquiet m.connected rfl fun _ => rfl
      | notified isError =>
          cases h
          cases isError <;> exact hquiet m.connected rfl fun _ => rfl
      | result ok => cases h
      | timer => cases h
  | disconnected =>
      cases h
      exact hquiet false rfl fun _ => rfl
  | check =>
      cases h
      refine hquiet m.connected rfl fun hc => ?_
      rw [hc]
      rfl
  | invoke =>
      cases h
      refine ⟨rfl, rfl, rfl, rfl, le_rfl, id, nofun, fun hc => ?_, fun hc => ⟨hc, ?_⟩, nofun⟩
      · rw [hc]
        rfl
      · rw [hc]
        exact le_rfl
  | running =>
      cases b with
      | result ok =>
          cases h
          cases ok <;> exact hquiet m.connected rfl fun _ => rfl
      | stop => cases h
      | notified isError => cases h
      | timer => cases h
  | established =>
      cases h
      exact hquiet true rfl fun _ => rfl
  | renotify =>
      cases h
      exact hquiet m.connected rfl fun _ => rfl
  | handover =>
      cases h
      exact ManagerThread.effect_of_handover rfl rfl rfl rfl rfl rfl
  | backoff =>
      cases b with
      | stop =>
          rw [Watching.step] at h
          split_ifs at h
          cases h
          exact hquiet m.connected rfl fun _ => rfl
      | timer =>
          cases h
          exact hquiet m.connected rfl fun _ => rfl
      | notified isError => cases h
      | result ok => cases h
  | returned => cases h

theorem ManagerThread.step_effect {m m' : Manager} {b : WatchEvent} {t t' : ManagerThread}
    {new : List ManagerThread} (h : t.step m b = some (m', t', new))
    (hopen : t.first = true → t.firstDone = false → m.stopChanClosed = false) :
    t.Effect m m' t' new := by
  cases t with
  | start pc =>
      obtain ⟨⟨m₁, pc₁, next⟩, hq, he⟩ := Option.map_eq_some_iff.1 h
      cases he
      exact StartCall.step_effect hq
  | stop pc =>
      obtain ⟨⟨m₁, pc₁⟩, hq, he⟩ := Option.map_eq_some_iff.1 h
      cases he
      exact StopCall.step_effect hq hopen
  | watcher pc =>
      obtain ⟨⟨m₁, pc₁, next⟩, hq, he⟩ := Option.map_eq_some_iff.1 h
      cases he
      exact Watching.step_effect hq

/-- The watcher that a step starts is none of those that are counted, but for one that
can still call the callback. -/
theorem ManagerThread.Effect.countP_new {m m' : Manager} {t t' : ManagerThread}
    {new : List ManagerThread} (h : t.Effect m m' t' new) {f : ManagerThread → Bool}
    (hf : f (.watcher .waiting) = false) : new.countP f = 0 := by
  rw [List.countP_eq_zero]
  intro u hu
  rw [h.spawned u hu, hf]
  exact Bool.false_ne_true

section Run

variable {p : Pool Manager ManagerThread} {l r new : List ManagerThread} {t t' : ManagerThread}
  {m : Manager}

theorem ManagerInv.entered_run (hi : ManagerInv p) (hl : p.threads = l ++ t :: r)
    (he : t.Effect p.shared m t' new) :
    ∀ u ∈ l ++ t' :: r ++ new, u.entered = true → m.stopped = true := by
  have hold := hl ▸ hi.entered
  refine forall_focus hold (fun u _ hu hu' => he.stopped (hu hu')) (fun hu => ?_)
    fun u hu hu' => ?_
  · rcases he.entered hu with hu | hu
    · exact he.stopped (hold t (mem_focus_self l r t) hu)
    · exact hu
  · rw [he.spawned u hu] at hu'
    cases hu'

/-- **At most one call of the callback is late**: the one of the watcher that was let
through before the close. -/
theorem ManagerInv.late_run (hi : ManagerInv p) (hl : p.threads = l ++ t :: r)
    (he : t.Effect p.shared m t' new)
    (hw : (l ++ t' :: r ++ new).countP ManagerThread.watching ≤ 1) :
    m.late + (l ++ t' :: r ++ new).countP ManagerThread.invoking ≤ 1 := by
  have hinvoke := countP_focus l r new t t' ManagerThread.invoking
  rw [← hl, he.countP_new rfl] at hinvoke
  have hlate := hi.late
  cases hc : p.shared.stopChanClosed with
  | false =>
      -- whoever is let through is the one watcher
      have hmono : (l ++ t' :: r ++ new).countP ManagerThread.invoking ≤
          (l ++ t' :: r ++ new).countP ManagerThread.watching :=
        List.countP_mono_left fun _ _ => ManagerThread.watching_of_invoking
      have h₀ := (he.early hc).trans (hi.early hc)
      omega
  | true =>
      have := (he.late hc).2
      omega

/-- **A step keeps the invariant.** -/
theorem ManagerInv.run {b : WatchEvent} (hi : ManagerInv p) (hl : p.threads = l ++ t :: r)
    (h : t.step p.shared b = some (m, t', new)) : ManagerInv ⟨m, l ++ t' :: r ++ new⟩ := by
  have he := ManagerThread.step_effect h (hi.open_of_first hl)
  have hfirst := countP_focus l r new t t' ManagerThread.first
  have hdone := countP_focus l r new t t' ManagerThread.firstDone
  have hwatch := countP_focus l r new t t' ManagerThread.watching
  rw [← hl, he.countP_new rfl] at hfirst hdone
  rw [← hl] at hwatch
  have hone := hi.first
  have hcloses := hi.closes
  have hclosed := hi.closed
  have hw : (l ++ t' :: r ++ new).countP ManagerThread.watching ≤ 1 := by
    have hle := hi.watching
    have := he.watching
    omega
  refine ⟨he.alive.trans hi.alive, ?_, ?_, ?_, hw, hi.entered_run hl he, fun hc => ?_,
    hi.late_run hl he hw⟩
  · have := he.first
    show (l ++ t' :: r ++ new).countP ManagerThread.first = m.stopped.toNat
    omega
  · have := he.closes
    show m.closes = (l ++ t' :: r ++ new).countP ManagerThread.firstDone
    omega
  · have := he.closed
    show m.stopChanClosed.toNat = m.closes
    omega
  · cases hc₀ : p.shared.stopChanClosed with
    | false => exact (he.early hc₀).trans (hi.early hc₀)
    | true =>
        rw [show m.stopChanClosed = true from (he.late hc₀).1] at hc
        cases hc

end Run

theorem ManagerInv.step {p p' : Pool Manager ManagerThread} {a : ManagerAction}
    (hi : ManagerInv p) (h : managerStep p a = some p') : ManagerInv p' := by
  unfold managerStep at h
  split at h
  · cases h
  · cases a with
    | run i b =>
        obtain ⟨l, t, r, m, t', new, hl, -, -, ha, rfl⟩ := Pool.step_focus h
        exact hi.run hl ha
    | stop =>
        obtain rfl := Option.some.inj h
        have hcount : ∀ f : ManagerThread → Bool, f (.stop .enter) = false →
            (p.threads ++ [ManagerThread.stop .enter]).countP f = p.threads.countP f := by
          intro f hf
          rw [countP_snoc, hf]
          rfl
        refine ⟨hi.alive, ?_, ?_, hi.closed, ?_, fun t ht ht' => ?_, hi.early, ?_⟩
        · exact (hcount ManagerThread.first rfl).trans hi.first
        · exact hi.closes.trans (hcount ManagerThread.firstDone rfl).symm
        · exact (hcount ManagerThread.watching rfl).trans_le hi.watching
        · rcases List.mem_append.1 ht with ht | ht
          · exact hi.entered t ht ht'
          · rw [List.mem_singleton.1 ht] at ht'
            cases ht'
        · show p.shared.late + _ ≤ 1
          rw [hcount ManagerThread.invoking rfl]
          exact hi.late

theorem managerInv_of_run {p : Pool Manager ManagerThread}
    (hr : Run managerStep always startedManager p) : ManagerInv p :=
  hr.invariant ⟨rfl, rfl, rfl, rfl, by decide, by decide, fun _ => rfl, by decide⟩
    fun _ _ _ hi _ h => hi.step h

/-- Once every `Stop` call has returned, the first one has. -/
theorem ManagerInv.closes_of_returned {p : Pool Manager ManagerThread} (hi : ManagerInv p)
    {b : Bool} (hb : .stop (.returned b) ∈ p.threads)
    (hall : ∀ pc, .stop pc ∈ p.threads → ∃ b, pc = .returned b) : p.shared.closes = 1 := by
  have hone := hi.first
  rw [hi.entered _ hb rfl] at hone
  have hpos : 0 < p.threads.countP ManagerThread.first := hone.symm ▸ Nat.one_pos
  obtain ⟨t, ht, hf⟩ := List.countP_pos_iff.1 hpos
  have hd : t.firstDone = true := by
    cases t with
    | start pc => cases hf
    | stop pc =>
        obtain ⟨b, rfl⟩ := hall pc ht
        exact hf
    | watcher pc => cases hf
  have hdone : 0 < p.threads.countP ManagerThread.firstDone := List.countP_pos_iff.2 ⟨t, ht, hd⟩
  have hle : p.shared.stopChanClosed.toNat ≤ 1 := Bool.toNat_le _
  have hcloses := hi.closes
  have hclosed := hi.closed
  omega

/-- **Stopping is safe and stops reconnecting.**  In every state of every run in which
`Start` is called once, with any `Stop` calls, notifications and callback results: no
closed channel was closed; at most one `Stop` call found `stopped` unset, `stopChan` is
closed when that call returns and not before, and it was closed once by the time all
the calls made have returned; at most one watcher can still call the callback; and at
most one call of the callback began after the close. -/
theorem manager_stop_safe {p : Pool Manager ManagerThread}
    (hr : Run managerStep always startedManager p) :
    p.shared.panicked = false ∧
      (p.threads.countP ManagerThread.first ≤ 1 ∧
        p.shared.closes = p.threads.countP ManagerThread.firstDone ∧
        (p.shared.stopChanClosed = true ↔ p.shared.closes = 1)) ∧
      (∀ b, .stop (.returned b) ∈ p.threads →
        (∀ pc, .stop pc ∈ p.threads → ∃ b, pc = .returned b) → p.shared.closes = 1) ∧
      p.threads.countP ManagerThread.watching ≤ 1 ∧ p.shared.late ≤ 1 := by
  have hi := managerInv_of_run hr
  refine ⟨hi.alive, ⟨?_, hi.closes, ?_⟩, fun b hb hall => hi.closes_of_returned hb hall,
    hi.watching, ?_⟩
  · rw [hi.first]
    exact Bool.toNat_le _
  · rw [← hi.closed]
    exact Bool.toNat_eq_one.symm
  · exact (Nat.le_add_right _ _).trans hi.late

/-- Two `Stop` calls cross while the watcher is past its look at `stopChan`: the one
late call of the callback is made. -/
theorem manager_stop_safe_crossing :
    ∃ p, Run managerStep always startedManager p ∧ p.shared.late = 1 ∧
      p.shared.panicked = false ∧ p.shared.closes = p.threads.countP ManagerThread.firstDone ∧
      p.threads.countP ManagerThread.watching ≤ 1 := by
  obtain ⟨p, hr, hp⟩ := exists_run_of_replay managerStep always startedManager
    (fun p => p.shared.late = 1)
    [.run 0 .timer, .run 0 .timer, .run 1 (.notified true), .run 1 .timer, .run 1 .timer,
      .stop, .stop, .run 2 .timer, .run 3 .timer, .run 2 .timer, .run 2 .timer, .run 1 .timer]
    (by decide)
  obtain ⟨halive, hcloses, -, hwatching, -⟩ := manager_stop_safe hr
  exact ⟨p, hr, of_decide_eq_true hp, halive, hcloses.2.1, hwatching⟩

section Client

/-! ### The manager inside the client

The client's model takes these goroutines in larger steps, beside the others. -/

/-- The manager's fields are those of the client. -/
structure Manager.Sees (m : Manager) (s : Client) : Prop where
  connected : m.connected = s.manager.connected
  stopped : m.stopped = s.manager.stopped
  stopChanClosed : m.stopChanClosed = s.manager.stopChanClosed

/-- A client's watcher as the manager has it. -/
def WatchConnection.watching : WatchConnection → Watching
  | .waiting _ => .waiting
  | .disconnected => .disconnected
  | .check _ => .check
  | .callback _ _ => .running
  | .established _ => .established
  | .renotify _ => .renotify
  | .handover _ => .handover
  | .backoff _ => .backoff
  | .returned => .returned

def watchStep (x : Manager × Watching) (b : WatchEvent) : Option (Manager × Watching) :=
  (x.2.step x.1 b).map fun q => (q.1, q.2.1)

def stopStep (x : Manager × StopCall) (_ : Unit) : Option (Manager × StopCall) :=
  x.2.step x.1

variable {m : Manager} {s s' : Client} {o : Choice}

theorem Manager.Sees.of_manager (hm : m.Sees s) (h : s'.manager = s.manager) : m.Sees s' :=
  ⟨h ▸ hm.connected, h ▸ hm.stopped, h ▸ hm.stopChanClosed⟩

/-- **The client's watcher takes the manager's steps**, unless the callback panics: the
steps of the callback are none of the manager's. -/
theorem WatchConnection.Moves.refines {pc pc' : WatchConnection} {new : List Spawn}
    (h : pc.Moves s o s' pc' new) (hp : s'.panicked = false) (hm : m.Sees s) :
    ∃ m', m'.Sees s' ∧ Run watchStep always (m, pc.watching) (m', pc'.watching) := by
  have hone : ∀ {m' : Manager} {w w' : Watching} (b : WatchEvent) (next : Bool),
      w.step m b = some (m', w', next) → Run watchStep always (m, w) (m', w') := by
    intro m' w w' b next hw
    exact .tail (a := b) .refl rfl (by rw [watchStep, hw]; rfl)
  have hclosed := hm.stopChanClosed
  cases h with
  | stop n hc =>
      rw [hc] at hclosed
      exact ⟨m, hm, hone .stop false (if_pos hclosed)⟩
  | receive hn => exact ⟨m, hm.of_manager rfl, hone (.notified true) false rfl⟩
  | closed hn => exact ⟨m, hm, hone (.notified false) false rfl⟩
  | lower =>
      exact ⟨{ m with connected := false }, ⟨rfl, hm.stopped, hm.stopChanClosed⟩,
        hone .timer false rfl⟩
  | quit ms hc =>
      rw [hc] at hclosed
      exact ⟨m, hm, hone .timer false (by rw [watching, Watching.step, hclosed]; rfl)⟩
  | attempt ms hc =>
      rw [hc] at hclosed
      have hcheck : Run watchStep always (m, .check) (m, .invoke) :=
        hone .timer false (by rw [Watching.step, hclosed]; rfl)
      exact ⟨{ m with late := m.late + m.stopChanClosed.toNat },
        ⟨hm.connected, hm.stopped, hm.stopChanClosed⟩, .tail (a := .timer) hcheck rfl rfl⟩
  | callback ms hcb => exact ⟨m, hm.of_manager hcb.frame.manager, .refl⟩
  | success ms hcb =>
      exact ⟨m, hm.of_manager hcb.frame.manager, hone (.result true) false rfl⟩
  | failure ms f hf hstill => exact ⟨m, hm.of_manager rfl, hone (.result false) false rfl⟩
  | panic ms c rest hi hc => cases hp
  | raise c =>
      exact ⟨{ m with connected := true }, ⟨rfl, hm.stopped, hm.stopChanClosed⟩,
        hone .timer false rfl⟩
  | renotify c => exact ⟨m, hm.of_manager rfl, hone .timer false rfl⟩
  | handover n => exact ⟨m, hm, hone .timer true rfl⟩
  | quitBackoff ms hc =>
      rw [hc] at hclosed
      exact ⟨m, hm, hone .stop false (if_pos hclosed)⟩
  | retry ms => exact ⟨m, hm, hone .timer false rfl⟩

/-- **The cleanup calls `Stop`**: its step on the mutex is the call's first, its step on
the channel is the rest of the call, and its other steps are none of the manager's. -/
theorem CleanupWithContext.Moves.refines {pc pc' : CleanupWithContext}
    (h : pc.Moves s o s' pc') (hm : m.Sees s) :
    m.Sees s' ∨ ∃ m', m'.Sees s' ∧
      (pc = .stopManager ∧ StopCall.enter.step m =
          some (m', if pc' = .closeStopChan then .select else .returned false) ∨
        pc = .closeStopChan ∧ Run stopStep always (m, .select) (m', .returned true)) := by
  cases h with
  | stopManager =>
      have hst := hm.stopped
      refine .inr ⟨{ m with connected := false, stopped := true }, ⟨rfl, rfl, hm.stopChanClosed⟩,
        .inl ⟨rfl, ?_⟩⟩
      cases hs : s.manager.stopped with
      | true =>
          rw [hs] at hst
          rw [StopCall.step, if_pos hst]
          exact congrArg some (Prod.ext (by rw [← hst]) rfl)
      | false =>
          rw [hs] at hst
          rw [StopCall.step, if_neg (hst ▸ Bool.false_ne_true)]
          rfl
  | closeStopChan =>
      refine .inr ?_
      cases hc : m.stopChanClosed with
      | true =>
          exact ⟨m, ⟨hm.connected, hm.stopped, hc⟩, .inr ⟨rfl,
            .tail (a := ()) .refl rfl (by rw [stopStep, StopCall.step, hc]; rfl)⟩⟩
      | false =>
          have hselect : Run stopStep always (m, .select) (m, .close) :=
            .tail (a := ()) .refl rfl (by rw [stopStep, StopCall.step, hc]; rfl)
          exact ⟨{ m with stopChanClosed := true, closes := m.closes + 1 },
            ⟨hm.connected, hm.stopped, rfl⟩, .inr ⟨rfl,
              .tail (a := ()) hselect rfl (by rw [stopStep, StopCall.step, hc]; rfl)⟩⟩
  | _ => exact .inl (hm.of_manager rfl)

end Client

end LynxRabbit
