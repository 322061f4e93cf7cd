/-
# The health checker on its own

`HealthChecker` of `managers.go`: `NewHealthChecker`, `SetProbe`, `Start`, `Stop`, `run`
with `performHealthCheck`, and the four getters, any number of each side by side.

A section under the mutex is one step.  `Stop` reads `stopped` under the mutex and then
enters `stopOnce`; whoever comes first closes the channel and sets `stopped`, and the
others wait inside `Do` until it is through.  A check reads the probe, calls it outside
the mutex for as long as it takes, and records its result.

What the checker reports is a function of its history: `HealthView.of` says which, and
`CheckSound` that the fields agree with it.  `closes`, `checks` and the length a getter
found when it was called are that history; nothing of the code reads them.

In the client's model the checker is one record and a ticker.
`HealthRun.step_refines` and `CheckSound.cleanup_refines` say how.
-/

import LynxRabbit.Client.Moves
import LynxRabbit.Runs.Machine
import LynxRabbit.Runs.Pool

namespace LynxRabbit

open Runs

/-- Where a `sync.Once` stands. -/
inductive Once
  | unused
  | running
  | finished
deriving DecidableEq, Repr

/-- `HealthChecker`, with probes by their names in `π` and errors in `ε`; `lastCheck` is
`none` for the zero time. -/
structure Checker (π ε : Type) where
  stopChanClosed : Bool := false
  stopOnce : Once := .unused
  stopped : Bool := false
  probe : Option π := none
  healthy : Bool := true
  lastCheck : Option ℕ := none
  errorCount : ℕ := 0
  lastError : Option ε := none
  panicked : Bool := false
  closes : ℕ := 0
  checks : List (ℕ × Option ε) := []

/-- How the outside resolves a step: the case a `select` takes, what the probe returns, the
time, or nothing to resolve. -/
inductive CheckTurn (ε : Type)
  | tick
  | stop
  | result (err : Option ε)
  | now (time : ℕ)
  | go
deriving DecidableEq, Repr

/-- Where a `run` goroutine stands: in its `select`, or in `performHealthCheck` before it
reads the probe, in the probe, or before it records the result. -/
inductive CheckPc (π ε : Type)
  | select
  | load
  | probing (f : Option π)
  | record (err : Option ε)
  | returned
deriving DecidableEq, Repr

variable {π ε : Type}

/-- The last section of `performHealthCheck`. -/
def Checker.record (s : Checker π ε) (time : ℕ) : Option ε → Checker π ε
  | some e => { s with
      lastCheck := some time, healthy := false, lastError := some e,
      errorCount := s.errorCount + 1, checks := s.checks ++ [(time, some e)] }
  | none => { s with
      lastCheck := some time, healthy := true, lastError := none,
      checks := s.checks ++ [(time, none)] }

/-- One atomic step of `run`. -/
def CheckPc.step (s : Checker π ε) :
    CheckPc π ε → CheckTurn ε → Option (Checker π ε × CheckPc π ε)
  | .select, .tick => some (s, .load)
  | .select, .stop => if s.stopChanClosed then some (s, .returned) else none
  | .load, .go => some (s, .probing s.probe)
  -- without a probe the check succeeds
  | .probing none, .go => some (s, .record none)
  | .probing (some _), .result err => some (s, .record err)
  | .record err, .now time => some (s.record time err, .select)
  | _, _ => none

/-- Where a `Stop` call stands; `close`, `mark` and `leave` are inside `stopOnce.Do`. -/
inductive StopHealth
  | enter
  | once
  | close
  | mark
  | leave
  | returned
deriving DecidableEq, Repr

/-- One atomic step of `Stop`. -/
def StopHealth.step (s : Checker π ε) : StopHealth → Option (Checker π ε × StopHealth)
  | .enter => some (s, if s.stopped then .returned else .once)
  | .once =>
    match s.stopOnce with
    | .unused => some ({ s with stopOnce := .running }, .close)
    | .running => none
    | .finished => some (s, .returned)
  | .close =>
    some (if s.stopChanClosed then { s with panicked := true }
      else { s with stopChanClosed := true, closes := s.closes + 1 }, .mark)
  | .mark => some ({ s with stopped := true }, .leave)
  | .leave => some ({ s with stopOnce := .finished }, .returned)
  | .returned => none

/-- What the checker shows. -/
structure HealthView (ε : Type) where
  healthy : Bool
  lastCheck : Option ℕ
  errorCount : ℕ
  lastError : Option ε
deriving DecidableEq, Repr

def Checker.view (s : Checker π ε) : HealthView ε :=
  ⟨s.healthy, s.lastCheck, s.errorCount, s.lastError⟩

/-- The getters `IsHealthy`, `GetLastCheck`, `GetErrorCount` and `GetLastError`. -/
inductive Getter
  | isHealthy
  | getLastCheck
  | getErrorCount
  | getLastError
deriving DecidableEq, Repr

/-- What a getter returns. -/
inductive Reading (ε : Type)
  | healthy (b : Bool)
  | lastCheck (time : Option ℕ)
  | errorCount (n : ℕ)
  | lastError (err : Option ε)
deriving DecidableEq, Repr

def Getter.read (v : HealthView ε) : Getter → Reading ε
  | .isHealthy => .healthy v.healthy
  | .getLastCheck => .lastCheck v.lastCheck
  | .getErrorCount => .errorCount v.errorCount
  | .getLastError => .lastError v.lastError

/-- A goroutine of the checker, or a call of one of its methods; `since` is the number of
checks recorded when a getter was called. -/
inductive CheckThread (π ε : Type)
  | run (pc : CheckPc π ε)
  | stop (pc : StopHealth)
  | setProbe (f : Option π) (returned : Bool)
  | get (g : Getter) (since : ℕ) (returned : Option (Reading ε))
deriving DecidableEq, Repr

/-- One atomic step of a goroutine or a call. -/
def CheckThread.step (s : Checker π ε) (t : CheckThread π ε) (o : CheckTurn ε) :
    Option (Checker π ε × CheckThread π ε × List (CheckThread π ε)) :=
  match t with
  | .run pc => (pc.step s o).map fun q => (q.1, .run q.2, [])
  | .stop pc => (pc.step s).map fun q => (q.1, .stop q.2, [])
  | .setProbe f false => some ({ s with probe := f }, .setProbe f true, [])
  | .setProbe _ true => none
  | .get g n none => some (s, .get g n (some (g.read s.view)), [])
  | .get _ _ (some _) => none

/-- What can happen next: a step of a thread, or a call. -/
inductive CheckAction (π ε : Type)
  | run (i : ℕ) (o : CheckTurn ε)
  | start
  | stop
  | setProbe (f : Option π)
  | get (g : Getter)
deriving DecidableEq, Repr

/-- The thread a call adds; `Start` does nothing but start the goroutine. -/
def CheckAction.thread? (s : Checker π ε) : CheckAction π ε → Option (CheckThread π ε)
  | .run _ _ => none
  | .start => some (.run .select)
  | .stop => some (.stop .enter)
  | .setProbe f => some (.setProbe f false)
  | .get g => some (.get g s.checks.length none)

/-- The checker and what runs on it. -/
abbrev CheckState (π ε : Type) := Pool (Checker π ε) (CheckThread π ε)

/-- A step of the system; a panic ends the process. -/
def checkStep (p : CheckState π ε) (a : CheckAction π ε) : Option (CheckState π ε) :=
  if p.shared.panicked then none
  else match a with
    | .run i o => p.step CheckThread.step i o
    | a => (a.thread? p.shared).map fun t => ⟨p.shared, p.threads ++ [t]⟩

/-- `NewHealthChecker`. -/
def newHealthChecker : CheckState π ε := ⟨{}, []⟩

/-! ### What a step can do -/

/-- The steps of a goroutine or a call. -/
inductive CheckThread.Moves (s : Checker π ε) :
    CheckThread π ε → Checker π ε → CheckThread π ε → Prop
  | tick : Moves s (.run .select) s (.run .load)
  | quit : s.stopChanClosed = true → Moves s (.run .select) s (.run .returned)
  | load : Moves s (.run .load) s (.run (.probing s.probe))
  | noProbe : Moves s (.run (.probing none)) s (.run (.record none))
  | probed (f : π) (err : Option ε) : Moves s (.run (.probing (some f))) s (.run (.record err))
  | record (err : Option ε) (time : ℕ) :
      Moves s (.run (.record err)) (s.record time err) (.run .select)
  | late : s.stopped = true → Moves s (.stop .enter) s (.stop .returned)
  | enter : s.stopped = false → Moves s (.stop .enter) s (.stop .once)
  | first : s.stopOnce = .unused →
      Moves s (.stop .once) { s with stopOnce := .running } (.stop .close)
  | done : s.stopOnce = .finished → Moves s (.stop .once) s (.stop .returned)
  | panic : s.stopChanClosed = true →
      Moves s (.stop .close) { s with panicked := true } (.stop .mark)
  | close : s.stopChanClosed = false → Moves s (.stop .close)
      { s with stopChanClosed := true, closes := s.closes + 1 } (.stop .mark)
  | mark : Moves s (.stop .mark) { s with stopped := true } (.stop .leave)
  | leave : Moves s (.stop .leave) { s with stopOnce := .finished } (.stop .returned)
  | setProbe (f : Option π) : Moves s (.setProbe f false) { s with probe := f } (.setProbe f true)
  | get (g : Getter) (n : ℕ) : Moves s (.get g n none) s (.get g n (some (g.read s.view)))

theorem CheckPc.moves_of_step {s s' : Checker π ε} {pc pc' : CheckPc π ε} {o : CheckTurn ε}
    (h : pc.step s o = some (s', pc')) : CheckThread.Moves s (.run pc) s' (.run pc') := by
  unfold CheckPc.step at h
  split at h
  · cases h; exact .tick
  · split at h <;> cases h
    exact .quit ‹_›
  · cases h; exact .load
  · cases h; exact .noProbe
  · cases h; exact .probed _ _
  · cases h; exact .record _ _
  · cases h

theorem StopHealth.moves_of_step {s s' : Checker π ε} {pc pc' : StopHealth}
    (h : pc.step s = some (s', pc')) : CheckThread.Moves s (.stop pc) s' (.stop pc') := by
  cases pc with
  | enter =>
      cases hs : s.stopped <;> rw [StopHealth.step, hs] at h <;> cases h
      · exact .enter hs
      · exact .late hs
  | once =>
      cases hs : s.stopOnce <;> rw [StopHealth.step, hs] at h <;> cases h
      · exact .first hs
      · exact .done hs
  | close =>
      rw [StopHealth.step] at h
      split at h <;> cases h
      · exact .panic ‹_›
      · exact .close (eq_false_of_ne_true ‹_›)
  | mark => cases h; exact .mark
  | leave => cases h; exact .leave
  | returned => cases h

theorem CheckThread.moves_of_step {s s' : Checker π ε} {t t' : CheckThread π ε}
    {o : CheckTurn ε} {new : List (CheckThread π ε)} (h : t.step s o = some (s', t', new)) :
    t.Moves s s' t' ∧ new = [] := by
  unfold CheckThread.step at h
  split at h
  · obtain ⟨⟨s₁, pc'⟩, hpc, heq⟩ := Option.map_eq_some_iff.1 h
    cases heq
    exact ⟨CheckPc.moves_of_step hpc, rfl⟩
  · obtain ⟨⟨s₁, pc'⟩, hpc, heq⟩ := Option.map_eq_some_iff.1 h
    cases heq
    exact ⟨StopHealth.moves_of_step hpc, rfl⟩
  · cases h; exact ⟨.setProbe _, rfl⟩
  · cases h
  · cases h; exact ⟨.get _ _, rfl⟩
  · cases h

/-- What a step of the system does: a thread moves, or a call is made. -/
theorem checkStep_cases {p p' : CheckState π ε} {a : CheckAction π ε}
    (h : checkStep p a = some p') :
    (∃ l t r s' t', p.threads = l ++ t :: r ∧ t.Moves p.shared s' t' ∧
        p' = ⟨s', l ++ t' :: r ++ []⟩) ∨
      ∃ t, a.thread? p.shared = some t ∧ p' = ⟨p.shared, p.threads ++ [t]⟩ := by
  unfold checkStep at h
  split at h
  · cases h
  · split at h
    · obtain ⟨l, t, r, s', t', new, hl, -, -, hact, rfl⟩ := Pool.step_focus h
      obtain ⟨hm, rfl⟩ := CheckThread.moves_of_step hact
      exact .inl ⟨l, t, r, s', t', hl, hm, rfl⟩
    · obtain ⟨t, ht, rfl⟩ := Option.map_eq_some_iff.1 h
      exact .inr ⟨t, ht, rfl⟩

/-! ### The history decides what the checker shows -/

/-- What a checker shows after these checks. -/
def HealthView.of (checks : List (ℕ × Option ε)) : HealthView ε where
  healthy := (checks.getLast?.bind Prod.snd).isNone
  lastCheck := checks.getLast?.map Prod.fst
  errorCount := checks.countP fun c => c.2.isSome
  lastError := checks.getLast?.bind Prod.snd

/-- A recorded check is one more check in the view. -/
theorem Checker.view_record {s : Checker π ε} (h : s.view = .of s.checks) (time : ℕ)
    (err : Option ε) : (s.record time err).view = .of (s.record time err).checks := by
  have hcount : s.errorCount = s.checks.countP fun c => c.2.isSome :=
    congrArg HealthView.errorCount h
  cases err with
  | none => simp [Checker.record, Checker.view, HealthView.of, hcount]
  | some e => simp [Checker.record, Checker.view, HealthView.of, hcount]

theorem Checker.checks_record (s : Checker π ε) (time : ℕ) (err : Option ε) :
    (s.record time err).checks = s.checks ++ [(time, err)] := by
  cases err <;> rfl

/-- The history only grows, one check at a time. -/
theorem CheckThread.Moves.checks {s s' : Checker π ε} {t t' : CheckThread π ε}
    (h : t.Moves s s' t') : s'.checks = s.checks ∨
      ∃ time err, t = .run (.record err) ∧ s'.checks = s.checks ++ [(time, err)] := by
  cases h with
  | record err time => exact .inr ⟨time, err, rfl, s.checks_record time err⟩
  | _ => exact .inl rfl

/-! ### `Stop` closes the channel once -/

/-- The thread is inside `stopOnce.Do`. -/
def CheckThread.inside : CheckThread π ε → Bool
  | .stop .close => true
  | .stop .mark => true
  | .stop .leave => true
  | _ => false

/-- What a thread relies on. -/
def CheckThread.Fits (s : Checker π ε) : CheckThread π ε → Prop
  | .stop .close => s.stopChanClosed = false
  | .stop .mark => s.stopChanClosed = true
  | .stop .leave => s.stopped = true
  | .stop .returned => s.stopped = true
  | .get _ since none => since ≤ s.checks.length
  | .get g since (some r) =>
    ∃ k, since ≤ k ∧ k ≤ s.checks.length ∧ r = g.read (.of (s.checks.take k))
  | _ => True

/-- What holds of the checker in every interleaving. -/
structure CheckSound (p : CheckState π ε) : Prop where
  inside : p.threads.countP CheckThread.inside = (decide (p.shared.stopOnce = .running)).toNat
  panicked : p.shared.panicked = false
  closes : p.shared.closes = p.shared.stopChanClosed.toNat
  unused : p.shared.stopOnce = .unused → p.shared.stopChanClosed = false
  finished : p.shared.stopOnce = .finished → p.shared.stopped = true
  stopped : p.shared.stopped = true → p.shared.stopChanClosed = true
  view : p.shared.view = .of p.shared.checks
  fits : ∀ t ∈ p.threads, t.Fits p.shared

/-- What a thread relies on stays when the flags it read stay and the history grows. -/
theorem CheckThread.Fits.mono {s s' : Checker π ε} {u : CheckThread π ε} (h : u.Fits s)
    (hopen : u.inside = true → s'.stopChanClosed = s.stopChanClosed)
    (hstopped : s.stopped = true → s'.stopped = true) (hchecks : s.checks <+: s'.checks) :
    u.Fits s' := by
  obtain ⟨more, hmore⟩ := hchecks
  have hlen : s.checks.length ≤ s'.checks.length := by rw [← hmore, List.length_append]; omega
  unfold CheckThread.Fits at h ⊢
  split at h
  · rwa [hopen rfl]
  · rwa [hopen rfl]
  · exact hstopped h
  · exact hstopped h
  · exact h.trans hlen
  · obtain ⟨k, hk, hle, rfl⟩ := h
    refine ⟨k, hk, hle.trans hlen, ?_⟩
    rw [← hmore, List.take_append_of_le_length hle]
  · trivial

theorem checkSound_new : CheckSound (newHealthChecker : CheckState π ε) where
  inside := rfl
  panicked := rfl
  closes := rfl
  unused := fun _ => rfl
  finished := fun h => by cases h
  stopped := fun h => by cases h
  view := rfl
  fits := fun t ht => by cases ht

/-- A call relies on nothing yet. -/
theorem CheckSound.call {p : CheckState π ε} (h : CheckSound p) {a : CheckAction π ε}
    {t : CheckThread π ε} (ht : a.thread? p.shared = some t) :
    CheckSound ⟨p.shared, p.threads ++ [t]⟩ := by
  have hnew : t.inside = false ∧ t.Fits p.shared := by
    cases a <;> cases ht
    · exact ⟨rfl, trivial⟩
    · exact ⟨rfl, trivial⟩
    · exact ⟨rfl, trivial⟩
    · exact ⟨rfl, Nat.le_refl _⟩
  refine { h with inside := ?_, fits := ?_ }
  · rw [countP_snoc, hnew.1]
    exact h.inside
  · intro u hu
    rcases List.mem_append.1 hu with hu | hu
    · exact h.fits u hu
    · rw [List.mem_singleton.1 hu]
      exact hnew.2

/-- `Stop` and its channel stand as before. -/
structure Checker.SameFlags (s s' : Checker π ε) : Prop where
  stopChanClosed : s'.stopChanClosed = s.stopChanClosed
  stopOnce : s'.stopOnce = s.stopOnce
  stopped : s'.stopped = s.stopped
  panicked : s'.panicked = s.panicked
  closes : s'.closes = s.closes

section Step

variable {p : CheckState π ε} {l r : List (CheckThread π ε)} {t t' : CheckThread π ε}
  {s' : Checker π ε}

/-- What the threads rely on after a step. -/
theorem CheckSound.fits_focus (h : CheckSound p) (hl : p.threads = l ++ t :: r)
    (hopen : ∀ u ∈ l ++ r, u.inside = true → s'.stopChanClosed = p.shared.stopChanClosed)
    (hstopped : p.shared.stopped = true → s'.stopped = true)
    (hchecks : p.shared.checks <+: s'.checks) (hfits : t'.Fits s') :
    ∀ u ∈ l ++ t' :: r ++ [], u.Fits s' :=
  forall_focus (hl ▸ h.fits) (fun u hu hf => hf.mono (hopen u hu) hstopped hchecks) hfits
    fun u hu => by cases hu

/-- A move that is none inside `Do`: the thread that moved brings its own part. -/
theorem CheckSound.outside (h : CheckSound p) (hl : p.threads = l ++ t :: r)
    (hs : p.shared.SameFlags s') (hview : s'.view = .of s'.checks)
    (hchecks : p.shared.checks <+: s'.checks) (hin : t'.inside = t.inside) (hfits : t'.Fits s') :
    CheckSound ⟨s', l ++ t' :: r ++ []⟩ := by
  have hcount := countP_focus l r [] t t' CheckThread.inside
  rw [hin, ← hl, h.inside, List.countP_nil] at hcount
  refine ⟨?_, ?_, ?_, ?_, ?_, ?_, hview, ?_⟩
  · rw [hs.stopOnce]
    exact Nat.add_right_cancel hcount
  · rw [hs.panicked, h.panicked]
  · rw [hs.closes, hs.stopChanClosed, h.closes]
  · rw [hs.stopOnce, hs.stopChanClosed]
    exact h.unused
  · rw [hs.stopOnce, hs.stopped]
    exact h.finished
  · rw [hs.stopped, hs.stopChanClosed]
    exact h.stopped
  · exact h.fits_focus hl (fun _ _ _ => hs.stopChanClosed) (fun hst => hs.stopped.trans hst)
      hchecks hfits

/-- The call inside `Do` is alone there. -/
theorem CheckSound.alone (h : CheckSound p) (hl : p.threads = l ++ t :: r)
    (ht : t.inside = true) :
    p.shared.stopOnce = .running ∧ ∀ u ∈ l ++ r, u.inside = false := by
  have hle : (l ++ t :: r).countP CheckThread.inside ≤ 1 := by
    rw [← hl, h.inside]
    exact Bool.toNat_le _
  refine ⟨?_, fun u hu => not_of_countP_le_one hle ht hu⟩
  have hpos : 0 < p.threads.countP CheckThread.inside :=
    List.countP_pos_iff.2 ⟨t, hl ▸ mem_focus_self l r t, ht⟩
  rw [h.inside] at hpos
  by_contra hne
  rw [decide_eq_false hne] at hpos
  exact Nat.lt_irrefl 0 hpos

/-- The first call enters `Do`. -/
theorem CheckSound.first (h : CheckSound p) (hl : p.threads = l ++ .stop .once :: r)
    (hu : p.shared.stopOnce = .unused) :
    CheckSound ⟨{ p.shared with stopOnce := .running }, l ++ .stop .close :: r ++ []⟩ := by
  have hcount := countP_focus l r [] (.stop .once) (.stop .close) CheckThread.inside
  rw [← hl, h.inside, hu, List.countP_nil] at hcount
  exact ⟨hcount, h.panicked, h.closes, fun hc => (by cases hc), fun hc => (by cases hc), h.stopped,
    h.view, h.fits_focus hl (fun _ _ _ => rfl) id (List.prefix_refl _) (h.unused hu)⟩

/-- It closes the channel. -/
theorem CheckSound.close (h : CheckSound p) (hl : p.threads = l ++ .stop .close :: r)
    (hc : p.shared.stopChanClosed = false) :
    CheckSound ⟨{ p.shared with stopChanClosed := true, closes := p.shared.closes + 1 },
      l ++ .stop .mark :: r ++ []⟩ := by
  have hcount := countP_focus l r [] (.stop .close) (.stop .mark) CheckThread.inside
  rw [← hl, h.inside, List.countP_nil] at hcount
  obtain ⟨hrun, halone⟩ := h.alone hl rfl
  refine ⟨Nat.add_right_cancel hcount, h.panicked, ?_, fun hu => ?_, h.finished, fun _ => rfl,
    h.view, h.fits_focus hl (fun u hu hin => ?_) id (List.prefix_refl _) rfl⟩
  · show p.shared.closes + 1 = 1
    rw [h.closes, hc]
    rfl
  · cases hrun.symm.trans hu
  · rw [halone u hu] at hin
    cases hin

/-- It sets `stopped`. -/
theorem CheckSound.mark (h : CheckSound p) (hl : p.threads = l ++ .stop .mark :: r) :
    CheckSound ⟨{ p.shared with stopped := true }, l ++ .stop .leave :: r ++ []⟩ := by
  have hclosed : p.shared.stopChanClosed = true :=
    h.fits (.stop .mark) (hl ▸ mem_focus_self l r _)
  have hcount := countP_focus l r [] (.stop .mark) (.stop .leave) CheckThread.inside
  rw [← hl, h.inside, List.countP_nil] at hcount
  exact ⟨Nat.add_right_cancel hcount, h.panicked, h.closes, h.unused, fun _ => rfl,
    fun _ => hclosed, h.view,
    h.fits_focus hl (fun _ _ _ => rfl) (fun _ => rfl) (List.prefix_refl _) rfl⟩

/-- It leaves `Do`. -/
theorem CheckSound.leave (h : CheckSound p) (hl : p.threads = l ++ .stop .leave :: r) :
    CheckSound ⟨{ p.shared with stopOnce := .finished }, l ++ .stop .returned :: r ++ []⟩ := by
  have hstopped : p.shared.stopped = true :=
    h.fits (.stop .leave) (hl ▸ mem_focus_self l r _)
  have hcount := countP_focus l r [] (.stop .leave) (.stop .returned)
    CheckThread.inside
  rw [← hl, h.inside, (h.alone hl rfl).1, List.countP_nil] at hcount
  exact ⟨Nat.succ.inj hcount, h.panicked, h.closes, fun hc => (by cases hc), fun _ => hstopped,
    h.stopped, h.view,
    h.fits_focus hl (fun _ _ _ => rfl) id (List.prefix_refl _) hstopped⟩

/-- **One step keeps what holds of the checker.** -/
theorem CheckSound.moves (h : CheckSound p) (hl : p.threads = l ++ t :: r)
    (hm : t.Moves p.shared s' t') : CheckSound ⟨s', l ++ t' :: r ++ []⟩ := by
  have hsame : p.shared.SameFlags p.shared := by constructor <;> rfl
  have hpre := List.prefix_refl p.shared.checks
  have ht : t.Fits p.shared := h.fits t (hl ▸ mem_focus_self l r t)
  cases hm with
  | tick => exact h.outside hl hsame h.view hpre rfl trivial
  | quit hc => exact h.outside hl hsame h.view hpre rfl trivial
  | load => exact h.outside hl hsame h.view hpre rfl trivial
  | noProbe => exact h.outside hl hsame h.view hpre rfl trivial
  | probed f err => exact h.outside hl hsame h.view hpre rfl trivial
  | record err time =>
      refine h.outside hl ?_ (Checker.view_record h.view time err) ?_ rfl trivial
      · cases err <;> constructor <;> rfl
      · rw [Checker.checks_record]
        exact List.prefix_append _ _
  | late hst => exact h.outside hl hsame h.view hpre rfl hst
  | enter hst => exact h.outside hl hsame h.view hpre rfl trivial
  | first hu => exact h.first hl hu
  | done hd => exact h.outside hl hsame h.view hpre rfl (h.finished hd)
  | panic hc => cases hc.symm.trans ht
  | close hc => exact h.close hl hc
  | mark => exact h.mark hl
  | leave => exact h.leave hl
  | setProbe f => exact h.outside hl ⟨rfl, rfl, rfl, rfl, rfl⟩ h.view hpre rfl trivial
  | get g n =>
      refine h.outside hl hsame h.view hpre rfl ⟨_, ht, Nat.le_refl _, ?_⟩
      rw [List.take_length, h.view]

end Step

theorem CheckSound.step {p p' : CheckState π ε} (h : CheckSound p) {a : CheckAction π ε}
    (hstep : checkStep p a = some p') : CheckSound p' := by
  rcases checkStep_cases hstep with ⟨l, t, r, s', t', hl, hm, rfl⟩ | ⟨t, ht, rfl⟩
  · exact h.moves hl hm
  · exact h.call ht

theorem checkSound_of_run {p : CheckState π ε} (h : Run checkStep always newHealthChecker p) :
    CheckSound p :=
  h.invariant checkSound_new fun _ _ _ hp _ hstep => hp.step hstep

/-! ### Without a probe nothing fails -/

/-- The thread is a call that registers a probe. -/
def CheckThread.registers : CheckThread π ε → Bool
  | .setProbe (some _) _ => true
  | _ => false

/-- The thread has no probe at hand and no error of one. -/
def CheckThread.Blank : CheckThread π ε → Prop
  | .run (.probing f) => f = none
  | .run (.record err) => err = none
  | _ => True

/-- No probe has come in. -/
structure Unprobed (p : CheckState π ε) : Prop where
  probe : p.shared.probe = none
  checks : ∀ c ∈ p.shared.checks, c.2 = none
  blank : ∀ t ∈ p.threads, t.Blank

/-- A thread stays the call it is. -/
theorem CheckThread.Moves.registers {s s' : Checker π ε} {t t' : CheckThread π ε}
    (h : t.Moves s s' t') : t'.registers = t.registers := by
  cases h with
  | setProbe f => cases f <;> rfl
  | _ => rfl

theorem Unprobed.moves {p : CheckState π ε} (h : Unprobed p) {l r : List (CheckThread π ε)}
    {t t' : CheckThread π ε} {s' : Checker π ε} (hl : p.threads = l ++ t :: r)
    (hm : t.Moves p.shared s' t') (hreg : t.registers = false) :
    Unprobed ⟨s', l ++ t' :: r ++ []⟩ := by
  have ht : t.Blank := h.blank t (hl ▸ mem_focus_self l r t)
  refine ⟨?_, ?_, ?_⟩
  · cases hm with
    | record err time => cases err <;> exact h.probe
    | setProbe f =>
        cases f with
        | none => rfl
        | some f => cases hreg
    | _ => exact h.probe
  · rcases hm.checks with hc | ⟨time, err, rfl, hc⟩
    · rw [hc]
      exact h.checks
    · intro c hmem
      rw [hc] at hmem
      rcases List.mem_append.1 hmem with hmem | hmem
      · exact h.checks c hmem
      · rw [List.mem_singleton.1 hmem]
        exact ht
  · refine forall_focus (hl ▸ h.blank) (fun u _ hu => hu) ?_ (fun u hu => by cases hu)
    cases hm with
    | load => exact h.probe
    | noProbe => rfl
    | probed f err => cases ht
    | _ => trivial

theorem unprobed_of_run {p : CheckState π ε} (h : Run checkStep always newHealthChecker p)
    (hreg : ∀ t ∈ p.threads, t.registers = false) : Unprobed p := by
  revert hreg
  refine h.invariant (I := fun p => (∀ t ∈ p.threads, t.registers = false) → Unprobed p) ?_ ?_
  · exact fun _ => ⟨rfl, fun c hc => (by cases hc), fun t ht => (by cases ht)⟩
  · intro p a p' ih _ hstep hreg
    rcases checkStep_cases hstep with ⟨l, t, r, s', t', hl, hm, rfl⟩ | ⟨t, ht, rfl⟩
    · have hself : t.registers = false := hm.registers ▸ hreg t' (mem_focus_moved l r t' [])
      refine (ih ?_).moves hl hm hself
      intro u hu
      rcases eq_or_mem_others (hl ▸ hu) with rfl | hu
      · exact hself
      · exact hreg u (mem_focus_of_others hu t' [])
    · obtain ⟨hprobe, hchecks, hblank⟩ := ih fun u hu => hreg u (List.mem_append_left _ hu)
      refine ⟨hprobe, hchecks, fun u hu => ?_⟩
      rcases List.mem_append.1 hu with hu | hu
      · exact hblank u hu
      · rw [List.mem_singleton.1 hu]
        cases a <;> cases ht <;> trivial

/-- **The health checker in every interleaving** of its ticker goroutines, its `Stop` and
`SetProbe` calls and its getters.  The stop channel is closed once and never twice; a
`Stop` call that has returned left it closed, whichever call closed it.  The four fields
are those of the recorded checks, and a getter returned what some number of them amounts
to, no fewer than had been recorded when it was called.  Unless a probe was registered no
check has failed. -/
theorem health_checker_contract {p : CheckState π ε}
    (h : Run checkStep always newHealthChecker p) :
    p.shared.panicked = false ∧ p.shared.closes ≤ 1 ∧
      (.stop .returned ∈ p.threads →
        p.shared.closes = 1 ∧ p.shared.stopChanClosed = true ∧ p.shared.stopped = true) ∧
      p.shared.view = .of p.shared.checks ∧
      (∀ g since r, .get g since (some r) ∈ p.threads → ∃ k, since ≤ k ∧
        k ≤ p.shared.checks.length ∧ r = g.read (.of (p.shared.checks.take k))) ∧
      ((∀ t ∈ p.threads, t.registers = false) → ∀ c ∈ p.shared.checks, c.2 = none) := by
  have hsound := checkSound_of_run h
  refine ⟨hsound.panicked, ?_, fun hret => ?_, hsound.view, fun g since r hget => ?_,
    fun hreg => (unprobed_of_run h hreg).checks⟩
  · rw [hsound.closes]
    exact Bool.toNat_le _
  · have hst : p.shared.stopped = true := hsound.fits _ hret
    have hc := hsound.stopped hst
    refine ⟨?_, hc, hst⟩
    rw [hsound.closes, hc]
    rfl
  · exact hsound.fits _ hget

/-- Two `Stop` calls meet: one closes the channel while the other waits in `Do`, after a
check whose probe failed and a getter that saw it. -/
theorem health_checker_contract_two_stops :
    ∃ p : CheckState Unit ℕ, Run checkStep always newHealthChecker p ∧
      p.shared.closes = 1 ∧ p.shared.view = .of [(5, some 7)] ∧
      ∃ k, 1 ≤ k ∧ k ≤ 1 ∧
        Reading.errorCount 1 = Getter.getErrorCount.read (.of ([(5, some 7)].take k)) := by
  obtain ⟨p, hr, hp⟩ := exists_run_of_replay checkStep always
    (newHealthChecker : CheckState Unit ℕ)
    (fun p => p.threads.contains (.stop .returned) && p.shared.checks == [(5, some 7)] &&
      p.threads.contains (.get .getErrorCount 1 (some (.errorCount 1))))
    [.setProbe (some ()), .run 0 .go, .start, .run 1 .tick, .run 1 .go, .run 1 (.result (some 7)),
      .run 1 (.now 5), .get .getErrorCount, .run 2 .go, .stop, .stop, .run 3 .go, .run 4 .go,
      .run 3 .go, .run 3 .go, .run 3 .go, .run 3 .go, .run 4 .go]
    (by decide)
  simp only [Bool.and_eq_true, List.contains_iff_mem, beq_iff_eq] at hp
  obtain ⟨⟨hstop, hchecks⟩, hget⟩ := hp
  obtain ⟨-, -, hclosed, hview, hread, -⟩ := health_checker_contract hr
  rw [hchecks] at hview hread
  exact ⟨p, hr, (hclosed hstop).1, hview, hread _ _ _ hget⟩

/-! ### `Stop` brings everything to an end -/

/-- The goroutine or the call has returned. -/
def CheckThread.finished : CheckThread π ε → Bool
  | .run .returned => true
  | .stop .returned => true
  | .setProbe _ returned => returned
  | .get _ _ returned => returned.isSome
  | _ => false

/-- How many steps a thread takes to its end, once the channel is closed. -/
def CheckThread.work : CheckThread π ε → ℕ
  | .run .select => 1
  | .run .load => 4
  | .run (.probing _) => 3
  | .run (.record _) => 2
  | .stop .enter => 5
  | .stop .once => 4
  | .stop .close => 3
  | .stop .mark => 2
  | .stop .leave => 1
  | .setProbe _ false => 1
  | .get _ _ none => 1
  | _ => 0

/-- Only what is running goes on: no further call is made. -/
def onlyThreads (_ : CheckState π ε) : CheckAction π ε → Bool
  | .run _ _ => true
  | _ => false

/-- A thread that waits for nobody can go on towards its end. -/
theorem CheckThread.exists_step {s : Checker π ε} {t : CheckThread π ε} (ht : t.finished = false)
    (honce : t = .stop .once → s.stopOnce ≠ .running)
    (hselect : t = .run .select → s.stopChanClosed = true) :
    ∃ o s' t', t.step s o = some (s', t', []) ∧ t'.work < t.work := by
  cases t with
  | run pc =>
      cases pc with
      | select =>
          refine ⟨.stop, s, .run .returned, ?_, Nat.zero_lt_one⟩
          rw [CheckThread.step, CheckPc.step, if_pos (hselect rfl)]
          rfl
      | load => exact ⟨.go, s, _, rfl, Nat.lt_succ_self 3⟩
      | probing f =>
          cases f with
          | none => exact ⟨.go, s, _, rfl, Nat.lt_succ_self 2⟩
          | some f => exact ⟨.result none, s, _, rfl, Nat.lt_succ_self 2⟩
      | record err => exact ⟨.now 0, _, _, rfl, Nat.lt_succ_self 1⟩
      | returned => cases ht
  | stop pc =>
      cases pc with
      | enter =>
          refine ⟨.go, s, _, rfl, ?_⟩
          show (CheckThread.stop (if s.stopped then .returned else .once)).work < 5
          split
          · exact Nat.zero_lt_succ 4
          · exact Nat.lt_succ_self 4
      | once =>
          cases hs : s.stopOnce with
          | unused =>
              refine ⟨.go, { s with stopOnce := .running }, .stop .close, ?_, Nat.lt_succ_self 3⟩
              rw [CheckThread.step, StopHealth.step, hs]
              rfl
          | running => exact absurd hs (honce rfl)
          | finished =>
              refine ⟨.go, s, .stop .returned, ?_, Nat.zero_lt_succ 3⟩
              rw [CheckThread.step, StopHealth.step, hs]
              rfl
      | close => exact ⟨.go, _, _, rfl, Nat.lt_succ_self 2⟩
      | mark => exact ⟨.go, _, _, rfl, Nat.lt_succ_self 1⟩
      | leave => exact ⟨.go, _, _, rfl, Nat.zero_lt_one⟩
      | returned => cases ht
  | setProbe f returned =>
      cases returned with
      | false => exact ⟨.go, _, _, rfl, Nat.zero_lt_one⟩
      | true => cases ht
  | get g n returned =>
      cases returned with
      | none => exact ⟨.go, s, _, rfl, Nat.zero_lt_one⟩
      | some r => cases ht

/-- A `Stop` call remains one. -/
theorem CheckThread.Moves.stop {s s' : Checker π ε} {pc : StopHealth} {t' : CheckThread π ε}
    (h : CheckThread.Moves s (.stop pc) s' t') : ∃ pc', t' = .stop pc' := by
  cases h <;> exact ⟨_, rfl⟩

/-- **Somebody can go on**, as long as a `Stop` call was made and not everything has
returned: a call that waits in `Do` waits for one that is inside, and a ticker goroutine
that waits in its `select` finds the channel closed when the `Stop` calls are through. -/
theorem CheckSound.exists_ready {p : CheckState π ε} (h : CheckSound p) {pc : StopHealth}
    (hstop : .stop pc ∈ p.threads) {t : CheckThread π ε} (ht : t ∈ p.threads)
    (hfin : t.finished = false) :
    ∃ u ∈ p.threads, u.finished = false ∧ (u = .stop .once → p.shared.stopOnce ≠ .running) ∧
      (u = .run .select → p.shared.stopChanClosed = true) := by
  by_cases hone : ∃ u ∈ p.threads, u.inside = true
  · obtain ⟨u, hu, hin⟩ := hone
    refine ⟨u, hu, ?_, ?_, ?_⟩
    · unfold CheckThread.inside at hin
      split at hin
      · rfl
      · rfl
      · rfl
      · cases hin
    · rintro rfl
      cases hin
    · rintro rfl
      cases hin
  · -- nobody is inside, so nobody waits in `Do`
    have hidle : p.shared.stopOnce ≠ .running := by
      intro hrun
      have hpos : 0 < p.threads.countP CheckThread.inside := by
        rw [h.inside, hrun]
        exact Nat.zero_lt_one
      exact hone (List.countP_pos_iff.1 hpos)
    cases hpc : (CheckThread.stop pc : CheckThread π ε).finished with
    | false => exact ⟨_, hstop, hpc, fun _ => hidle, fun hc => (by cases hc)⟩
    | true =>
        have hclosed : p.shared.stopChanClosed = true := by
          have hfits := h.fits _ hstop
          cases pc with
          | returned => exact h.stopped hfits
          | _ => cases hpc
        exact ⟨t, ht, hfin, fun _ => hidle, fun _ => hclosed⟩

/-- The state between the steps to the end: sound, with a `Stop` call, and `n` threads. -/
structure Stopping (n : ℕ) (p : CheckState π ε) : Prop where
  sound : CheckSound p
  stop : ∃ pc, .stop pc ∈ p.threads
  length : p.threads.length = n

/-- One more step towards the end. -/
theorem Stopping.exists_step {n : ℕ} {p : CheckState π ε} (h : Stopping n p)
    (hnot : ¬ ∀ t ∈ p.threads, t.finished = true) :
    ∃ a p', onlyThreads p a = true ∧ checkStep p a = some p' ∧ Stopping n p' ∧
      (p'.threads.map CheckThread.work).sum < (p.threads.map CheckThread.work).sum := by
  obtain ⟨pc, hpc⟩ := h.stop
  simp only [not_forall] at hnot
  obtain ⟨t, ht, hfin⟩ := hnot
  obtain ⟨u, hu, hufin, honce, hselect⟩ := h.sound.exists_ready hpc ht (eq_false_of_ne_true hfin)
  obtain ⟨o, s', u', hact, hwork⟩ := CheckThread.exists_step hufin honce hselect
  obtain ⟨l, r, hl⟩ := List.append_of_mem hu
  have hm := (CheckThread.moves_of_step hact).1
  refine ⟨.run l.length o, ⟨s', l ++ u' :: r ++ []⟩, rfl, ?_, ⟨h.sound.moves hl hm, ?_, ?_⟩, ?_⟩
  · rw [checkStep, h.sound.panicked]
    exact Pool.step_of_focus hl hact
  · rcases eq_or_mem_others (hl ▸ hpc) with rfl | hpc
    · obtain ⟨pc', rfl⟩ := hm.stop
      exact ⟨pc', mem_focus_moved ..⟩
    · exact ⟨pc, mem_focus_of_others hpc ..⟩
  · rw [← h.length, hl]
    simp
  · have hsum := sum_focus l r [] u u' CheckThread.work
    rw [← hl, List.map_nil, List.sum_nil] at hsum
    simp only
    omega

/-- **`Stop` ends the health checker.**  From every state with a `Stop` call in it, in
whatever order things went so far, the goroutines and calls that are there can all return
without any further call: no `Stop` call waits for one that waits for it, and every ticker
goroutine finds its way out, from the middle of a check too. -/
theorem health_checker_stops {p : CheckState π ε} {pc : StopHealth}
    (h : Run checkStep always newHealthChecker p) (hstop : .stop pc ∈ p.threads) :
    ∃ p', Run checkStep onlyThreads p p' ∧ p'.threads.length = p.threads.length ∧
      ∀ t ∈ p'.threads, t.finished = true := by
  obtain ⟨p', hr, hs, hdone⟩ := exists_run_of_measure
    (fun q : CheckState π ε => (q.threads.map CheckThread.work).sum)
    (fun q hq hnot => Stopping.exists_step hq hnot)
    (⟨checkSound_of_run h, ⟨pc, hstop⟩, rfl⟩ : Stopping p.threads.length p)
  exact ⟨p', hr, hs.length, hdone⟩

/-- Two ticker goroutines, one in its probe, and two `Stop` calls of which one waits for
the other: all four can return. -/
theorem health_checker_stops_in_probe :
    ∃ p p' : CheckState Unit ℕ, Run checkStep always newHealthChecker p ∧
      .run (.probing (some ())) ∈ p.threads ∧ .stop .once ∈ p.threads ∧
      p.shared.stopOnce = .running ∧ Run checkStep onlyThreads p p' ∧
      ∀ t ∈ p'.threads, t.finished = true := by
  obtain ⟨p, hr, hp⟩ := exists_run_of_replay checkStep always
    (newHealthChecker : CheckState Unit ℕ)
    (fun p => p.threads.contains (.run (.probing (some ()))) && p.threads.contains (.stop .once) &&
      p.shared.stopOnce == .running)
    [.setProbe (some ()), .run 0 .go, .start, .start, .run 1 .tick, .run 1 .go, .stop, .stop,
      .run 3 .go, .run 4 .go, .run 3 .go]
    (by decide)
  simp only [Bool.and_eq_true, List.contains_iff_mem, beq_iff_eq] at hp
  obtain ⟨⟨hprobing, honce⟩, hrunning⟩ := hp
  obtain ⟨p', hr', -, hdone⟩ := health_checker_stops hr honce
  exact ⟨p, p', hr, hprobing, honce, hrunning, hr', hdone⟩

section Client

/-! ### The health checker inside the client

The client's model has one ticker goroutine, whose probe is the client's
`connectionProbe`, and `Stop` is a step of the cleanup. -/

variable {f : π} {k : Checker π GoError} {s s' : Client} {o : Choice}

/-- The checker's fields are those of the client. -/
structure Checker.Sees (k : Checker π GoError) (s : Client) : Prop where
  stopChanClosed : k.stopChanClosed = s.health.stopChanClosed
  stopped : k.stopped = s.health.stopped
  healthy : k.healthy = s.health.healthy
  errorCount : k.errorCount = s.health.errorCount
  lastError : k.lastError = s.health.lastError

/-- A client's ticker as the checker has it; reading the probe and calling it is one step
there. -/
def HealthRun.checking : HealthRun → CheckPc π GoError
  | .select => .select
  | .probe => .load
  | .record err => .record err
  | .returned => .returned

def runStep (x : Checker π ε × CheckPc π ε) (o : CheckTurn ε) :
    Option (Checker π ε × CheckPc π ε) :=
  x.2.step x.1 o

def stopHealthStep (x : Checker π ε × StopHealth) (_ : Unit) : Option (Checker π ε × StopHealth) :=
  x.2.step x.1

/-- **The client's ticker takes the checker's steps**, with its own probe registered. -/
theorem HealthRun.step_refines {pc pc' : HealthRun} (h : pc.step s o = some (s', pc'))
    (hk : k.Sees s) (hf : k.probe = some f) :
    ∃ k', k'.Sees s' ∧ k'.probe = some f ∧
      Run runStep always (k, pc.checking) (k', pc'.checking) := by
  have hone : ∀ {x x' : Checker π GoError × CheckPc π GoError} (b : CheckTurn GoError),
      runStep x b = some x' → Run runStep always x x' := by
    intro x x' b hb
    exact .tail (a := b) .refl rfl hb
  cases pc with
  | select =>
      rw [HealthRun.step] at h
      split_ifs at h with hstop hclosed <;> cases h
      · exact ⟨k, hk, hf, hone .stop (if_pos (hk.stopChanClosed.trans hclosed))⟩
      · exact ⟨k, hk, hf, hone .tick rfl⟩
  | probe =>
      cases h
      have hload : Run runStep always (k, .load) (k, .probing (some f)) :=
        hone .go (by rw [runStep, CheckPc.step, hf])
      exact ⟨k, ⟨hk.1, hk.2, hk.3, hk.4, hk.5⟩, hf,
        .tail (a := .result (s.connectionProbe o).1) hload rfl rfl⟩
  | record err =>
      refine ⟨k.record 0 err, ?_, ?_, ?_⟩
      · cases err with
        | none => cases h; exact ⟨hk.1, hk.2, rfl, hk.4, rfl⟩
        | some e => cases h; exact ⟨hk.1, hk.2, rfl, congrArg (· + 1) hk.4, rfl⟩
      · cases err <;> exact hf
      · cases err <;> cases h <;> exact hone (.now 0) rfl
  | returned => cases h

/-- **The cleanup calls `Stop`**: its step is a whole call, when no other is inside `Do`. -/
theorem CheckSound.cleanup_refines {p : CheckState π GoError} (h : CheckSound p)
    (hk : p.shared.Sees s) (hidle : p.shared.stopOnce ≠ .running) {pc' : CleanupWithContext}
    (hm : CleanupWithContext.Moves s o .stopHealth s' pc') :
    ∃ k', k'.Sees s' ∧ Run stopHealthStep always (p.shared, .enter) (k', .returned) := by
  cases hm
  cases hst : p.shared.stopped with
  | true =>
      refine ⟨p.shared, ⟨h.stopped hst, hst, hk.3, hk.4, hk.5⟩, ?_⟩
      exact .tail (a := ()) .refl rfl (by rw [stopHealthStep, StopHealth.step, if_pos hst])
  | false =>
      have honce : p.shared.stopOnce = .unused := by
        cases hs : p.shared.stopOnce with
        | unused => rfl
        | running => exact absurd hs hidle
        | finished => cases hst.symm.trans (h.finished hs)
      have hopen := h.unused honce
      have henter : Run stopHealthStep always (p.shared, .enter) (p.shared, .once) :=
        .tail (a := ()) .refl rfl (by rw [stopHealthStep, StopHealth.step, hst]; rfl)
      have hfirst : Run stopHealthStep always (p.shared, .enter)
          ({ p.shared with stopOnce := .running }, .close) :=
        .tail (a := ()) henter rfl (by rw [stopHealthStep, StopHealth.step, honce])
      have hclose : Run stopHealthStep always (p.shared, .enter) ({ p.shared with
          stopOnce := .running, stopChanClosed := true, closes := p.shared.closes + 1 }, .mark) :=
        .tail (a := ()) hfirst rfl
          (by rw [stopHealthStep, StopHealth.step, if_neg (by simpa using hopen)])
      have hmark : Run stopHealthStep always (p.shared, .enter) ({ p.shared with
          stopOnce := .running, stopChanClosed := true, closes := p.shared.closes + 1,
          stopped := true }, .leave) := .tail (a := ()) hclose rfl rfl
      exact ⟨{ p.shared with stopOnce := .finished, stopChanClosed := true,
                             closes := p.shared.closes + 1, stopped := true },
        ⟨rfl, rfl, hk.3, hk.4, hk.5⟩, .tail (a := ()) hmark rfl rfl⟩

end Client

end LynxRabbit
