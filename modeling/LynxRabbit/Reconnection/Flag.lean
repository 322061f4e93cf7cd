/-
# The manager's flag at rest

`connected` of the `ConnectionManager` is what `IsConnected` returns.  `Start`, the
watcher and `ForceReconnect` write it; `r.connection` is written by the reconnect
callback, and closed by the broker.  At rest, that is while nobody reconnects and no
watcher has an error to receive, the two should agree.

Two assertions carry the argument.  If the flag is down on an open connection, then
somebody is on the way to raise it: a `ForceReconnect` that fails is not, it returns
with the flag down.  If the flag is up on a closed connection, then a watcher minds it:
it has the error to receive, or is in its loop with this connection or before it has
stored one.  A connection that `ForceReconnect` stored is minded by nobody, and one that
went down before the watcher's `NotifyClose` is not any more.  `keepsFlag` excludes the
steps that break an assertion, and `flag_truthful_at_rest` says that there are no others.
-/

import LynxRabbit.Reconnection.Watch

namespace LynxRabbit

open Runs

/-- The connection an execution of the callback has stored. -/
def Callback.stored : Callback → Option ConnId
  | .dial => none
  | .store _ => none
  | .clearProducers c => some c
  | .clearConsumers c => some c
  | .rebuild c _ => some c
  | .restart c _ _ => some c
  | .dispatch c _ _ _ _ => some c

/-- The outside's answer `o` makes the callback return an error, or panic. -/
def Callback.fails (s : Client) (o : Choice) (cb : Callback) : Bool :=
  match cb.step s o with
  | .next _ _ => false
  | .fail _ _ => true
  | .panic => true

/-- The goroutine reconnects and has yet to raise the flag. -/
def Thread.raises : Thread → Bool
  | .watcher .disconnected => true
  | .watcher (.check _) => true
  | .watcher (.callback _ _) => true
  | .watcher (.backoff _) => true
  | .watcher (.established _) => true
  | .force (.callback _) => true
  | .force .raise => true
  | _ => false

/-- The watcher learns that connection `c` is closed, or replaces it: its receiver has
an error or is one of `c` that will get it, or it is in its loop and has stored `c` or
nothing. -/
def WatchConnection.minds (s : Client) (c : ConnId) : WatchConnection → Bool
  | .waiting n =>
    s.amqp.notify n == .error || s.amqp.notify n == .quiet && s.amqp.notifyConn n == c
  | .handover n =>
    s.amqp.notify n == .error || s.amqp.notify n == .quiet && s.amqp.notifyConn n == c
  | .disconnected => true
  | .check _ => true
  | .backoff _ => true
  | .callback _ cb => cb.stored.all (· == c)
  | .established d => d == c
  | .renotify d => d == c
  | .returned => false

def Thread.minds (s : Client) (c : ConnId) : Thread → Bool
  | .watcher pc => pc.minds s c
  | _ => false

/-- Some watcher minds connection `c`. -/
def minded (p : State) (c : ConnId) : Bool := p.threads.any (Thread.minds p.shared c)

/-- Connection `c` is open, or minded. -/
def attended (p : State) (c : ConnId) : Bool := !p.shared.amqp.closed c || minded p c

/-- What a goroutine's step must not do: `ForceReconnect` fails on an open connection
while nobody else reconnects; it stores a closed one under a raised flag, or the flag is
raised, with nobody minding; `NotifyClose` comes after the close. -/
def Thread.keepsFlag (p : State) (o : Choice) : Thread → Bool
  | .force (.callback cb) =>
    (!cb.fails p.shared o || p.shared.dead || decide (2 ≤ p.threads.countP Thread.raises)) &&
      cb.storing.all fun c => !p.shared.manager.connected || attended p c
  | .force .raise => p.shared.connection.all (attended p)
  | .watcher (.established _) => p.shared.connection.all (attended p)
  | .watcher (.renotify c) =>
    p.shared.connection != some c || !p.shared.manager.connected || !p.shared.amqp.closed c
  | _ => true

/-- No step of a goroutine makes the flag wrong for good, and the broker drops the
stored connection under a raised flag only while a watcher minds it. -/
def keepsFlag (p : State) : Action → Bool
  | .run i o => p.threads[i]?.all (Thread.keepsFlag p o)
  | .drop c => p.shared.connection != some c || !p.shared.manager.connected || minded p c
  | _ => true

/-- The goroutine neither reconnects nor has a close notification to receive. -/
def Thread.atRest (s : Client) : Thread → Bool
  | .watcher (.waiting n) => s.amqp.notify n != .error
  | .watcher pc => !pc.inReconnectLoop
  | .force (.callback _) => false
  | .force .raise => false
  | _ => true

/-- No callback is executing, no watcher is in its loop, no notification is pending. -/
def atRest (p : State) : Bool := p.threads.all (Thread.atRest p.shared)

/-- What holds from `Start` on. -/
structure Truthful (p : State) : Prop where
  reconnect : p.shared.manager.reconnect = true
  stored : p.shared.connection ≠ none
  down : p.shared.manager.connected = false → p.shared.dead = false →
    0 < p.threads.countP Thread.raises
  up : p.shared.manager.connected = true → ∀ c, p.shared.connection = some c →
    attended p c = true

/-! ### Who raises the flag -/

theorem ForceReconnect.fails_of_step {s s' : Client} {o : Choice} {cb : Callback}
    {new : List Spawn} (h : (ForceReconnect.callback cb).step s o = some (s', .returned, new)) :
    cb.fails s o = true := by
  rw [ForceReconnect.step] at h
  rw [Callback.fails]
  split at h
  · cases h
  · cases h
  · rename_i heq
    rw [heq]
  · rename_i heq
    rw [heq]

theorem Thread.fails_of_step {s s' : Client} {o : Choice} {cb : Callback} {new : List Thread}
    (h : (Thread.force (.callback cb)).step s o = some (s', .force .returned, new)) :
    cb.fails s o = true := by
  obtain ⟨⟨s₁, pc₁, sp⟩, hq, he⟩ := Option.map_eq_some_iff.1 h
  cases he
  exact ForceReconnect.fails_of_step hq

/-- What a step does to the flag and to those who raise it. -/
structure FlagStep (s s' : Client) (t t' : Thread) : Prop where
  reconnect : s'.manager.reconnect = s.manager.reconnect
  lowered : s.manager.connected = true → s'.manager.connected = false → t'.raises = true
  raised : s.manager.connected = false → s'.manager.connected = true →
    t = .force .raise ∨ ∃ c, t = .watcher (.established c)
  kept : t.raises = true → t'.raises = true ∨ s'.manager.connected = true ∨
    ∃ cb, t = .force (.callback cb) ∧ t' = .force .returned
  opened : s.dead = true → s'.dead = false → t'.raises = true

theorem FlagStep.of_same {s s' : Client} {t t' : Thread} (hm : s'.manager = s.manager)
    (hk : t.raises = true → t'.raises = true) (ho : s'.dead = s.dead) : FlagStep s s' t t' := by
  refine ⟨by rw [hm], fun h h' => ?_, fun h h' => ?_, fun h => .inl (hk h), fun h h' => ?_⟩
  · rw [hm, h] at h'
    cases h'
  · rw [hm, h] at h'
    cases h'
  · rw [ho, h] at h'
    cases h'

theorem FlagStep.of_raising {s s' : Client} {t t' : Thread} (hm : s'.manager = s.manager)
    (ht : t'.raises = true) : FlagStep s s' t t' := by
  refine ⟨by rw [hm], fun _ _ => ht, fun h h' => ?_, fun _ => .inl ht, fun _ _ => ht⟩
  rw [hm, h] at h'
  cases h'

theorem FlagStep.of_raise {s : Client} {t t' : Thread}
    (ht : t = .force .raise ∨ ∃ c, t = .watcher (.established c)) :
    FlagStep s (s.setConnected true) t t' :=
  ⟨rfl, nofun, fun _ _ => ht, fun _ => .inr (.inl rfl), fun h h' => by
    rw [show s.dead = false from h'] at h; cases h⟩

theorem FlagStep.of_lower {s : Client} {t t' : Thread} (ht : t'.raises = true) :
    FlagStep s (s.setConnected false) t t' :=
  ⟨rfl, fun _ _ => ht, nofun, fun _ => .inl ht, fun _ _ => ht⟩

/-- **The flag goes down only on the way up again**, and whoever is on the way up gets
there, a failing `ForceReconnect` apart. -/
theorem WatchConnection.Moves.flagStep {s s' : Client} {o : Choice} {pc pc' : WatchConnection}
    {new : List Spawn} (h : pc.Moves s o s' pc' new)
    (halive : s.manager.stopChanClosed = false) (hstored : s.connection ≠ none) :
    FlagStep s s' (.watcher pc) (.watcher pc') := by
  cases h with
  | stop n hs => exact .of_same rfl (fun h => by cases h) rfl
  | receive hn => exact .of_raising rfl rfl
  | closed hn => exact .of_same rfl (fun h => by cases h) rfl
  | lower => exact .of_lower rfl
  | quit ms hs => rw [halive] at hs; cases hs
  | attempt ms hs => exact .of_raising rfl rfl
  | callback ms hm => exact .of_raising hm.frame.manager rfl
  | success ms hm => exact .of_raising hm.frame.manager rfl
  | failure ms f hf hcl => exact .of_raising rfl rfl
  | panic ms c rest hi hc => exact absurd hc hstored
  | raise c => exact .of_raise (.inr ⟨c, rfl⟩)
  | renotify c => exact .of_same rfl (fun h => by cases h) rfl
  | handover n => exact .of_same rfl (fun h => by cases h) rfl
  | quitBackoff ms hs => rw [halive] at hs; cases hs
  | retry ms => exact .of_raising rfl rfl

theorem ForceReconnect.Moves.flagStep {s s' : Client} {o : Choice} {pc pc' : ForceReconnect}
    {new : List Spawn} (h : pc.Moves s o s' pc' new) (hwired : s.manager.reconnect = true)
    (hstored : s.connection ≠ none) : FlagStep s s' (.force pc) (.force pc') := by
  cases h with
  | unwired hr => rw [hwired] at hr; cases hr
  | enter hr => exact .of_same rfl (fun h => by cases h) rfl
  | lower => exact .of_lower rfl
  | callback hm => exact .of_raising hm.frame.manager rfl
  | success hm => exact .of_raising hm.frame.manager rfl
  | @failure cb f hf hcl =>
      refine ⟨rfl, fun h h' => ?_, fun h h' => ?_, fun _ => .inr (.inr ⟨cb, rfl, rfl⟩),
        fun h h' => ?_⟩
      · rw [show s.manager.connected = false from h'] at h
        cases h
      · rw [show s.manager.connected = true from h'] at h
        cases h
      · rw [show s.dead = false from h'] at h
        cases h
  | panic c rest hi hc => exact absurd hc hstored
  | raise => exact .of_raise (.inl rfl)

theorem Thread.Moves.flagStep {s s' : Client} {t t' : Thread} {o : Choice} {new : List Thread}
    (h : t.Moves s o s' t' new) (hk : t.isCleanup = false)
    (hsu : ∀ pc, t = .startup pc → pc.settingUp = false)
    (halive : s.manager.stopChanClosed = false) (hwired : s.manager.reconnect = true)
    (hstored : s.connection ≠ none) : FlagStep s s' t t' := by
  by_cases hp : t.passive = true
  · have hs := (h.passive hp).1
    refine .of_same hs.manager (fun hr => ?_) ?_
    · cases t with
      | watcher pc => cases hp
      | force pc => cases hp
      | _ => cases hr
    · rw [Client.dead, Client.dead, hs.connection, hs.closed]
  · cases h with
    | watcher h => exact h.flagStep halive hstored
    | force h => exact h.flagStep hwired hstored
    | cleanup h => cases hk
    | @startup pc pc' s' new h =>
        refine absurd ?_ hp
        rw [Thread.passive, hsu pc rfl]
        rfl
    | _ => exact absurd rfl hp

/-! ### Who minds a connection -/

theorem Thread.minds_congr {s s' : Client} (hn : s'.amqp.notify = s.amqp.notify)
    (hc : s'.amqp.notifyConn = s.amqp.notifyConn) (c : ConnId) (t : Thread) :
    t.minds s' c = t.minds s c := by
  cases t with
  | watcher pc => cases pc <;> simp only [Thread.minds, WatchConnection.minds, hn, hc]
  | _ => rfl

theorem Thread.guardian_of_minds {s : Client} {c : ConnId} {t : Thread}
    (h : t.minds s c = true) : t.guardian = true := by
  cases t with
  | watcher pc => exact guardian_watcher fun hpc => by rw [hpc] at h; cases h
  | _ => cases h

/-- A receiver that minds a closed connection has its error. -/
theorem notify_of_minds {s : Client} (hs : s.amqp.Sound) {c : ConnId} {n : ℕ}
    (hcl : s.amqp.closed c = true)
    (h : (s.amqp.notify n == .error || s.amqp.notify n == .quiet && s.amqp.notifyConn n == c) =
      true) : s.amqp.notify n = .error := by
  rw [Bool.or_eq_true, Bool.and_eq_true, beq_iff_eq, beq_iff_eq, beq_iff_eq] at h
  rcases h with h | ⟨hq, rfl⟩
  · exact h
  · rw [hs n hq] at hcl
    cases hcl

/-- A callback that has stored nothing but `c`, on a client that stores `c`, still has. -/
theorem Callback.Moves.stored {s s' : Client} {o : Choice} {cb : Callback}
    {q : Callback ⊕ ConnId} {new : List Spawn} {c : ConnId} (h : cb.Moves s o s' q new)
    (hc : s'.connection = some c) (hs : cb.stored.all (· == c) = true) :
    (q.elim Callback.stored some).all (· == c) = true := by
  cases h with
  | dial => rfl
  | store d => exact beq_iff_eq.2 (Option.some.inj hc)
  | _ => exact hs

/-- **A watcher that minds the stored connection goes on minding it**, unless it calls
`NotifyClose` on it. -/
theorem WatchConnection.Moves.minds {s s' : Client} {o : Choice} {pc pc' : WatchConnection}
    {new : List Spawn} {c : ConnId} (h : pc.Moves s o s' pc' new) (hsound : s.amqp.Sound)
    (halive : s.manager.stopChanClosed = false) (hstored : s.connection ≠ none)
    (hcl : s.amqp.closed c = true) (hc : s'.connection = some c) (hre : pc ≠ .renotify c)
    (hm : pc.minds s c = true) :
    ∃ u ∈ Thread.watcher pc' :: new.map Spawn.thread, u.minds s' c = true := by
  have hself : pc'.minds s' c = true →
      ∃ u ∈ Thread.watcher pc' :: new.map Spawn.thread, u.minds s' c = true :=
    fun h => ⟨_, List.mem_cons_self, h⟩
  cases h with
  | stop n hs => rw [halive] at hs; cases hs
  | receive hn => exact hself rfl
  | closed hn =>
      rw [notify_of_minds hsound hcl hm] at hn
      cases hn
  | lower => exact hself rfl
  | quit ms hs => rw [halive] at hs; cases hs
  | attempt ms hs => exact hself rfl
  | callback ms hmv => exact hself (hmv.stored hc hm)
  | success ms hmv => exact hself (hmv.stored hc hm)
  | failure ms f hf hst => exact hself rfl
  | panic ms d rest hi hn => exact absurd hn hstored
  | raise d => exact hself hm
  | renotify d => exact absurd (congrArg WatchConnection.renotify (beq_iff_eq.1 hm)) hre
  | handover n => exact ⟨_, List.mem_cons_of_mem _ List.mem_cons_self, hm⟩
  | quitBackoff ms hs => rw [halive] at hs; cases hs
  | retry ms => exact hself rfl

theorem ConnStep.closed_of_closed {s s' : Client} {a b : Option ConnId} (h : ConnStep s s' a b)
    {c : ConnId} (hcl : s'.amqp.closed c = true) : s.amqp.closed c = true := by
  cases h with
  | keep _ _ h => rwa [← h]
  | dial _ _ h =>
      rw [h, Function.update_apply] at hcl
      split_ifs at hcl
      exact hcl
  | store _ _ _ h => rwa [← h]

/-- A goroutine that is not in charge leaves the receivers alone. -/
theorem Thread.Moves.receivers {s s' : Client} {t t' : Thread} {o : Choice} {new : List Thread}
    (h : t.Moves s o s' t' new) (hk : t.isCleanup = false) (hg : t.guardian = false) :
    s'.amqp.notify = s.amqp.notify ∧ s'.amqp.notifyConn = s.amqp.notifyConn := by
  rcases h.bystander hk hg with ⟨c, rfl⟩ | ⟨-, hn, hnc⟩
  · cases h with
    | force hm =>
        cases hm with
        | callback hcb => exact ⟨hcb.frame.notify, hcb.frame.notifyConn⟩
        | success hcb => exact ⟨hcb.frame.notify, hcb.frame.notifyConn⟩
        | failure f hf hst => exact ⟨rfl, rfl⟩
  · exact ⟨hn, hnc⟩

/-- **A minded connection that is stored after a step is still minded.** -/
theorem minded_run {p : State} {l r new : List Thread} {t t' : Thread} {o : Choice}
    {s' : Client} {c : ConnId} (hi : Wiring p) (hl : p.threads = l ++ t :: r)
    (ht : t.Moves p.shared o s' t' new) (hstored : p.shared.connection ≠ none)
    (hcl : p.shared.amqp.closed c = true) (hc : s'.connection = some c)
    (hre : t ≠ .watcher (.renotify c)) (h : minded p c = true) :
    minded ⟨s', l ++ t' :: r ++ new⟩ c = true := by
  obtain ⟨u, hu, hum⟩ := List.any_eq_true.1 h
  rw [hl] at hu
  refine List.any_eq_true.2 ?_
  rcases eq_or_mem_others hu with rfl | hu
  · -- the watcher that minds it moves
    cases ht with
    | watcher hmv =>
        obtain ⟨v, hv, hvm⟩ := hmv.minds hi.sound hi.alive hstored hcl hc
          (fun hpc => hre (congrArg Thread.watcher hpc)) hum
        refine ⟨v, ?_, hvm⟩
        rcases List.mem_cons.1 hv with rfl | hv
        · exact mem_focus_moved l r _ _
        · exact List.mem_append_right _ hv
    | _ => cases hum
  · -- somebody else moves
    have hexcl := hi.one.exclusive
    rw [hl] at hexcl
    have hg := mover_of_countP_le_one hexcl hu (Thread.guardian_of_minds hum)
    obtain ⟨hn, hnc⟩ := ht.receivers (hi.noCleanup t (hl ▸ mem_focus_self l r t)) hg
    refine ⟨u, mem_focus_of_others hu t' new, ?_⟩
    rwa [Thread.minds_congr hn hnc]

/-- **An attended connection that is stored after a step is still attended.** -/
theorem attended_run {p : State} {l r new : List Thread} {t t' : Thread} {o : Choice}
    {s' : Client} {c : ConnId} (hi : Wiring p) (hl : p.threads = l ++ t :: r)
    (ht : t.Moves p.shared o s' t' new) (hstored : p.shared.connection ≠ none)
    (hc : s'.connection = some c)
    (hre : t = .watcher (.renotify c) → p.shared.amqp.closed c = false)
    (h : attended p c = true) : attended ⟨s', l ++ t' :: r ++ new⟩ c = true := by
  have hk := hi.noCleanup t (hl ▸ mem_focus_self l r t)
  have hcs := ht.connStep.resolve_right fun ⟨d, hd⟩ => by rw [hd.mover] at hk; cases hk
  rw [attended, Bool.or_eq_true, Bool.not_eq_true']
  cases hcl' : s'.amqp.closed c with
  | false => exact .inl rfl
  | true =>
      have hcl := hcs.closed_of_closed hcl'
      rw [attended, hcl, Bool.not_true, Bool.false_or] at h
      refine .inr (minded_run hi hl ht hstored hcl hc (fun ht => ?_) h)
      rw [hre ht] at hcl
      cases hcl

/-! ### Steps -/

section Run

variable {p : State} {l r new : List Thread} {t t' : Thread} {o : Choice} {s' : Client}

/-- A flag that is down on an open connection after a step: somebody else is on the way
to raise it, or the goroutine itself. -/
theorem Truthful.down_run (hj : Truthful p) (hl : p.threads = l ++ t :: r)
    (h : t.step p.shared o = some (s', t', new)) (hf : FlagStep p.shared s' t t')
    (hcond : t.keepsFlag p o = true) (hdown : s'.manager.connected = false)
    (hopen : s'.dead = false) : 0 < (l ++ t' :: r ++ new).countP Thread.raises := by
  by_cases hr' : t'.raises = true
  · exact List.countP_pos_iff.2 ⟨t', mem_focus_moved l r t' new, hr'⟩
  · have hdown₀ : p.shared.manager.connected = false := by
      by_contra hc
      exact hr' (hf.lowered (by simpa using hc) hdown)
    have hopen₀ : p.shared.dead = false := by
      by_contra hd
      exact hr' (hf.opened (by simpa using hd) hopen)
    have hpos := hj.down hdown₀ hopen₀
    have hcount := countP_focus l r new t t' Thread.raises
    rw [← hl] at hcount
    by_cases hr : t.raises = true
    · rcases hf.kept hr with hr | hup | ⟨cb, rfl, rfl⟩
      · exact absurd hr hr'
      · rw [hdown] at hup
        cases hup
      · -- a failing `ForceReconnect`: the condition gives another reconnect
        have htwo : 2 ≤ p.threads.countP Thread.raises := by
          simpa [Thread.keepsFlag, Thread.fails_of_step h, hopen₀] using
            (Bool.and_eq_true_iff.1 hcond).1
        rw [show (Thread.force (.callback cb)).raises = true from rfl, Bool.toNat_true] at hcount
        omega
    · rw [show t.raises = false by simpa using hr, Bool.toNat_false] at hcount
      omega

/-- A connection that is stored under a raised flag is attended: by the watcher, if it
is the one who stores it. -/
theorem attended_of_storing {c : ConnId} (hmem : t ∈ p.threads)
    (hsu : ∀ pc, t = .startup pc → pc.settingUp = false) (hcond : t.keepsFlag p o = true)
    (hup : p.shared.manager.connected = true) (hst : t.storing = some c) :
    attended p c = true := by
  cases t with
  | watcher pc =>
      cases pc with
      | callback ms cb =>
          cases cb with
          | store d =>
              rw [attended, Bool.or_eq_true]
              exact .inr (List.any_eq_true.2 ⟨_, hmem, rfl⟩)
          | _ => cases hst
      | _ => cases hst
  | force pc =>
      cases pc with
      | callback cb =>
          have hall := (Bool.and_eq_true_iff.1 hcond).2
          rw [show cb.storing = some c from hst, Option.all_some, hup, Bool.not_true,
            Bool.false_or] at hall
          exact hall
      | _ => cases hst
  | startup pc =>
      cases pc with
      | store d => cases hsu _ rfl
      | _ => cases hst
  | _ => cases hst

/-- A flag that is up after a step: the stored connection is attended. -/
theorem Truthful.up_run (hj : Truthful p) (hi : Wiring p) (hl : p.threads = l ++ t :: r)
    (ht : t.Moves p.shared o s' t' new) (hf : FlagStep p.shared s' t t')
    (hsu : ∀ pc, t = .startup pc → pc.settingUp = false) (hcond : t.keepsFlag p o = true)
    (hup : s'.manager.connected = true) {c : ConnId} (hc : s'.connection = some c) :
    attended ⟨s', l ++ t' :: r ++ new⟩ c = true := by
  have hold := ht.connection_cases hc
  cases hup₀ : p.shared.manager.connected with
  | true =>
      refine attended_run hi hl ht hj.stored hc ?_ ?_
      · rintro rfl
        have hc₀ := hold.resolve_right nofun
        simpa [Thread.keepsFlag, hc₀, hup₀] using hcond
      · rcases hold with hc₀ | hst
        · exact hj.up hup₀ c hc₀
        · exact attended_of_storing (hl ▸ mem_focus_self l r t) hsu hcond hup₀ hst
  | false =>
      -- the step raises the flag
      have hall : p.shared.connection.all (attended p) = true ∧ t.storing = none ∧
          t ≠ .watcher (.renotify c) := by
        rcases hf.raised hup₀ hup with rfl | ⟨d, rfl⟩
        · exact ⟨hcond, rfl, nofun⟩
        · exact ⟨hcond, rfl, nofun⟩
      obtain ⟨hall, hst, hne⟩ := hall
      have hc₀ := hold.resolve_right (by rw [hst]; exact nofun)
      rw [hc₀, Option.all_some] at hall
      exact attended_run hi hl ht hj.stored hc (fun h => absurd h hne) hall

/-- **A goroutine's step keeps both assertions.** -/
theorem Truthful.run (hj : Truthful p) (hi : Wiring p) (hl : p.threads = l ++ t :: r)
    (h : t.step p.shared o = some (s', t', new))
    (hsu : ∀ pc, t = .startup pc → pc.settingUp = false) (hcond : t.keepsFlag p o = true) :
    Truthful ⟨s', l ++ t' :: r ++ new⟩ := by
  have ht := Thread.moves_of_step h
  have hk := hi.noCleanup t (hl ▸ mem_focus_self l r t)
  have hf := ht.flagStep hk hsu hi.alive hj.reconnect hj.stored
  exact ⟨hf.reconnect.trans hj.reconnect, ht.connection_ne_none hk hj.stored,
    fun hdown hopen => hj.down_run hl h hf hcond hdown hopen,
    fun hup c hc => hj.up_run hi hl ht hf hsu hcond hup hc⟩

end Run

/-- A drop makes nobody mind a connection less: a quiet receiver gets the error. -/
theorem Thread.minds_drop {s : Client} {c : ConnId} {t : Thread} (c₀ : ConnId)
    (h : t.minds s c = true) : t.minds { s with amqp := s.amqp.drop c₀ } c = true := by
  have hnotify : ∀ n, (s.amqp.notify n == .error ||
      s.amqp.notify n == .quiet && s.amqp.notifyConn n == c) = true →
        ((s.amqp.drop c₀).notify n == .error ||
          (s.amqp.drop c₀).notify n == .quiet && (s.amqp.drop c₀).notifyConn n == c) = true := by
    intro n hn
    rw [Broker.notify_drop]
    split_ifs
    · rfl
    · exact hn
  cases t with
  | watcher pc =>
      cases pc with
      | waiting n => exact hnotify n h
      | handover n => exact hnotify n h
      | _ => exact h
  | _ => cases h

theorem minded_drop {p : State} {c : ConnId} (c₀ : ConnId) (h : minded p c = true) :
    minded ⟨{ p.shared with amqp := p.shared.amqp.drop c₀ }, p.threads⟩ c = true := by
  obtain ⟨t, ht, hm⟩ := List.any_eq_true.1 h
  exact List.any_eq_true.2 ⟨t, ht, Thread.minds_drop c₀ hm⟩

theorem Truthful.drop {p : State} (hj : Truthful p) {c₀ : ConnId}
    (hcond : keepsFlag p (.drop c₀) = true) :
    Truthful ⟨{ p.shared with amqp := p.shared.amqp.drop c₀ }, p.threads⟩ := by
  refine ⟨hj.reconnect, hj.stored, fun hdown hopen => hj.down hdown ?_, fun hup c hc => ?_⟩
  · by_contra hd
    rw [Client.dead_drop (by simpa using hd) c₀] at hopen
    cases hopen
  · rw [attended, Bool.or_eq_true]
    by_cases hcc : c = c₀
    · -- the stored connection is dropped: the condition says that it is minded
      subst hcc
      refine .inr (minded_drop c ?_)
      simpa [keepsFlag, show p.shared.connection = some c from hc,
        show p.shared.manager.connected = true from hup] using hcond
    · have hkeep : (p.shared.amqp.drop c₀).closed c = p.shared.amqp.closed c :=
        Function.update_of_ne hcc _ _
      have hat := hj.up hup c hc
      rw [attended, Bool.or_eq_true] at hat
      exact hat.imp (fun ho => by rw [← ho]; exact congrArg _ hkeep) (minded_drop c₀)

theorem Truthful.call {p : State} (hj : Truthful p) (t : Thread) :
    Truthful ⟨p.shared, p.threads ++ [t]⟩ := by
  refine ⟨hj.reconnect, hj.stored, fun hdown hopen => ?_, fun hup c hc => ?_⟩
  · have hpos := hj.down hdown hopen
    show 0 < (p.threads ++ [t]).countP Thread.raises
    rw [countP_snoc]
    omega
  · have hat := hj.up hup c hc
    rw [attended, Bool.or_eq_true] at hat ⊢
    refine hat.imp_right fun hm => ?_
    obtain ⟨u, hu, hum⟩ := List.any_eq_true.1 hm
    exact List.any_eq_true.2 ⟨u, List.mem_append_left _ hu, hum⟩

/-- **Every step that meets the condition keeps both assertions**, once the startup is
past `Start`. -/
theorem Truthful.step {p p' : State} {a : Action} (hj : Truthful p) (hi : Wiring p)
    (hsu : ∃ pc, .startup pc ∈ p.threads ∧ pc.settingUp = false)
    (hcond : keepsFlag p a = true) (h : step p a = some p') : Truthful p' := by
  cases a with
  | run i o =>
      obtain ⟨l, t, r, s', t', new, hl, -, hix, hraw, rfl⟩ := step_run_focus h
      rw [keepsFlag, hix, Option.all_some] at hcond
      refine hj.run hi hl hraw ?_ hcond
      -- there is one startup
      rintro pc rfl
      obtain ⟨pc₀, hpc₀, hsu₀⟩ := hsu
      have hone := hi.one.single
      rw [hl] at hpc₀ hone
      rcases eq_or_mem_others hpc₀ with heq | hother
      · cases heq
        exact hsu₀
      · cases not_of_countP_le_one hone rfl hother
  | drop c =>
      cases (moves_of_step h).2
      exact hj.drop hcond
  | call k =>
      cases (moves_of_step h).2
      exact hj.call _
  | cancel id =>
      cases (moves_of_step h).2
      exact ⟨hj.reconnect, hj.stored, hj.down, hj.up⟩

/-- What `Start` brings about: the watcher it starts minds the connection. -/
theorem truthful_of_start {s : Client} {n : ℕ} (hs : s.amqp.Sound) (hlink : Linked s n)
    (hn : s.amqp.notify n ≠ .closed) (hrec : s.manager.reconnect = true) (ts : List Thread) :
    Truthful ⟨s.setConnected true, ts ++ [.watcher (.waiting n)]⟩ := by
  refine ⟨hrec, ?_, nofun, fun _ c hc => ?_⟩
  · show s.connection ≠ none
    rw [hlink.1]
    exact Option.some_ne_none _
  · obtain rfl : s.amqp.notifyConn n = c := Option.some.inj (hlink.1.symm.trans hc)
    rw [attended, Bool.or_eq_true]
    cases hq : s.amqp.notify n with
    | closed => exact absurd hq hn
    | quiet =>
        refine .inl ?_
        show (!s.amqp.closed (s.amqp.notifyConn n)) = true
        rw [hs n hq]
        rfl
    | error =>
        refine .inr (List.any_eq_true.2 ⟨_, List.mem_append_right _ List.mem_cons_self, ?_⟩)
        show (s.amqp.notify n == .error || _) = true
        rw [hq]
        rfl

/-- The invariant of the supervised runs that keep the flag. -/
structure FlagInv (p : State) : Prop extends Wiring p where
  checked : ∀ pc, .startup pc ∈ p.threads → pc.checking = true → Truthful p ∨ DeadOnArrival p
  vetted : ∀ pc, .startup pc ∈ p.threads → pc.vetted = true → Truthful p

theorem FlagInv.step {p p' : State} {a : Action} (hi : FlagInv p)
    (hg : both supervised keepsFlag p a = true) (h : LynxRabbit.step p a = some p') :
    FlagInv p' := by
  obtain ⟨hsup, hcond⟩ := both_iff.1 hg
  have hmv := (moves_of_step h).2
  have hw := hi.toWiring
  have hkeep := fun hsu (hj : Truthful p) => hj.step hw hsu hcond h
  exact ⟨hw.step hsup hmv,
    fun pc => hw.checked_step hsup hmv hkeep
      (fun l r n _ hlink hn hrec => truthful_of_start hw.sound hlink hn hrec _) hi.checked,
    fun pc => hw.vetted_step hsup hmv hkeep hi.checked hi.vetted⟩

theorem flagInv_fresh (cfg : RabbitMQ) : FlagInv (fresh cfg) :=
  ⟨wiring_fresh cfg, fun t ht => (by cases ht), fun t ht => (by cases ht)⟩

/-! ### At rest -/

theorem Thread.not_raises_of_atRest {s : Client} {t : Thread} (h : t.atRest s = true) :
    t.raises = false := by
  cases t with
  | watcher pc => cases pc <;> first | rfl | cases h
  | force pc => cases pc <;> first | rfl | cases h
  | _ => rfl

/-- At rest, a minded connection is open. -/
theorem open_of_minds {s : Client} {t : Thread} {c : ConnId} (hs : s.amqp.Sound)
    (hrest : t.atRest s = true) (h : t.minds s c = true) : s.amqp.closed c = false := by
  cases t with
  | watcher pc =>
      cases pc with
      | waiting n =>
          by_contra hcl
          have hn := notify_of_minds hs (by simpa using hcl) h
          rw [Thread.atRest, hn] at hrest
          cases hrest
      | returned => cases h
      | _ => cases hrest
  | _ => cases h

/-- **The flag is truthful at rest**, while no step makes it wrong for good.  In every
run of one startup, disconnects, reconnects and `ForceReconnect` calls whose steps all
meet `keepsFlag`: once the startup has returned nil, in every state at rest `IsConnected`
of the manager is true exactly when `r.connection` is open. -/
theorem flag_truthful_at_rest (cfg : RabbitMQ) (p : State)
    (hr : Run step (both supervised keepsFlag) (fresh cfg) p) (hs : started p = true)
    (hrest : atRest p = true) :
    p.shared.manager.connected = true ↔
      ∃ c, p.shared.connection = some c ∧ p.shared.amqp.closed c = false := by
  have hi : FlagInv p := hr.invariant (flagInv_fresh cfg) fun _ _ _ hi hg h => hi.step hg h
  have hrest := List.all_eq_true.1 hrest
  obtain ⟨t, ht, he⟩ := List.any_eq_true.1 hs
  obtain rfl := beq_iff_eq.1 he
  have hj := hi.vetted _ ht rfl
  constructor
  · intro hup
    obtain ⟨c, hc⟩ := Option.ne_none_iff_exists'.1 hj.stored
    refine ⟨c, hc, ?_⟩
    have hat := hj.up hup c hc
    rw [attended, Bool.or_eq_true, Bool.not_eq_true'] at hat
    rcases hat with ho | hm
    · exact ho
    · obtain ⟨u, hu, hum⟩ := List.any_eq_true.1 hm
      exact open_of_minds hi.sound (hrest u hu) hum
  · rintro ⟨c, hc, ho⟩
    by_contra hdown
    have hopen : p.shared.dead = false := by rw [Client.dead, hc, Option.all_some, ho]
    obtain ⟨u, hu, hur⟩ := List.countP_pos_iff.1 (hj.down (by simpa using hdown) hopen)
    rw [Thread.not_raises_of_atRest (hrest u hu)] at hur
    cases hur

/-- A disconnect, the watcher's reconnect and a `ForceReconnect` after it keep the flag
truthful; and so does a second `ForceReconnect` that cannot dial, when the connection
of the first goes down while the flag is. -/
theorem flag_truthful_at_rest_reconnected :
    (∃ p, Run step (both supervised keepsFlag) (fresh defaultRabbitMQConfig) p ∧
      p.shared.connection = some 2 ∧ p.shared.manager.connected = true ∧
      ∃ c, p.shared.connection = some c ∧ p.shared.amqp.closed c = false) ∧
    ∃ p, Run step (both supervised keepsFlag) (fresh defaultRabbitMQConfig) p ∧
      p.shared.connection = some 1 ∧ p.shared.manager.connected = false ∧
      ¬ ∃ c, p.shared.connection = some c ∧ p.shared.amqp.closed c = false := by
  constructor
  · obtain ⟨p, hr, hp⟩ := exists_run_of_replay step (both supervised keepsFlag)
      (fresh defaultRabbitMQConfig) (fun p => started p && atRest p &&
        p.shared.connection == some 2 && p.shared.manager.connected)
      (boot ++ .drop 0 :: solo 2 20 ++ .call .forceReconnect :: solo 4 17) (by decide)
    simp only [Bool.and_eq_true, beq_iff_eq] at hp
    obtain ⟨⟨⟨hs, hrest⟩, hc⟩, hup⟩ := hp
    exact ⟨p, hr, hc, hup, (flag_truthful_at_rest _ p hr hs hrest).1 hup⟩
  · obtain ⟨p, hr, hp⟩ := exists_run_of_replay step (both supervised keepsFlag)
      (fresh defaultRabbitMQConfig) (fun p => started p && atRest p &&
        p.shared.connection == some 1 && !p.shared.manager.connected)
      (boot ++ .call .forceReconnect :: solo 3 17 ++ .call .forceReconnect :: solo 4 2 ++
        [.drop 1, .run 4 (.fail "refused")]) (by decide)
    simp only [Bool.and_eq_true, beq_iff_eq, Bool.not_eq_true'] at hp
    obtain ⟨⟨⟨hs, hrest⟩, hc⟩, hdown⟩ := hp
    refine ⟨p, hr, hc, hdown, fun ho => ?_⟩
    rw [(flag_truthful_at_rest _ p hr hs hrest).2 ho] at hdown
    cases hdown

/-- **Three ways to a wrong flag.**  `ForceReconnect` on the started client cannot dial:
the flag stays down on the open connection 0.  `ForceReconnect` succeeds and the broker
then drops connection 1, which nobody watches: the flag stays up.  And the broker drops
connection 1 after the watcher's callback has returned it and before `NotifyClose`: the
next watcher takes the closed receiver for a shutdown, and the flag stays up. -/
theorem flag_untruthful_at_rest :
    (∃ p, Run step supervised (fresh defaultRabbitMQConfig) p ∧ started p = true ∧
      atRest p = true ∧ p.shared.manager.connected = false ∧
      p.shared.connection = some 0 ∧ p.shared.amqp.closed 0 = false) ∧
    (∃ p, Run step supervised (fresh defaultRabbitMQConfig) p ∧ started p = true ∧
      atRest p = true ∧ p.shared.manager.connected = true ∧
      p.shared.connection = some 1 ∧ p.shared.amqp.closed 1 = true ∧
      p.shared.amqp.closed 0 = false) ∧
    ∃ p, Run step supervised (fresh defaultRabbitMQConfig) p ∧ started p = true ∧
      atRest p = true ∧ p.shared.manager.connected = true ∧
      p.shared.connection = some 1 ∧ p.shared.amqp.closed 1 = true ∧
      p.threads.all (fun t => !t.guardian) = true := by
  refine ⟨?_, ?_, ?_⟩
  · obtain ⟨p, hr, hp⟩ := exists_run_of_replay step supervised (fresh defaultRabbitMQConfig)
      (fun p => started p && atRest p && !p.shared.manager.connected &&
        p.shared.connection == some 0 && !p.shared.amqp.closed 0)
      (boot ++ .call .forceReconnect :: solo 3 2 ++ [.run 3 (.fail "refused")]) (by decide)
    simp only [Bool.and_eq_true, beq_iff_eq, Bool.not_eq_true'] at hp
    exact ⟨p, hr, hp.1.1.1.1, hp.1.1.1.2, hp.1.1.2, hp.1.2, hp.2⟩
  · obtain ⟨p, hr, hp⟩ := exists_run_of_replay step supervised (fresh defaultRabbitMQConfig)
      (fun p => started p && atRest p && p.shared.manager.connected &&
        p.shared.connection == some 1 && p.shared.amqp.closed 1 && !p.shared.amqp.closed 0)
      (boot ++ .call .forceReconnect :: solo 3 17 ++ [.drop 1]) (by decide)
    simp only [Bool.and_eq_true, beq_iff_eq, Bool.not_eq_true'] at hp
    exact ⟨p, hr, hp.1.1.1.1.1, hp.1.1.1.1.2, hp.1.1.1.2, hp.1.1.2, hp.1.2, hp.2⟩
  · obtain ⟨p, hr, hp⟩ := exists_run_of_replay step supervised (fresh defaultRabbitMQConfig)
      (fun p => started p && atRest p && p.shared.manager.connected &&
        p.shared.connection == some 1 && p.shared.amqp.closed 1 &&
        p.threads.all fun t => !t.guardian)
      (boot ++ .drop 0 :: solo 2 17 ++ .drop 1 :: solo 2 3 ++ solo 3 1) (by decide)
    simp only [Bool.and_eq_true, beq_iff_eq] at hp
    exact ⟨p, hr, hp.1.1.1.1.1, hp.1.1.1.1.2, hp.1.1.1.2, hp.1.1.2, hp.1.2, hp.2⟩

end LynxRabbit
