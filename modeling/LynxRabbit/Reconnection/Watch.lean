/-
# No lost disconnect

`watchConnection` learns of a disconnect from the one receiver it waits on.  The
stored connection is watched when a live watcher waits on a receiver of it that
will get the error; while a watcher is in its reconnect loop nothing has to be
watched, since the loop ends with a new registration.

Two steps break that.  `ForceReconnect` stores a connection and registers no
receiver on it, so unless a watcher happens to be reconnecting, the new
connection is unwatched.  And a watcher registers its receiver only after the
callback has returned: when the broker drops the new connection in between, or
`ForceReconnect` replaces it, the receiver is closed at once, or belongs to
another connection, and the next watcher waits on it in vain.  `keepsWatch` is
the condition that neither happens, and `disconnect_never_lost` says that nothing
else can go wrong.
-/

import LynxRabbit.Client.Connections

namespace LynxRabbit

open Runs

/-- The goroutine is a watcher inside its reconnect loop. -/
def Thread.reconnects : Thread → Bool
  | .watcher pc => pc.inReconnectLoop
  | _ => false

/-- Some watcher is inside its reconnect loop. -/
def reconnecting (p : State) : Bool := p.threads.any Thread.reconnects

/-- `ForceReconnect` stores a connection only while a watcher is in its reconnect
loop, and a watcher hands over no receiver that is closed already or belongs to
another connection than the stored one. -/
def keepsWatch (p : State) : Thread → Bool
  | .force (.callback (.store _)) => reconnecting p
  | .watcher (.handover n) =>
    p.shared.connection == some (p.shared.amqp.notifyConn n) && p.shared.amqp.notify n != .closed
  | _ => true

/-- The client after connection `c` was dropped, at the latest now. -/
def Client.afterDrop (s : Client) (c : ConnId) : Client :=
  if s.amqp.closed c then s else { s with amqp := s.amqp.drop c }

/-- Receiver `n` is one of the stored connection, and after a drop of that
connection the watcher on it can take a step, and only into the reconnect loop. -/
def WatchedBy (s : Client) (n : ℕ) : Prop :=
  ∃ c, s.connection = some c ∧ s.amqp.notifyConn n = c ∧
    ((WatchConnection.waiting n).step (s.afterDrop c) .ok).isSome = true ∧
    ∀ o s' pc new, (WatchConnection.waiting n).step (s.afterDrop c) o = some (s', pc, new) →
      pc = .disconnected

/-- The stored connection is watched, or a watcher is reconnecting. -/
def Watched (p : State) : Prop :=
  (∃ n, .watcher (.waiting n) ∈ p.threads ∧ WatchedBy p.shared n) ∨ reconnecting p = true

/-! ### The invariant -/

/-- Receiver `n` belongs to the stored connection and was not closed without an
error. -/
def Attentive (s : Client) (n : ℕ) : Prop :=
  s.connection = some (s.amqp.notifyConn n) ∧ s.amqp.notify n ≠ .closed

/-- `Watched`, without the drop to come. -/
def OnWatch (p : State) : Prop :=
  (∃ n, .watcher (.waiting n) ∈ p.threads ∧ Attentive p.shared n) ∨ reconnecting p = true

/-- The connection of a startup died before its receiver was registered, and no
watcher will replace it. -/
def DeadOnArrival (p : State) : Prop :=
  ∃ c, p.shared.connection = some c ∧ p.shared.amqp.closed c = true ∧
    ∀ t ∈ p.threads, t.guardian = true →
      ∃ n, t = .watcher (.waiting n) ∧ p.shared.amqp.notify n = .closed

/-- Receiver `n` belongs to the stored connection, and was closed without an
error only if that connection was closed. -/
def Linked (s : Client) (n : ℕ) : Prop :=
  s.connection = some (s.amqp.notifyConn n) ∧
    (s.amqp.notify n = .closed → s.amqp.closed (s.amqp.notifyConn n) = true)

/-- What a startup has wired up on its way to `Start`. -/
def StartupWithContext.Wired (s : Client) : StartupWithContext → Prop
  | .setReconnectFunc c => s.connection = some c
  | .notifyClose c => s.connection = some c ∧ s.manager.reconnect = true
  | .setConnectionNotify n => Linked s n ∧ s.manager.reconnect = true
  | .afterConnect | .producers _ | .afterProducers | .consumers _ | .startHealth | .startManager =>
    ∃ n, s.manager.connNotify = some n ∧ Linked s n ∧ s.manager.reconnect = true
  | _ => True

/-- The startup has started the manager and goes on to check the health. -/
def StartupWithContext.checking : StartupWithContext → Bool
  | .registerShared => true
  | .checkHealth _ => true
  | _ => false

/-- The startup has seen an open connection in `CheckHealth`, or has returned
nil. -/
def StartupWithContext.vetted : StartupWithContext → Bool
  | .checkHealth parts => !parts.contains .connection
  | .publishReady => true
  | .returned none => true
  | _ => false

/-- The invariant of every supervised run. -/
structure Wiring (p : State) : Prop where
  one : SingleStartup p
  noCleanup : ∀ t ∈ p.threads, t.isCleanup = false
  forced : ∀ t ∈ p.threads, t.isForce = true → started p = true
  alive : p.shared.manager.stopChanClosed = false
  sound : p.shared.amqp.Sound
  stored : ∀ t ∈ p.threads, t.isWatcher = true → p.shared.connection ≠ none
  wired : ∀ pc, .startup pc ∈ p.threads → pc.Wired p.shared

/-- The invariant of the supervised runs that keep watch. -/
structure WatchInv (p : State) : Prop extends Wiring p where
  checked : ∀ pc, .startup pc ∈ p.threads → pc.checking = true → OnWatch p ∨ DeadOnArrival p
  vetted : ∀ pc, .startup pc ∈ p.threads → pc.vetted = true → OnWatch p

/-! ### What the receivers see of a step -/

theorem SameCore.sound {s s' : Client} (h : SameCore s s') (hs : s.amqp.Sound) :
    s'.amqp.Sound := by
  rw [Broker.Sound, h.notify, h.closed, h.notifyConn]
  exact hs

theorem SetupStep.exec_sound {s s' : Client} {o : Choice} {i : SetupStep} {todo : List SetupStep}
    (h : i.exec s o = .next s' todo) (hs : s.amqp.Sound) : s'.amqp.Sound := by
  obtain ⟨n, P, K, rfl⟩ := SetupStep.exec_frame h
  exact hs

theorem Callback.Moves.sound {s s' : Client} {o : Choice} {cb : Callback}
    {q : Callback ⊕ ConnId} {new : List Spawn} (h : cb.Moves s o s' q new) (hs : s.amqp.Sound) :
    s'.amqp.Sound := by
  cases h with
  | dial => exact hs.dial
  | setup c hi => exact SetupStep.exec_sound hi hs
  | dispatch c started pending hd =>
      obtain ⟨⟨n, rfl⟩, -⟩ := DispatchStep.exec_inl hd
      exact hs
  | start c started pending hd =>
      obtain ⟨rfl, -⟩ := DispatchStep.exec_inr hd
      exact hs
  | _ => exact hs

theorem Thread.Moves.sound {s s' : Client} {t t' : Thread} {o : Choice} {new : List Thread}
    (h : t.Moves s o s' t' new) (hk : t.isCleanup = false) (hs : s.amqp.Sound) :
    s'.amqp.Sound := by
  cases h with
  | watcher h =>
      cases h with
      | receive hn => exact hs.receive _
      | renotify c => exact hs.notifyClose c
      | callback ms hm => exact hm.sound hs
      | success ms hm => exact hm.sound hs
      | _ => exact hs
  | force h =>
      cases h with
      | callback hm => exact hm.sound hs
      | success hm => exact hm.sound hs
      | _ => exact hs
  | startup h =>
      cases h with
      | dial => exact hs.dial
      | notifyClose c => exact hs.notifyClose c
      | producer hi => exact SetupStep.exec_sound hi hs
      | consumer hi => exact SetupStep.exec_sound hi hs
      | _ => exact hs
  | cleanup h => cases hk
  | subscribe id h => exact h.sameCore.1.sound hs
  | loop l h => exact h.sameCore.sound hs
  | health h => exact (HealthRun.step_sameCore h).sound hs

/-- A goroutine that is not in charge leaves the stored connection and the
receivers alone, unless it is a `ForceReconnect` that stores its connection. -/
theorem Thread.Moves.bystander {s s' : Client} {t t' : Thread} {o : Choice} {new : List Thread}
    (h : t.Moves s o s' t' new) (hk : t.isCleanup = false) (hg : t.guardian = false) :
    (∃ c, t = .force (.callback (.store c))) ∨
      (s'.connection = s.connection ∧ s'.amqp.notify = s.amqp.notify ∧
        s'.amqp.notifyConn = s.amqp.notifyConn) := by
  by_cases hp : t.passive = true
  · have hs := (h.passive hp).1
    exact .inr ⟨hs.connection, hs.notify, hs.notifyConn⟩
  · cases h with
    | watcher h => cases h <;> cases hg
    | force h =>
        have hmove : ∀ {cb q sp}, Callback.Moves s o cb s' q sp →
            (∃ c, Thread.force (.callback cb) = .force (.callback (.store c))) ∨
              (s'.connection = s.connection ∧ s'.amqp.notify = s.amqp.notify ∧
                s'.amqp.notifyConn = s.amqp.notifyConn) := by
          intro cb q sp hm
          rcases hm.connStep.connection with hc | ⟨c, hst, -⟩
          · exact .inr ⟨hc, hm.frame.notify, hm.frame.notifyConn⟩
          · cases cb with
            | store c => exact .inl ⟨c, rfl⟩
            | _ => cases hst
        cases h with
        | callback hm => exact hmove hm
        | success hm => exact hmove hm
        | _ => exact .inr ⟨rfl, rfl, rfl⟩
    | startup h => simp [Thread.passive, Thread.guardian] at hp hg; simp [hp] at hg
    | cleanup h => cases hk
    | _ => exact absurd rfl hp

/-! ### Steps -/

theorem reconnecting_of_mem {p : State} {pc : WatchConnection} (h : .watcher pc ∈ p.threads)
    (hpc : pc.inReconnectLoop = true) : reconnecting p = true :=
  List.any_eq_true.2 ⟨_, h, hpc⟩

/-- The watcher that makes `OnWatch` true, whichever it is. -/
theorem OnWatch.guardian {p : State} (h : OnWatch p) :
    ∃ pc, .watcher pc ∈ p.threads ∧ pc ≠ .returned ∧
      ((∃ n, pc = .waiting n ∧ Attentive p.shared n) ∨ pc.inReconnectLoop = true) := by
  rcases h with ⟨n, hn, hat⟩ | h
  · exact ⟨_, hn, (fun h => by cases h), .inl ⟨n, rfl, hat⟩⟩
  · obtain ⟨t, ht, htr⟩ := List.any_eq_true.1 h
    cases t with
    | watcher pc =>
        refine ⟨pc, ht, fun h => ?_, .inr htr⟩
        rw [h] at htr
        cases htr
    | _ => cases htr

theorem OnWatch.of_watcher {p : State} {pc : WatchConnection} (hm : .watcher pc ∈ p.threads)
    (h : (∃ n, pc = .waiting n ∧ Attentive p.shared n) ∨ pc.inReconnectLoop = true) :
    OnWatch p := by
  rcases h with ⟨n, rfl, hat⟩ | h
  · exact .inl ⟨n, hm, hat⟩
  · exact .inr (reconnecting_of_mem hm h)

theorem guardian_watcher {pc : WatchConnection} (h : pc ≠ .returned) :
    (Thread.watcher pc).guardian = true := by
  cases pc <;> first | rfl | exact absurd rfl h

/-- **A watcher on duty stays on duty**, or hands over to one that is. -/
theorem WatchConnection.Moves.onWatch {s s' : Client} {o : Choice} {pc pc' : WatchConnection}
    {new : List Spawn} {l r : List Thread} (h : pc.Moves s o s' pc' new)
    (halive : s.manager.stopChanClosed = false) (hstored : s.connection ≠ none)
    (hcond : ∀ n, pc = .handover n → Attentive s n)
    (hduty : (∃ n, pc = .waiting n ∧ Attentive s n) ∨ pc.inReconnectLoop = true) :
    OnWatch ⟨s', l ++ .watcher pc' :: r ++ new.map Spawn.thread⟩ := by
  have hself : .watcher pc' ∈ l ++ .watcher pc' :: r ++ new.map Spawn.thread :=
    mem_focus_moved l r _ _
  cases h with
  | stop n hs => rw [halive] at hs; cases hs
  | quit ms hs => rw [halive] at hs; cases hs
  | quitBackoff ms hs => rw [halive] at hs; cases hs
  | closed hn =>
      rcases hduty with ⟨n, hpc, hat⟩ | h
      · cases hpc
        exact absurd hn hat.2
      · cases h
  | panic ms c rest hi hc => exact absurd hc hstored
  | handover n =>
      refine .inl ⟨n, ?_, hcond n rfl⟩
      exact List.mem_append_right _ (List.mem_singleton_self _)
  | _ => exact .inr (reconnecting_of_mem hself rfl)

/-- **Watch is kept by every step of a goroutine** that meets the condition. -/
theorem OnWatch.run {p : State} {l r new : List Thread} {t t' : Thread} {o : Choice} {s' : Client}
    (hl : p.threads = l ++ t :: r) (ht : t.Moves p.shared o s' t' new) (hi : Wiring p)
    (hcond : keepsWatch p t = true) (h : OnWatch p) : OnWatch ⟨s', l ++ t' :: r ++ new⟩ := by
  have hmem : t ∈ p.threads := hl ▸ mem_focus_self l r t
  obtain ⟨pc, hpc, hlive, hduty⟩ := h.guardian
  have hexcl := hi.one.exclusive
  rw [hl] at hpc hexcl
  rcases eq_or_mem_others hpc with rfl | hpc
  · -- the watcher on duty moves
    cases ht with
    | watcher hm =>
        refine hm.onWatch hi.alive (hi.stored _ hmem rfl) (fun n hn => ?_) hduty
        subst hn
        simpa [keepsWatch, Attentive] using hcond
  · -- somebody else moves: nobody in charge, since the watcher on duty is
    have hkeep := mem_focus_of_others hpc t' new
    have hg := mover_of_countP_le_one hexcl hpc (guardian_watcher hlive)
    rcases ht.bystander (hi.noCleanup t hmem) hg with ⟨c, rfl⟩ | ⟨hc, hn, hnc⟩
    · -- `ForceReconnect` stores: the condition gives a watcher in its loop
      obtain ⟨u, hu, hur⟩ := List.any_eq_true.1 (show reconnecting p = true from hcond)
      rw [hl] at hu
      rcases eq_or_mem_others hu with rfl | hu
      · cases hur
      · exact .inr (List.any_eq_true.2 ⟨u, mem_focus_of_others hu t' new, hur⟩)
    · refine OnWatch.of_watcher hkeep (hduty.imp_left fun ⟨n, hpcn, hat⟩ => ⟨n, hpcn, ?_⟩)
      simpa only [Attentive, hc, hn, hnc] using hat

/-- **A connection dead on arrival stays so** while nobody forces a reconnect. -/
theorem DeadOnArrival.run {p : State} {l r new : List Thread} {t t' : Thread} {o : Choice}
    {s' : Client} (hl : p.threads = l ++ t :: r) (ht : t.Moves p.shared o s' t' new)
    (hk : t.isForce = false ∧ t.isCleanup = false) (h : DeadOnArrival p) :
    DeadOnArrival ⟨s', l ++ t' :: r ++ new⟩ := by
  obtain ⟨c, hc, hcl, hall⟩ := h
  rw [hl] at hall
  by_cases hp : t.passive = true
  · obtain ⟨hs, ht', hnew⟩ := ht.passive hp
    refine ⟨c, hs.connection.trans hc, by rw [hs.closed]; exact hcl, ?_⟩
    refine forall_focus hall (fun u _ hu hg => ?_) (fun hg => ?_) fun u hu hg => ?_
    · obtain ⟨n, rfl, hn⟩ := hu hg
      exact ⟨n, rfl, by rw [hs.notify]; exact hn⟩
    · rw [Thread.guardian_of_passive ht'] at hg
      cases hg
    · obtain ⟨l', rfl⟩ := hnew u hu
      cases hg
  · -- the goroutine in charge is a watcher on a closed receiver: it returns
    obtain ⟨n, rfl, hn⟩ := hall t (mem_focus_self l r t)
      (ht.guardian_of_active (by simpa using hp) hk)
    have hreturn : s' = p.shared ∧ t' = .watcher .returned ∧ new = [] := by
      cases ht with
      | watcher h =>
          cases h with
          | stop n hs => exact ⟨rfl, rfl, rfl⟩
          | receive he => rw [hn] at he; cases he
          | closed he => exact ⟨rfl, rfl, rfl⟩
    obtain ⟨rfl, rfl, rfl⟩ := hreturn
    exact ⟨c, hc, hcl, forall_focus hall (fun u _ hu => hu) (fun hg => by cases hg)
      fun u hu => by cases hu⟩

theorem Linked.congr {s s' : Client} (hs : SameCore s s') {n : ℕ} (h : Linked s n) :
    Linked s' n := by
  rw [Linked, hs.connection, hs.notifyConn, hs.notify, hs.closed]
  exact h

theorem StartupWithContext.Wired.congr {s s' : Client} (hs : SameCore s s')
    {pc : StartupWithContext} (h : pc.Wired s) : pc.Wired s' := by
  cases pc <;> simp only [StartupWithContext.Wired, hs.manager, hs.connection] at h ⊢ <;>
    first
      | exact h
      | exact ⟨h.1.congr hs, h.2⟩
      | exact h.imp fun n h => ⟨h.1, h.2.1.congr hs, h.2.2⟩

theorem StartupWithContext.wired_of_not_settingUp {pc : StartupWithContext}
    (h : pc.settingUp = false) (s : Client) : pc.Wired s := by
  cases pc <;> trivial

/-- **A startup wires the watcher up**: the receiver it hands to the manager is
one of the connection it stored. -/
theorem StartupWithContext.Moves.wired {s s' : Client} {o : Choice}
    {pc pc' : StartupWithContext} {new : List Spawn} (h : pc.Moves s o s' pc' new)
    (hw : pc.Wired s) : pc'.Wired s' := by
  have hsetup : ∀ {i : SetupStep} {todo}, i.exec s o = .next s' todo →
      (∃ n, s.manager.connNotify = some n ∧ Linked s n ∧ s.manager.reconnect = true) →
        ∃ n, s'.manager.connNotify = some n ∧ Linked s' n ∧ s'.manager.reconnect = true := by
    intro i todo hi hn
    obtain ⟨n, P, K, rfl⟩ := SetupStep.exec_frame hi
    exact hn
  cases h with
  | store c => exact rfl
  | setReconnectFunc c => exact ⟨hw, rfl⟩
  | notifyClose c =>
      obtain ⟨hc, hr⟩ := hw
      refine ⟨⟨?_, fun hn => ?_⟩, hr⟩
      · simpa [Broker.notifyClose] using hc
      · simpa [Broker.notifyClose] using hn
  | setConnectionNotify n => exact ⟨n, rfl, hw.1, hw.2⟩
  | afterConnect => exact hw
  | producer hi => exact hsetup hi hw
  | producersDone => exact hw
  | afterProducers => exact hw
  | consumer hi => exact hsetup hi hw
  | consumersDone => exact hw
  | startHealth => exact hw
  | _ => trivial

theorem StartupWithContext.Moves.checking {s s' : Client} {o : Choice}
    {pc pc' : StartupWithContext} {new : List Spawn} (h : pc.Moves s o s' pc' new)
    (hv : pc'.checking = true) : pc.checking = true ∨ pc = .startManager := by
  cases h with
  | startManager => exact .inr rfl
  | registerShared => exact .inl rfl
  | pass parts hpart => exact .inl rfl
  | _ => cases hv

/-- A startup that becomes vetted has just seen the stored connection open. -/
theorem StartupWithContext.Moves.vetted {s s' : Client} {o : Choice}
    {pc pc' : StartupWithContext} {new : List Spawn} (h : pc.Moves s o s' pc' new)
    (hw : pc.Wired s) (hv : pc'.vetted = true) :
    pc.vetted = true ∨
      (pc.checking = true ∧ ∃ c, s.connection = some c ∧ s.amqp.closed c = false) := by
  cases h with
  | @pass part parts hpart =>
      by_cases hp : part = .connection
      · subst hp
        refine .inr ⟨rfl, ?_⟩
        rw [Client.checkPart] at hpart
        split at hpart
        · cases hpart
        · rename_i c hc
          split_ifs at hpart with ho
          exact ⟨c, hc, by simpa using ho⟩
      · have hv' : Client.HealthPart.connection ∉ parts := by
          simpa [StartupWithContext.vetted] using hv
        refine .inl ?_
        simpa [StartupWithContext.vetted, hv'] using fun h => hp h.symm
  | healthy => exact .inl rfl
  | publishReady => exact .inl rfl
  | panicProducer rest hi hc =>
      obtain ⟨n, -, hl, -⟩ := hw
      rw [hl.1] at hc
      cases hc
  | panicConsumer rest hi hc =>
      obtain ⟨n, -, hl, -⟩ := hw
      rw [hl.1] at hc
      cases hc
  | _ => cases hv

/-- A watcher that `Start` puts on a closed receiver is all that is in charge of a
closed connection. -/
theorem Wiring.deadOnArrival {p : State} {l r : List Thread} (hi : Wiring p)
    (hl : p.threads = l ++ .startup .startManager :: r) {n : ℕ}
    (hlink : Linked p.shared n) (hn : p.shared.amqp.notify n = .closed) :
    DeadOnArrival ⟨p.shared.setConnected true,
      l ++ .startup .registerShared :: r ++ [.watcher (.waiting n)]⟩ := by
  refine ⟨_, hlink.1, hlink.2 hn, ?_⟩
  have hexcl := hi.one.exclusive
  rw [hl] at hexcl
  intro u hu hg
  rcases mem_focus hu with hu | rfl | hu
  · rw [not_of_countP_le_one hexcl rfl hu] at hg
    cases hg
  · cases hg
  · exact ⟨n, List.mem_singleton.1 hu, hn⟩

/-- While a startup is not through, nobody forces a reconnect. -/
theorem Wiring.unforced {p : State} (hi : Wiring p) {t : Thread} (ht : t ∈ p.threads)
    {pc : StartupWithContext} (hpc : .startup pc ∈ p.threads) (hne : pc ≠ .returned none) :
    t.isForce = false := by
  by_contra hf
  exact hne (hi.one.startup_eq (hi.forced t ht (by simpa using hf)) hpc)

/-- **A startup stays wired up** under its own steps and under those of everybody
else. -/
theorem Wiring.wired_run {p : State} {l r new : List Thread} {t t' : Thread} {o : Choice}
    {s' : Client} (hi : Wiring p) (hl : p.threads = l ++ t :: r)
    (ht : t.Moves p.shared o s' t' new) {pc : StartupWithContext}
    (hpc : .startup pc ∈ l ++ t' :: r ++ new) : pc.Wired s' := by
  have hmem : t ∈ p.threads := hl ▸ mem_focus_self l r t
  rcases ht.startup_origin hpc with hold | ⟨pc₀, sp, rfl, -, -, h⟩
  · have hin : .startup pc ∈ p.threads := hl ▸ mem_of_mem_others hold t
    by_cases hu : pc.settingUp = true
    · -- the startup is in charge, so the mover is passive
      have hf := hi.unforced hmem hin (by rintro rfl; cases hu)
      have hexcl := hi.one.exclusive
      rw [hl] at hexcl
      have hp : t.passive = true := by
        by_contra hp
        have hg := ht.guardian_of_active (by simpa using hp) ⟨hf, hi.noCleanup t hmem⟩
        rw [mover_of_countP_le_one hexcl hold hu] at hg
        cases hg
      exact (hi.wired pc hin).congr (ht.passive hp).1
    · exact StartupWithContext.wired_of_not_settingUp (by simpa using hu) s'
  · exact h.wired (hi.wired _ hmem)

theorem Wiring.run {p : State} {l r new : List Thread} {t t' : Thread} {o : Choice}
    {s' : Client} (hi : Wiring p) (hl : p.threads = l ++ t :: r)
    (ht : t.Moves p.shared o s' t' new)
    (hone : SingleStartup ⟨s', l ++ t' :: r ++ new⟩) : Wiring ⟨s', l ++ t' :: r ++ new⟩ := by
  have hmem : t ∈ p.threads := hl ▸ mem_focus_self l r t
  have hk := hi.noCleanup t hmem
  refine ⟨hone, ht.forall_kind ht.kind.2.2 (fun x => x.thread_kind.2.2) (hl ▸ hi.noCleanup),
    ht.started_of_kind hl ht.kind.2.1 (fun x => x.thread_kind.2.1) hi.forced,
    (ht.stopSignals hk).2.trans hi.alive, ht.sound hk hi.sound, fun u hu hw => ?_,
    fun pc => hi.wired_run hl ht⟩
  refine ht.connection_ne_none hk ?_
  rcases mem_focus hu with hu | rfl | hu
  · exact hi.stored u (hl ▸ mem_of_mem_others hu t) hw
  · exact hi.stored t hmem (ht.isWatcher.1.symm.trans hw)
  · rcases ht.isWatcher.2 u hu hw with hw | rfl
    · exact hi.stored t hmem hw
    · obtain ⟨n, -, hlink, -⟩ := hi.wired _ hmem
      rw [hlink.1]
      exact Option.some_ne_none _

theorem Broker.notify_drop_closed {b : Broker} {c : ConnId} {n : ℕ} :
    (b.drop c).notify n = .closed ↔ b.notify n = .closed := by
  rw [Broker.notify_drop]
  split_ifs with h
  · simp [h.2]
  · rfl

theorem Linked.drop {s : Client} {n : ℕ} (h : Linked s n) (c : ConnId) :
    Linked { s with amqp := s.amqp.drop c } n := by
  exact ⟨h.1, fun hn => Broker.closed_drop (h.2 (Broker.notify_drop_closed.1 hn))⟩

theorem StartupWithContext.Wired.drop {s : Client} {pc : StartupWithContext} (h : pc.Wired s)
    (c : ConnId) : pc.Wired { s with amqp := s.amqp.drop c } := by
  cases pc <;> first
    | exact h
    | exact ⟨h.1.drop c, h.2⟩
    | exact h.imp fun n h => ⟨h.1, h.2.1.drop c, h.2.2⟩

/-- Which startups there are after a supervised call: the calling goroutine is one
only if there was none before. -/
theorem startup_of_call {p : State} {k : Call} (hg : supervised p (.call k) = true)
    {pc : StartupWithContext} (hpc : .startup pc ∈ p.threads ++ [k.thread p.threads.length]) :
    (pc = .enter ∧ k = .startup) ∨ (.startup pc ∈ p.threads ∧ k ≠ .startup) := by
  rcases List.mem_append.1 hpc with hold | hnew
  · refine .inr ⟨hold, ?_⟩
    rintro rfl
    have := List.all_eq_true.1 hg _ hold
    cases this
  · cases k <;> cases List.mem_singleton.1 hnew
    exact .inl ⟨rfl, rfl⟩

theorem Wiring.call {p : State} (hi : Wiring p) {k : Call}
    (hg : supervised p (.call k) = true)
    (hone : SingleStartup ⟨p.shared, p.threads ++ [k.thread p.threads.length]⟩) :
    Wiring ⟨p.shared, p.threads ++ [k.thread p.threads.length]⟩ := by
  have hnew : (k.thread p.threads.length).isCleanup = false ∧
      ((k.thread p.threads.length).isForce = true → started p = true) ∧
      (k.thread p.threads.length).isWatcher = false := by
    cases k with
    | cleanup => cases hg
    | forceReconnect => exact ⟨rfl, fun _ => hg, rfl⟩
    | _ => exact ⟨rfl, fun h => (by cases h), rfl⟩
  refine ⟨hone, List.forall_mem_append.2 ⟨hi.noCleanup, List.forall_mem_singleton.2 hnew.1⟩,
    started_of_kind_snoc hi.forced hnew.2.1, hi.alive, hi.sound,
    List.forall_mem_append.2 ⟨hi.stored, List.forall_mem_singleton.2 fun hw => ?_⟩, ?_⟩
  · rw [hnew.2.2] at hw
    cases hw
  · intro pc hpc
    rcases startup_of_call hg hpc with ⟨rfl, -⟩ | ⟨hpc, -⟩
    · trivial
    · exact hi.wired pc hpc

/-- **Every supervised step keeps the wiring.** -/
theorem Wiring.step {p p' : State} {a : Action} (hi : Wiring p) (hg : supervised p a = true)
    (h : Moves p a p') : Wiring p' := by
  have hone := hi.one.step (oneStartup_of_guard rfl hg) h
  cases h with
  | run hl hix ht => exact hi.run hl ht hone
  | @drop c hc ho =>
      exact ⟨hone, hi.noCleanup, hi.forced, hi.alive, hi.sound.drop c, hi.stored,
        fun pc hpc => (hi.wired pc hpc).drop c⟩
  | call k => exact hi.call hg hone
  | cancel id =>
      exact ⟨hone, hi.noCleanup, hi.forced, hi.alive, hi.sound, hi.stored, hi.wired⟩

/-- **A connection dead on arrival stays so** in a step of a system where a startup is
still at work. -/
theorem DeadOnArrival.step {p p' : State} {a : Action} (hi : Wiring p) (h : Moves p a p')
    (hforce : ∀ t ∈ p.threads, t.isForce = false) (hcall : a ≠ .call .startup)
    (hd : DeadOnArrival p) : DeadOnArrival p' := by
  cases h with
  | run hl hix ht =>
      have hmem := hl ▸ mem_focus_self _ _ _
      exact hd.run hl ht ⟨hforce _ hmem, hi.noCleanup _ hmem⟩
  | @drop c₀ hc ho =>
      obtain ⟨c, hc', hcl, hall⟩ := hd
      refine ⟨c, hc', Broker.closed_drop hcl, fun t ht hg => ?_⟩
      obtain ⟨n, rfl, hn⟩ := hall t ht hg
      exact ⟨n, rfl, Broker.notify_drop_closed.2 hn⟩
  | call k =>
      obtain ⟨c, hc, hcl, hall⟩ := hd
      refine ⟨c, hc, hcl, List.forall_mem_append.2 ⟨hall, List.forall_mem_singleton.2 ?_⟩⟩
      intro hgu
      cases k with
      | startup => exact absurd rfl hcall
      | _ => cases hgu
  | cancel id => exact hd

section Arrival

/-! ### From `Start` on

What is to hold from `Start` on may fail at first, when the connection was dead on
arrival; the startup's own `CheckHealth` then finds the connection closed. -/

variable {J : State → Prop} {p p' : State} {a : Action}

/-- **A startup that checks the health** has `J`, or found its connection dead, when
every step with such a startup keeps `J` and `Start` brings it about. -/
theorem Wiring.checked_step (hi : Wiring p) (hg : supervised p a = true) (h : Moves p a p')
    (hkeep : (∃ pc, .startup pc ∈ p.threads ∧ pc.settingUp = false) → J p → J p')
    (hstart : ∀ l r n, p.threads = l ++ .startup .startManager :: r → Linked p.shared n →
      p.shared.amqp.notify n ≠ .closed → p.shared.manager.reconnect = true →
        J ⟨p.shared.setConnected true,
          l ++ .startup .registerShared :: r ++ [.watcher (.waiting n)]⟩)
    (hck : ∀ pc, .startup pc ∈ p.threads → pc.checking = true → J p ∨ DeadOnArrival p)
    {pc : StartupWithContext} (hpc : .startup pc ∈ p'.threads) (hc : pc.checking = true) :
    J p' ∨ DeadOnArrival p' := by
  have hold : ∀ {pc₀}, .startup pc₀ ∈ p.threads → pc₀.checking = true → a ≠ .call .startup →
      J p' ∨ DeadOnArrival p' := by
    intro pc₀ hin hck₀ hcall
    have hforce := fun t (ht : t ∈ p.threads) => hi.unforced ht hin (by rintro rfl; cases hck₀)
    have hsu : pc₀.settingUp = false := by cases pc₀ <;> first | rfl | cases hck₀
    exact (hck pc₀ hin hck₀).imp (hkeep ⟨pc₀, hin, hsu⟩) fun hd => hd.step hi h hforce hcall
  cases h with
  | run hl hix ht =>
      have hmem := hl ▸ mem_focus_self _ _ _
      rcases ht.startup_origin hpc with hin | ⟨pc₀, sp, rfl, rfl, rfl, hm⟩
      · exact hold (hl ▸ mem_of_mem_others hin _) hc nofun
      · rcases hm.checking hc with hck₀ | rfl
        · exact hold hmem hck₀ nofun
        · -- `Start` starts the watcher on the receiver that was wired up
          obtain ⟨n, hcn, hlink, hrec⟩ := hi.wired _ hmem
          cases hm with
          | startManager =>
              rw [hcn, hrec]
              by_cases hn : p.shared.amqp.notify n = .closed
              · exact .inr (hi.deadOnArrival hl hlink hn)
              · exact .inl (hstart _ _ n hl hlink hn hrec)
          | abort f e hf => cases hf
  | drop hc₀ ho => exact hold hpc hc nofun
  | call k =>
      rcases startup_of_call hg hpc with ⟨rfl, -⟩ | ⟨hin, hne⟩
      · cases hc
      · exact hold hin hc fun h => hne (Action.call.inj h)
  | cancel id => exact hold hpc hc nofun

/-- **A startup that has seen an open connection** has `J`. -/
theorem Wiring.vetted_step (hi : Wiring p) (hg : supervised p a = true) (h : Moves p a p')
    (hkeep : (∃ pc, .startup pc ∈ p.threads ∧ pc.settingUp = false) → J p → J p')
    (hck : ∀ pc, .startup pc ∈ p.threads → pc.checking = true → J p ∨ DeadOnArrival p)
    (hv : ∀ pc, .startup pc ∈ p.threads → pc.vetted = true → J p)
    {pc : StartupWithContext} (hpc : .startup pc ∈ p'.threads) (hpv : pc.vetted = true) :
    J p' := by
  have hold : ∀ {pc₀}, .startup pc₀ ∈ p.threads → pc₀.vetted = true → J p' := by
    intro pc₀ hin hv₀
    have hsu : pc₀.settingUp = false := by cases pc₀ <;> first | rfl | cases hv₀
    exact hkeep ⟨pc₀, hin, hsu⟩ (hv pc₀ hin hv₀)
  cases h with
  | run hl hix ht =>
      have hmem := hl ▸ mem_focus_self _ _ _
      rcases ht.startup_origin hpc with hin | ⟨pc₀, sp, rfl, -, -, hm⟩
      · exact hold (hl ▸ mem_of_mem_others hin _) hpv
      · rcases hm.vetted (hi.wired _ hmem) hpv with hv₀ | ⟨hck₀, c, hc, ho⟩
        · exact hold hmem hv₀
        · have hsu : pc₀.settingUp = false := by cases pc₀ <;> first | rfl | cases hck₀
          refine hkeep ⟨pc₀, hmem, hsu⟩ ((hck _ hmem hck₀).resolve_right ?_)
          rintro ⟨c', hc', hcl, -⟩
          obtain rfl : c = c' := Option.some.inj (hc.symm.trans hc')
          rw [hcl] at ho
          cases ho
  | drop hc ho => exact hold hpc hpv
  | call k =>
      rcases startup_of_call hg hpc with ⟨rfl, -⟩ | ⟨hin, -⟩
      · cases hpv
      · exact hold hin hpv
  | cancel id => exact hold hpc hpv

end Arrival

/-- A disconnect keeps watch: a receiver that was not closed gets the error. -/
theorem OnWatch.drop {p : State} (h : OnWatch p) (c : ConnId) :
    OnWatch ⟨{ p.shared with amqp := p.shared.amqp.drop c }, p.threads⟩ := by
  refine h.imp_left fun ⟨n, hm, hc, hn⟩ => ⟨n, hm, hc, ?_⟩
  exact fun h => hn (Broker.notify_drop_closed.1 h)

/-- **Watch is kept by every step** that meets the condition. -/
theorem OnWatch.step {p p' : State} {a : Action} (hi : Wiring p) (h : Moves p a p')
    (hcond : onRun keepsWatch p a = true) (hw : OnWatch p) : OnWatch p' := by
  cases h with
  | run hl hix ht => exact hw.run hl ht hi (onRun_run hcond hix)
  | drop hc ho => exact hw.drop _
  | call k =>
      rcases hw with ⟨n, hm, hat⟩ | h
      · exact .inl ⟨n, List.mem_append_left _ hm, hat⟩
      · obtain ⟨t, ht, htr⟩ := List.any_eq_true.1 h
        exact .inr (List.any_eq_true.2 ⟨t, List.mem_append_left _ ht, htr⟩)
  | cancel id => exact hw

/-- **Every step keeps the invariant.** -/
theorem WatchInv.step {p p' : State} {a : Action} (hi : WatchInv p)
    (hg : both supervised (onRun keepsWatch) p a = true) (h : Moves p a p') : WatchInv p' := by
  obtain ⟨hsup, hcond⟩ := both_iff.1 hg
  have hw := hi.toWiring
  have hkeep := fun (_ : ∃ pc, .startup pc ∈ p.threads ∧ pc.settingUp = false) =>
    OnWatch.step hw h hcond
  refine ⟨hw.step hsup h,
    fun pc => hw.checked_step hsup h hkeep (fun l r n _ hlink hn _ => ?_) hi.checked,
    fun pc => hw.vetted_step hsup h hkeep hi.checked hi.vetted⟩
  exact .inl ⟨n, List.mem_append_right _ (List.mem_singleton_self _), hlink.1, hn⟩

theorem wiring_fresh (cfg : RabbitMQ) : Wiring (fresh cfg) :=
  ⟨singleStartup_fresh cfg, fun t ht => (by cases ht), fun t ht => (by cases ht), rfl,
    fun _ _ => rfl, fun t ht => (by cases ht), fun t ht => (by cases ht)⟩

theorem watchInv_fresh (cfg : RabbitMQ) : WatchInv (fresh cfg) :=
  ⟨wiring_fresh cfg, fun t ht => (by cases ht), fun t ht => (by cases ht)⟩

/-- A receiver of the stored connection that was not closed gets the error of
the drop, and the watcher on it takes it. -/
theorem Attentive.watchedBy {s : Client} {n : ℕ} (h : Attentive s n) (hs : s.amqp.Sound)
    (halive : s.manager.stopChanClosed = false) : WatchedBy s n := by
  obtain ⟨hc, hn⟩ := h
  have herr : (s.afterDrop (s.amqp.notifyConn n)).amqp.notify n = .error := by
    rw [Client.afterDrop]
    cases hq : s.amqp.notify n with
    | quiet =>
        rw [hs n hq]
        exact (Broker.notify_drop ..).trans (if_pos ⟨rfl, hq⟩)
    | error =>
        split_ifs
        · exact hq
        · rw [Broker.notify_drop, hq]
          exact if_neg fun h => by cases h.2
    | closed => exact absurd hq hn
  have hstop : (s.afterDrop (s.amqp.notifyConn n)).manager.stopChanClosed = false := by
    rw [Client.afterDrop]
    split_ifs <;> exact halive
  refine ⟨_, hc, rfl, ?_, fun o s' pc new h => ?_⟩
  · simp [WatchConnection.step, herr]
  · cases WatchConnection.moves_of_step h with
    | stop n hs => rw [hstop] at hs; cases hs
    | receive he => rfl
    | closed he => rw [herr] at he; cases he

/-- **No disconnect is lost while watch is kept.**  In every run of one startup,
disconnects, reconnects and `ForceReconnect` calls in which every step keeps
watch: once the startup has returned nil, a watcher waits on a receiver of the
stored connection and a drop of it leads that watcher into its reconnect loop,
or some watcher is in its reconnect loop already. -/
theorem disconnect_never_lost (cfg : RabbitMQ) (p : State)
    (hr : Run step (both supervised (onRun keepsWatch)) (fresh cfg) p)
    (hs : started p = true) : Watched p := by
  have hi : WatchInv p := hr.invariant (watchInv_fresh cfg) fun _ _ _ hi hg h =>
    hi.step hg (moves_of_step h).2
  obtain ⟨t, ht, he⟩ := List.any_eq_true.1 hs
  obtain rfl := beq_iff_eq.1 he
  refine (hi.vetted _ ht rfl).imp_left fun ⟨n, hm, hat⟩ => ⟨n, hm, ?_⟩
  exact hat.watchedBy hi.sound hi.alive

/-- A disconnect and a whole reconnect of the default client keep watch. -/
theorem disconnect_never_lost_reconnected :
    ∃ p, Run step (both supervised (onRun keepsWatch)) (fresh defaultRabbitMQConfig) p ∧
      started p = true ∧ p.shared.connection = some 1 ∧ Watched p := by
  obtain ⟨p, hr, hp⟩ := exists_run_of_replay step (both supervised (onRun keepsWatch))
    (fresh defaultRabbitMQConfig) (fun p => started p && p.shared.connection == some 1)
    (boot ++ .drop 0 :: solo 2 20) (by decide)
  rw [Bool.and_eq_true, beq_iff_eq] at hp
  exact ⟨p, hr, hp.1, hp.2, disconnect_never_lost defaultRabbitMQConfig p hr hp.1⟩

/-- No watcher is in its loop, and none waits on a live receiver of the stored
connection. -/
def unwatched (p : State) : Bool :=
  p.threads.all fun
    | .watcher (.waiting n) =>
      p.shared.connection != some (p.shared.amqp.notifyConn n) ||
        p.shared.amqp.notify n == .closed
    | .watcher pc => !pc.inReconnectLoop
    | _ => true

theorem not_watched_of_unwatched {p : State} (h : unwatched p = true) : ¬ Watched p := by
  have h := List.all_eq_true.1 h
  rintro (⟨n, hm, c, hc, hnc, hsome, honly⟩ | hrec)
  · have hn := h _ hm
    simp only [hc, hnc, bne_self_eq_false, Bool.false_or, beq_iff_eq] at hn
    have hcl : (p.shared.afterDrop c).amqp.notify n = .closed := by
      rw [Client.afterDrop]
      split_ifs
      · exact hn
      · exact Broker.notify_drop_closed.2 hn
    have hstep : (WatchConnection.waiting n).step (p.shared.afterDrop c) .ok =
        some (p.shared.afterDrop c, .returned, []) := by
      simp [WatchConnection.step, hcl]
    cases honly _ _ _ _ hstep
  · obtain ⟨t, ht, htr⟩ := List.any_eq_true.1 hrec
    have hu := h t ht
    cases t with
    | watcher pc =>
        cases pc with
        | waiting n => cases htr
        | returned => cases htr
        | _ => cases hu
    | _ => cases htr

/-- **Two ways to lose a disconnect.**  `ForceReconnect` on the started client
stores connection 1, and the watcher still waits on a receiver of connection 0:
a drop of connection 1 is ignored.  And when the broker drops connection 1 after
the reconnect callback has returned it and before `NotifyClose`, the next watcher
takes the closed receiver for a shutdown: the drop was ignored. -/
theorem disconnect_lost :
    (∃ p, Run step supervised (fresh defaultRabbitMQConfig) p ∧ started p = true ∧
      p.shared.connection = some 1 ∧ p.shared.amqp.closed 1 = false ∧ ¬ Watched p) ∧
    ∃ p, Run step supervised (fresh defaultRabbitMQConfig) p ∧ started p = true ∧
      p.shared.connection = some 1 ∧ p.shared.amqp.closed 1 = true ∧ ¬ Watched p := by
  constructor
  · obtain ⟨p, hr, hp⟩ := exists_run_of_replay step supervised (fresh defaultRabbitMQConfig)
      (fun p => started p && p.shared.connection == some 1 && !p.shared.amqp.closed 1 &&
        unwatched p)
      (boot ++ .call .forceReconnect :: solo 3 17) (by decide)
    simp only [Bool.and_eq_true, beq_iff_eq, Bool.not_eq_true'] at hp
    exact ⟨p, hr, hp.1.1.1, hp.1.1.2, hp.1.2, not_watched_of_unwatched hp.2⟩
  · obtain ⟨p, hr, hp⟩ := exists_run_of_replay step supervised (fresh defaultRabbitMQConfig)
      (fun p => started p && p.shared.connection == some 1 && p.shared.amqp.closed 1 &&
        unwatched p)
      (boot ++ .drop 0 :: solo 2 17 ++ .drop 1 :: solo 2 3) (by decide)
    simp only [Bool.and_eq_true, beq_iff_eq] at hp
    exact ⟨p, hr, hp.1.1.1, hp.1.1.2, hp.1.2, not_watched_of_unwatched hp.2⟩

end LynxRabbit
