/-
# Starting again

The life of one client: `NewRabbitMQClient`, and then `InitializeResources`,
`StartupTasks` and `CleanupTasks` in any order, one call at a time (`client.go`).

`InitializeResources` puts new managers in place; `closed`, `closeChan` and
`closeOnce` belong to the constructor, and nothing takes a cleanup's signal back.  A
startup after a cleanup therefore succeeds, since its own `CheckHealth` looks at
neither, on a client that says it is closed.

The goroutines that the calls leave behind run on beside the later ones.  What they
do is `background`, any change of the client that leaves `closed` and `closeChan`
alone; `background_of_moves` says that every step of a goroutine that is neither a
startup nor a cleanup is one.
-/

import LynxRabbit.Conf.Normalize
import LynxRabbit.Shutdown.Converge

namespace LynxRabbit

open Runs

/-- The call that is under way, or was the last one. -/
inductive LifeCall
  | startupTasks (pc : StartupWithContext)
  | cleanupTasks (pc : CleanupWithContext)
deriving DecidableEq, Repr

/-- A client over its life; `managers` says that the health checker, the connection
manager and the pool are not nil, `cleaned` that `CleanupTasks` was called. -/
structure Lifetime where
  client : Client
  managers : Bool := false
  call : Option LifeCall := none
  cleaned : Bool := false

/-- `NewRabbitMQClient`. -/
def newRabbitMQClient : Lifetime where
  client := { config := defaultRabbitMQConfig, rt := none }

/-- `InitializeResources` with the runtime `rt`: the base plugin may refuse, and the
configuration may not scan.  Without a runtime the defaults are not scanned. -/
def Lifetime.initializeResources (q : Lifetime) (refused : Option GoError)
    (rt : Option RuntimeContract) (scan : Except String ScannedRabbitMQ) :
    Lifetime × Option GoError :=
  match refused with
  | some e => (q, some e)
  | none =>
    let q := { q with client := { q.client with rt := rt } }
    match (if rt.isSome then scan else .ok defaultRabbitMQConfig.scanned) with
    | .error text =>
      (q, some (.wrapf "failed to scan RabbitMQ configuration" (.library text)))
    | .ok scanned =>
      match normalizeRabbitMQConfig (some scanned) with
      | .error e => (q, some e)
      | .ok cfg =>
        ({ q with
            client := { q.client with config := cfg, health := {}, manager := {} }
            managers := true }, none)

/-- The step asks the context; `StartupTasks` and `CleanupTasks` pass one that is never
cancelled. -/
def StartupWithContext.checksContext : StartupWithContext → Bool
  | .enter => true
  | .afterConnect => true
  | .afterProducers => true
  | _ => false

/-- A step of `startupWithContext`, where the managers may be nil. -/
def StartupWithContext.stepWith (managers : Bool) (s : Client) (o : Choice)
    (pc : StartupWithContext) : Option (Client × StartupWithContext) :=
  let step := (pc.step s o).map fun q => (q.1, q.2.1)
  if managers then step
  else match pc with
    | .store c => some ({ s with connection := some c }, .afterConnect)
    | .startHealth => some (s, .startManager)
    | .startManager => some (s, .registerShared)
    | .checkHealth (.manager :: _) =>
      some (s, .unpublish (.errorf "rabbitmq connection manager not initialized"))
    | _ => step

/-- A step of `cleanupWithContext`, where the managers may be nil. -/
def CleanupWithContext.stepWith (managers : Bool) (s : Client) (o : Choice)
    (pc : CleanupWithContext) : Option (Client × CleanupWithContext) :=
  if managers then pc.step s o
  else match pc with
    | .stopHealth => some (s, .stopManager)
    | .stopManager => some (s, .waitSubscriptions)
    | pc => pc.step s o

/-- No call is under way. -/
def Lifetime.idle (q : Lifetime) : Bool :=
  match q.call with
  | none => true
  | some (.startupTasks (.returned _)) => true
  | some (.cleanupTasks (.returned _)) => true
  | _ => false

/-- What can happen next in the life of a client. -/
inductive LifeAction
  | initializeResources (refused : Option GoError) (rt : Option RuntimeContract)
      (scan : Except String ScannedRabbitMQ)
  | startupTasks
  | cleanupTasks
  | advance (o : Choice)
  | background (s : Client)

/-- A step in the life of a client. -/
def lifeStep (q : Lifetime) (a : LifeAction) : Option Lifetime :=
  if q.client.panicked then none
  else match a with
    | .initializeResources refused rt scan =>
      if q.idle then some (q.initializeResources refused rt scan).1 else none
    | .startupTasks => if q.idle then some { q with call := some (.startupTasks .enter) } else none
    | .cleanupTasks =>
      if q.idle then some { q with call := some (.cleanupTasks .enter), cleaned := true } else none
    | .advance o =>
      match q.call with
      | none => none
      | some (.startupTasks pc) =>
        if pc.checksContext && o.err.isSome then none
        else (pc.stepWith q.managers q.client o).map fun r =>
          { q with client := r.1, call := some (.startupTasks r.2) }
      | some (.cleanupTasks pc) =>
        if pc = .enter ∧ o.err.isSome then none
        else (pc.stepWith q.managers q.client o).map fun r =>
          { q with client := r.1, call := some (.cleanupTasks r.2) }
    | .background s => some { q with client := s }

/-- `r.connection` is open. -/
def Client.live (s : Client) : Bool := s.connection.any fun c => !s.amqp.closed c

/-- The startup is in its `CheckHealth` or behind it. -/
def StartupWithContext.inCheckHealth : StartupWithContext → Bool
  | .checkHealth _ => true
  | .publishReady => true
  | .returned _ => true
  | _ => false

/-- The goroutines in the background leave `closed` and `closeChan` alone, and from the
`CheckHealth` of a startup on the broker keeps the stored connection open. -/
def keptOpen (q : Lifetime) : LifeAction → Bool
  | .background s =>
    s.closed == q.client.closed && s.closeChanClosed == q.client.closeChanClosed &&
      match q.call with
      | some (.startupTasks pc) => !pc.inCheckHealth || !q.client.live || s.live
      | _ => true
  | _ => true

/-- A goroutine that is neither a startup nor a cleanup leaves the signals alone. -/
theorem background_of_moves {s s' : Client} {t t' : Thread} {o : Choice} {new : List Thread}
    (h : t.Moves s o s' t' new) (hs : t.isStartup = false) (hc : t.isCleanup = false) :
    s'.closed = s.closed ∧ s'.closeChanClosed = s.closeChanClosed :=
  ⟨(h.signals hs hc).closed, (h.signals hs hc).closeChan⟩

/-- A client that can be used: it says it is connected, its probe fails only where it
cannot open a channel, and the `select` of a dispatch loop does not find its stop
case ready. -/
structure Usable (s : Client) : Prop where
  connected : s.isConnected = true
  probe : ∀ o e, (s.connectionProbe o).1 = some e →
    ∃ text, e = .wrapf "rabbitmq health probe failed to open channel" (.library text)
  listens : ∀ l : Loop, LoopPc.select.step s .stop l = none

theorem usable_of_live {s : Client} (hl : s.live = true) (hc : s.closed = false)
    (hch : s.closeChanClosed = false) : Usable s := by
  refine ⟨?_, fun o e he => ?_, fun l => ?_⟩
  · rw [Client.isConnected, hc]
    exact hl
  · obtain ⟨c, hconn, ho⟩ := (Option.any_eq_true _ _).1 hl
    unfold Client.connectionProbe at he
    rw [hc, hconn] at he
    simp only [Bool.false_eq_true, if_false] at he
    rw [if_neg (by simpa using ho)] at he
    split at he
    · cases he
      exact ⟨_, rfl⟩
    · cases he
  · rw [LoopPc.step, hch]
    rfl

/-! ### The calls -/

theorem StartupWithContext.Moves.shut {s s' : Client} {o : Choice} {pc pc' : StartupWithContext}
    {new : List Spawn} (h : pc.Moves s o s' pc' new) :
    s'.closed = s.closed ∧ s'.closeChanClosed = s.closeChanClosed := by
  cases h with
  | producer hi =>
      obtain ⟨n, P, K, rfl⟩ := SetupStep.exec_frame hi
      exact ⟨rfl, rfl⟩
  | consumer hi =>
      obtain ⟨n, P, K, rfl⟩ := SetupStep.exec_frame hi
      exact ⟨rfl, rfl⟩
  | _ => exact ⟨rfl, rfl⟩

/-- What a startup past the first read of its `CheckHealth` has seen. -/
def StartupWithContext.Saw (s : Client) : StartupWithContext → Prop
  | .checkHealth parts => parts = Client.healthParts ∨ s.live = true
  | .publishReady => s.live = true
  | .returned none => s.live = true ∨ s.panicked = true
  | _ => True

/-- **A startup that gets through `CheckHealth` has seen an open connection.** -/
theorem StartupWithContext.Moves.saw {s s' : Client} {o : Choice} {pc pc' : StartupWithContext}
    {new : List Spawn} (h : pc.Moves s o s' pc' new) (hs : pc.Saw s) : pc'.Saw s' := by
  cases h with
  | registerShared => exact .inl rfl
  | @pass part parts hpart =>
      refine .inr ?_
      rcases hs with hs | hs
      · -- the first read is of the connection
        obtain ⟨rfl, -⟩ := List.cons.inj hs
        rw [Client.checkPart] at hpart
        split at hpart
        · cases hpart
        · rename_i c hc
          split_ifs at hpart with ho
          rw [Client.live, hc]
          simpa using ho
      · exact hs
  | healthy =>
      rcases hs with hs | hs
      · cases hs
      · exact hs
  | publishReady => exact .inl hs
  | panicProducer rest hi hc => exact .inr rfl
  | panicConsumer rest hi hc => exact .inr rfl
  | _ => trivial

theorem StartupWithContext.stepWith_spec {managers : Bool} {s s' : Client} {o : Choice}
    {pc pc' : StartupWithContext} (h : pc.stepWith managers s o = some (s', pc')) (hs : pc.Saw s) :
    (s'.closed = s.closed ∧ s'.closeChanClosed = s.closeChanClosed) ∧ pc'.Saw s' := by
  have hstep : (pc.step s o).map (fun q => (q.1, q.2.1)) = some (s', pc') →
      (s'.closed = s.closed ∧ s'.closeChanClosed = s.closeChanClosed) ∧ pc'.Saw s' := by
    intro h
    obtain ⟨⟨s₁, pc₁, new⟩, hq, he⟩ := Option.map_eq_some_iff.1 h
    cases he
    have hm := StartupWithContext.moves_of_step hq
    exact ⟨hm.shut, hm.saw hs⟩
  unfold StartupWithContext.stepWith at h
  split at h
  · exact hstep h
  · split at h
    · cases h
      exact ⟨⟨rfl, rfl⟩, trivial⟩
    · cases h
      exact ⟨⟨rfl, rfl⟩, trivial⟩
    · cases h
      exact ⟨⟨rfl, rfl⟩, trivial⟩
    · cases h
      exact ⟨⟨rfl, rfl⟩, trivial⟩
    · exact hstep h

/-- How far a cleanup is with `closed` and `closeChan`. -/
def CleanupWithContext.Signals (s : Client) (pc : CleanupWithContext) : Prop :=
  (s.closed = true ∧ s.closeChanClosed = true) ∨ pc.rank ≤ 2 ∨
    (pc = .closeCloseChan ∧ s.closed = true)

/-- **A cleanup raises both signals**, whether there are managers or not. -/
theorem CleanupWithContext.stepWith_signals {managers : Bool} {s s' : Client} {o : Choice}
    {pc pc' : CleanupWithContext} (h : pc.stepWith managers s o = some (s', pc'))
    (hs : pc.Signals s) : pc'.Signals s' := by
  have hstep : pc.step s o = some (s', pc') → pc'.Signals s' := by
    intro h
    have hm := CleanupWithContext.moves_of_step h
    rcases hs with hs | hs | ⟨rfl, hc⟩
    · exact .inl ⟨hm.keeps (k := .setClosed) hs.1, hm.keeps (k := .closeCloseChan) hs.2⟩
    · cases hm with
      | cancel => exact .inr (.inl (Nat.zero_le 2))
      | enter => exact .inr (.inl (Nat.le_succ 1))
      | publish => exact .inr (.inl le_rfl)
      | setClosed => exact .inr (.inr ⟨rfl, rfl⟩)
      | _ => exact absurd hs (by decide)
    · cases hm
      exact .inl ⟨hc, rfl⟩
  unfold CleanupWithContext.stepWith at h
  split at h
  · exact hstep h
  · split at h
    · cases h
      rcases hs with hs | hs | ⟨hs, -⟩
      · exact .inl hs
      · exact absurd hs (by decide)
      · cases hs
    · cases h
      rcases hs with hs | hs | ⟨hs, -⟩
      · exact .inl hs
      · exact absurd hs (by decide)
      · cases hs
    · exact hstep h

/-! ### Every sequence of calls -/

/-- The signals tell whether there was a cleanup, and a startup on its way to nil has
seen an open connection. -/
structure LifeInv (q : Lifetime) : Prop where
  unshut : q.cleaned = false → (q.client.closed = false ∧ q.client.closeChanClosed = false) ∧
    ∀ pc, q.call ≠ some (.cleanupTasks pc)
  shut : q.cleaned = true → (q.client.closed = true ∧ q.client.closeChanClosed = true) ∨
    ∃ pc, q.call = some (.cleanupTasks pc) ∧ pc.Signals q.client
  saw : ∀ pc, q.call = some (.startupTasks pc) → pc.Saw q.client

/-- Between two calls the signals are up once there was a cleanup. -/
theorem LifeInv.shut_of_idle {q : Lifetime} (hi : LifeInv q) (hidle : q.idle = true)
    (hc : q.cleaned = true) : q.client.closed = true ∧ q.client.closeChanClosed = true := by
  rcases hi.shut hc with h | ⟨pc, hpc, hs⟩
  · exact h
  · unfold Lifetime.idle at hidle
    rw [hpc] at hidle
    cases pc with
    | returned e =>
        rcases hs with h | h | ⟨h, -⟩
        · exact h
        · exact absurd h (by simp [CleanupWithContext.rank])
        · cases h
    | _ => cases hidle

/-- `InitializeResources` writes the runtime, the configuration and the managers. -/
theorem Lifetime.initializeResources_frame (q : Lifetime) (refused : Option GoError)
    (rt : Option RuntimeContract) (scan : Except String ScannedRabbitMQ) :
    ∃ rt' cfg h m b, (q.initializeResources refused rt scan).1 =
      { q with
        client := { q.client with rt := rt', config := cfg, health := h, manager := m }
        managers := b } := by
  unfold Lifetime.initializeResources
  split
  · exact ⟨_, _, _, _, _, rfl⟩
  · simp only
    split
    · exact ⟨_, _, _, _, _, rfl⟩
    · split
      · exact ⟨_, _, _, _, _, rfl⟩
      · exact ⟨_, _, _, _, _, rfl⟩

theorem StartupWithContext.Saw.background {s s' : Client} {pc : StartupWithContext}
    (h : pc.Saw s) (halive : s.panicked = false)
    (hlive : pc.inCheckHealth = true → s.live = true → s'.live = true) : pc.Saw s' := by
  cases pc with
  | checkHealth parts => exact h.imp_right (hlive rfl)
  | publishReady => exact hlive rfl h
  | returned e =>
      cases e with
      | none =>
          rcases h with h | h
          · exact .inl (hlive rfl h)
          · rw [halive] at h
            cases h
      | some e => trivial
  | _ => trivial

theorem CleanupWithContext.Signals.congr {s s' : Client} {pc : CleanupWithContext}
    (h : pc.Signals s) (hc : s'.closed = s.closed)
    (hch : s'.closeChanClosed = s.closeChanClosed) : pc.Signals s' := by
  rcases h with h | h | ⟨h, h'⟩
  · exact .inl ⟨hc.trans h.1, hch.trans h.2⟩
  · exact .inr (.inl h)
  · exact .inr (.inr ⟨h, hc.trans h'⟩)

/-- A change of the client beside the call that is under way. -/
theorem LifeInv.beside {q q' : Lifetime} (hi : LifeInv q) (hcall : q'.call = q.call)
    (hcleaned : q'.cleaned = q.cleaned) (hc : q'.client.closed = q.client.closed)
    (hch : q'.client.closeChanClosed = q.client.closeChanClosed)
    (hsaw : ∀ pc, q.call = some (.startupTasks pc) → pc.Saw q'.client) : LifeInv q' := by
  refine ⟨fun hcl => ?_, fun hcl => ?_, fun pc hpc => hsaw pc (hcall ▸ hpc)⟩
  · obtain ⟨hopen, hnone⟩ := hi.unshut (hcleaned ▸ hcl)
    exact ⟨⟨hc.trans hopen.1, hch.trans hopen.2⟩, fun pc hpc => hnone pc (hcall ▸ hpc)⟩
  · rcases hi.shut (hcleaned ▸ hcl) with h | ⟨pc, hpc, hs⟩
    · exact .inl ⟨hc.trans h.1, hch.trans h.2⟩
    · exact .inr ⟨pc, hcall.trans hpc, hs.congr hc hch⟩

/-- A call under way goes on. -/
theorem LifeInv.advance {q q' : Lifetime} {o : Choice} (hi : LifeInv q)
    (halive : q.client.panicked = false) (h : lifeStep q (.advance o) = some q') :
    LifeInv q' := by
  unfold lifeStep at h
  rw [if_neg (by rw [halive]; exact Bool.false_ne_true)] at h
  simp only at h
  split at h
  · cases h
  · rename_i pc hpc
    split_ifs at h
    obtain ⟨⟨s', pc'⟩, hstep, rfl⟩ := Option.map_eq_some_iff.1 h
    obtain ⟨⟨hc, hch⟩, hsaw⟩ := StartupWithContext.stepWith_spec hstep (hi.saw pc hpc)
    refine ⟨fun hcl => ⟨?_, nofun⟩, fun hcl => .inl ?_, fun pc hpc => ?_⟩
    · exact ⟨hc.trans (hi.unshut hcl).1.1, hch.trans (hi.unshut hcl).1.2⟩
    · rcases hi.shut hcl with h | ⟨pc, hpc', -⟩
      · exact ⟨hc.trans h.1, hch.trans h.2⟩
      · rw [hpc] at hpc'
        cases hpc'
    · cases hpc
      exact hsaw
  · rename_i pc hpc
    split_ifs at h
    obtain ⟨⟨s', pc'⟩, hstep, rfl⟩ := Option.map_eq_some_iff.1 h
    refine ⟨fun hcl => absurd hpc ((hi.unshut hcl).2 pc), fun hcl => .inr ⟨pc', rfl, ?_⟩, nofun⟩
    refine CleanupWithContext.stepWith_signals hstep ?_
    rcases hi.shut hcl with h | ⟨pc₁, hpc₁, hs⟩
    · exact .inl h
    · rw [hpc] at hpc₁
      cases hpc₁
      exact hs

/-- **Every step keeps the invariant.** -/
theorem LifeInv.step {q q' : Lifetime} {a : LifeAction} (hi : LifeInv q)
    (hg : keptOpen q a = true) (h : lifeStep q a = some q') : LifeInv q' := by
  have hstep := h
  unfold lifeStep at h
  split at h
  · cases h
  · rename_i hp
    have halive : q.client.panicked = false := by simpa using hp
    cases a with
    | initializeResources refused rt scan =>
        simp only [Option.ite_none_right_eq_some, Option.some.injEq] at h
        obtain ⟨-, rfl⟩ := h
        obtain ⟨rt', cfg, hc, m, b, he⟩ := q.initializeResources_frame refused rt scan
        rw [he]
        exact hi.beside rfl rfl rfl rfl fun pc hpc =>
          (hi.saw pc hpc).background halive fun _ hl => hl
    | startupTasks =>
        simp only [Option.ite_none_right_eq_some, Option.some.injEq] at h
        obtain ⟨hidle, rfl⟩ := h
        refine ⟨fun hc => ⟨(hi.unshut hc).1, nofun⟩, fun hc => .inl (hi.shut_of_idle hidle hc),
          fun pc hpc => ?_⟩
        cases hpc
        trivial
    | cleanupTasks =>
        simp only [Option.ite_none_right_eq_some, Option.some.injEq] at h
        obtain ⟨hidle, rfl⟩ := h
        exact ⟨nofun, fun _ => .inr ⟨.enter, rfl, .inr (.inl (Nat.zero_le 2))⟩, nofun⟩
    | advance o => exact hi.advance halive hstep
    | background s =>
        obtain rfl := Option.some.inj h
        simp only [keptOpen, Bool.and_eq_true, beq_iff_eq] at hg
        obtain ⟨⟨hc, hch⟩, hlive⟩ := hg
        refine hi.beside rfl rfl hc hch fun pc hpc => ?_
        rw [hpc] at hlive
        refine (hi.saw pc hpc).background halive fun hck hl => ?_
        simpa [hck, hl] using hlive

/-- The last call was a `StartupTasks` that has returned nil. -/
def Lifetime.startedUp (q : Lifetime) : Bool :=
  q.call == some (.startupTasks (.returned none)) && !q.client.panicked

/-- **A successful startup yields a usable client exactly where there was no cleanup
before.** -/
theorem startup_usable_iff {q : Lifetime} (hr : Run lifeStep keptOpen newRabbitMQClient q)
    (hret : q.startedUp = true) : Usable q.client ↔ q.cleaned = false := by
  have hi : LifeInv q := by
    refine hr.invariant ⟨fun _ => ⟨⟨rfl, rfl⟩, nofun⟩, nofun, nofun⟩ ?_
    exact fun _ _ _ hi hg h => hi.step hg h
  rw [Lifetime.startedUp, Bool.and_eq_true, beq_iff_eq, Bool.not_eq_true'] at hret
  obtain ⟨hcall, halive⟩ := hret
  constructor
  · intro hu
    by_contra hc
    rcases hi.shut (by simpa using hc) with h | ⟨pc, hpc, -⟩
    · have hcon := hu.connected
      rw [Client.isConnected, h.1] at hcon
      cases hcon
    · rw [hcall] at hpc
      cases hpc
  · intro hc
    obtain ⟨⟨hcl, hch⟩, -⟩ := hi.unshut hc
    refine usable_of_live ?_ hcl hch
    rcases hi.saw _ hcall with h | h
    · exact h
    · rw [halive] at h
      cases h

/-- `InitializeResources` with the default configuration. -/
def initializeDefault : LifeAction :=
  .initializeResources none (some {}) (.ok defaultRabbitMQConfig.scanned)

/-- The call under way takes `n` steps, and everything it asks for succeeds. -/
def advances (n : ℕ) : List LifeAction := List.replicate n (.advance .ok)

/-- A startup that fails to dial, and one that succeeds. -/
theorem startup_usable_iff_second :
    ∃ q, Run lifeStep keptOpen newRabbitMQClient q ∧ q.startedUp = true ∧ Usable q.client := by
  obtain ⟨q, hr, hq⟩ := exists_run_of_replay lifeStep keptOpen newRabbitMQClient
    (fun q => q.startedUp && !q.cleaned)
    (initializeDefault :: .startupTasks :: advances 2 ++
      .advance (.fail "dial timeout") :: advances 1 ++ .startupTasks :: advances 29) (by decide)
  rw [Bool.and_eq_true, Bool.not_eq_true'] at hq
  exact ⟨q, hr, hq.1, (startup_usable_iff hr hq.1).2 hq.2⟩

/-- **A client that was cleaned up starts again and says it is closed.**  The second
startup returns nil and publishes that the client is ready; `IsConnected` is false
on an open connection, and the stop case of every new dispatch loop is ready. -/
theorem startup_after_cleanup :
    ∃ q, Run lifeStep keptOpen newRabbitMQClient q ∧ q.startedUp = true ∧
      q.client.live = true ∧ (q.client.rt.bind RuntimeContract.sharedReadiness) = some true ∧
      q.client.isConnected = false ∧ q.client.closeChanClosed = true := by
  obtain ⟨q, hr, hq⟩ := exists_run_of_replay lifeStep keptOpen newRabbitMQClient
    (fun q => q.startedUp && q.client.live &&
      (q.client.rt.bind RuntimeContract.sharedReadiness) == some true &&
      !q.client.isConnected && q.client.closeChanClosed)
    (initializeDefault :: .startupTasks :: advances 29 ++ .cleanupTasks :: advances 12 ++
      initializeDefault :: .startupTasks :: advances 29) (by decide)
  simp only [Bool.and_eq_true, beq_iff_eq, Bool.not_eq_true'] at hq
  obtain ⟨⟨⟨⟨h₁, h₂⟩, h₃⟩, h₄⟩, h₅⟩ := hq
  exact ⟨q, hr, h₁, h₂, h₃, h₄, h₅⟩

end LynxRabbit
