/-
# Shutdown is final

`cleanupWithContext` tears down four pieces one after the other: the `connected`
flag in `Stop`, the consumers, the producers, and the connection.  Nothing waits
for the watcher, and the reconnect callback looks at neither `closed` nor the stop
channel, so a reconnect attempt that is under way when the cleanup begins goes on
through it and may put back what the cleanup took away.

`leavesTornDown` is the condition that it does not: a watcher stores no open
connection once a cleanup has returned, registers no channel in a map a cleanup
has emptied, and does not raise the flag after `Stop`.  Under it the state the
cleanup returns in is final.
-/

import LynxRabbit.Client.Connections

namespace LynxRabbit

open Runs

/-- One startup; cleanup is called on a started client; no `ForceReconnect`. -/
def stopping (p : State) : Action → Bool
  | .call .startup => unstarted p
  | .call .cleanup => started p
  | .call .forceReconnect => false
  | _ => true

/-- The call has been through `Stop` of the connection manager. -/
def CleanupWithContext.stoppedManager : CleanupWithContext → Bool
  | .closeStopChan => true
  | .waitSubscriptions => true
  | .waitPool => true
  | .closeConsumers => true
  | .closeProducers => true
  | .closeConnection => true
  | .returned _ => true
  | _ => false

/-- The call has emptied the consumers. -/
def CleanupWithContext.emptiedConsumers : CleanupWithContext → Bool
  | .closeProducers => true
  | .closeConnection => true
  | .returned _ => true
  | _ => false

/-- The call has emptied the producers. -/
def CleanupWithContext.emptiedProducers : CleanupWithContext → Bool
  | .closeConnection => true
  | .returned _ => true
  | _ => false

/-- The call has dealt with the connection. -/
def CleanupWithContext.finished : CleanupWithContext → Bool
  | .returned _ => true
  | _ => false

/-- The watcher puts nothing back that a cleanup has torn down. -/
def leavesTornDown (p : State) : Thread → Bool
  | .watcher (.callback _ (.store c)) =>
    p.shared.amqp.closed c || !someCleanup CleanupWithContext.finished p
  | .watcher (.callback _ (.rebuild _ (.registerProducer _ _ :: _))) =>
    !someCleanup CleanupWithContext.emptiedProducers p
  | .watcher (.callback _ (.rebuild _ (.registerConsumer _ _ :: _))) =>
    !someCleanup CleanupWithContext.emptiedConsumers p
  | .watcher (.established _) => !p.shared.manager.stopped
  | _ => true

/-- What a cleanup has torn down by where it stands. -/
structure TornDown (s : Client) (pc : CleanupWithContext) : Prop where
  manager : pc.stoppedManager = true → s.manager.stopped = true
  consumers : pc.emptiedConsumers = true → s.consumers = ∅
  producers : pc.emptiedProducers = true → s.producers = ∅
  connection : pc.finished = true → s.dead = true

/-- The invariant of the runs in which the watchers leave alone what is torn
down. -/
structure FinalInv (p : State) : Prop where
  one : SingleStartup p
  known : Known p
  noForce : ∀ t ∈ p.threads, t.isForce = false
  begun : ∀ t ∈ p.threads, t.isCleanup = true → started p = true
  stopped : p.shared.manager.stopped = true →
    started p = true ∧ p.shared.manager.connected = false
  torn : ∀ pc, .cleanup pc ∈ p.threads → TornDown p.shared pc

/-! ### The maps under the callback -/

/-- A callback step keeps a map, empties it, or registers a channel in it. -/
theorem Callback.Moves.maps {s s' : Client} {o : Choice} {cb : Callback}
    {q : Callback ⊕ ConnId} {new : List Spawn} (h : cb.Moves s o s' q new) :
    (s'.producers = s.producers ∨ s'.producers = ∅ ∨
        ∃ c name ch rest, cb = .rebuild c (.registerProducer name ch :: rest)) ∧
      (s'.consumers = s.consumers ∨ s'.consumers = ∅ ∨
        ∃ c name ch rest, cb = .rebuild c (.registerConsumer name ch :: rest)) := by
  cases h with
  | clearProducers c => exact ⟨.inr (.inl rfl), .inl rfl⟩
  | clearConsumers c => exact ⟨.inl rfl, .inr (.inl rfl)⟩
  | setup c hi =>
      rcases SetupStep.exec_next hi with ⟨c', -, -, rfl, -⟩ | ⟨r, ch, -, rfl, -⟩ |
        ⟨name, ch, rfl, rfl, -⟩ | ⟨name, ch, rfl, rfl, -⟩
      · exact ⟨.inl rfl, .inl rfl⟩
      · exact ⟨.inl rfl, .inl rfl⟩
      · exact ⟨.inr (.inr ⟨_, _, _, _, rfl⟩), .inl rfl⟩
      · exact ⟨.inl rfl, .inr (.inr ⟨_, _, _, _, rfl⟩)⟩
  | dispatch c started pending hd =>
      obtain ⟨⟨n, rfl⟩, -⟩ := DispatchStep.exec_inl hd
      exact ⟨.inl rfl, .inl rfl⟩
  | start c started pending hd =>
      obtain ⟨rfl, -⟩ := DispatchStep.exec_inr hd
      exact ⟨.inl rfl, .inl rfl⟩
  | _ => exact ⟨.inl rfl, .inl rfl⟩

/-- A map that a cleanup has emptied stays empty, where nobody registers a channel in it after a
cleanup has emptied it. -/
theorem stays_empty {p : State} {f : CleanupWithContext → Bool} {k : CleanupWithContext}
    {m m' : ChannelMap} {registers : Prop} (hmaps : m' = m ∨ m' = ∅ ∨ registers)
    (hreg : registers → someCleanup f p = false) (hm : .cleanup k ∈ p.threads)
    (hf : f k = true) (he : m = ∅) : m' = ∅ := by
  rcases hmaps with hk | hk | hr
  · exact hk.trans he
  · exact hk
  · rw [someCleanup_eq_false (hreg hr) hm] at hf
    cases hf

/-! ### Steps -/

/-- Nothing that is torn down in `s` is back in `s'`. -/
structure Sinks (s s' : Client) : Prop where
  manager : s.manager.stopped = true → s'.manager.stopped = true
  consumers : s.consumers = ∅ → s'.consumers = ∅
  producers : s.producers = ∅ → s'.producers = ∅
  connection : s.dead = true → s'.dead = true

theorem TornDown.mono {s s' : Client} {pc : CleanupWithContext} (h : TornDown s pc)
    (hs : Sinks s s') : TornDown s' pc :=
  ⟨fun hp => hs.manager (h.manager hp), fun hp => hs.consumers (h.consumers hp),
    fun hp => hs.producers (h.producers hp), fun hp => hs.connection (h.connection hp)⟩

theorem SameCore.sinks {s s' : Client} (h : SameCore s s') : Sinks s s' := by
  refine ⟨fun hp => ?_, h.consumers.trans, h.producers.trans, fun hp => ?_⟩
  · rwa [h.manager]
  · rwa [Client.dead, h.connection, h.closed]

/-- **A watcher that meets the condition leaves torn down what is.** -/
theorem WatchConnection.Moves.tornDown {p : State} {s' : Client} {o : Choice}
    {pc pc' : WatchConnection} {new : List Spawn} (h : pc.Moves p.shared o s' pc' new)
    (hcond : leavesTornDown p (.watcher pc) = true) (hk : Known p) {k : CleanupWithContext}
    (hm : .cleanup k ∈ p.threads) (ht : TornDown p.shared k) : TornDown s' k := by
  have hcb : ∀ {ms cb q sp}, pc = .callback ms cb → Callback.Moves p.shared o cb s' q sp →
      TornDown s' k := by
    rintro ms cb q sp rfl hmv
    refine ⟨fun hp => ?_, fun hp => ?_, fun hp => ?_, fun hp => ?_⟩
    · rw [hmv.frame.manager]
      exact ht.manager hp
    · refine stays_empty hmv.maps.2 ?_ hm hp (ht.consumers hp)
      rintro ⟨c, name, ch, rest, rfl⟩
      simpa [leavesTornDown] using hcond
    · refine stays_empty hmv.maps.1 ?_ hm hp (ht.producers hp)
      rintro ⟨c, name, ch, rest, rfl⟩
      simpa [leavesTornDown] using hcond
    · have hcs := hmv.connStep
      cases hmv with
      | store c =>
          rw [leavesTornDown, Bool.or_eq_true, Bool.not_eq_true'] at hcond
          rcases hcond with hcl | hnone
          · exact hcl
          · rw [someCleanup_eq_false hnone hm] at hp
            cases hp
      | _ => exact hcs.dead rfl hk.stored (ht.connection hp)
  cases h with
  | callback ms hmv => exact hcb rfl hmv
  | success ms hmv => exact hcb rfl hmv
  | _ => exact ht.mono ⟨id, id, id, id⟩

theorem Client.dead_shutdown {s : Client} {c : ConnId} (hc : s.connection = some c) :
    Client.dead { s with amqp := s.amqp.shutdown c } = true := by
  rw [Client.dead, hc, Option.all_some]
  exact Function.update_self ..

/-- Nothing another cleanup has torn down comes back. -/
theorem CleanupWithContext.Moves.sinks {s s' : Client} {o : Choice} {pc pc' : CleanupWithContext}
    (h : pc.Moves s o s' pc') : Sinks s s' := by
  cases h with
  | stopManager => exact ⟨fun _ => rfl, id, id, id⟩
  | closeConsumers => exact ⟨id, fun _ => rfl, id, id⟩
  | closeProducers => exact ⟨id, id, fun _ => rfl, id⟩
  | closeFails e hc ho => exact ⟨id, id, id, fun _ => Client.dead_shutdown hc⟩
  | close hc ho he => exact ⟨id, id, id, fun _ => rfl⟩
  | _ => exact ⟨id, id, id, id⟩

theorem tornDown_of_running {s : Client} {pc : CleanupWithContext}
    (h : pc.stoppedManager = true → s.manager.stopped = true)
    (hc : pc.emptiedConsumers = false) (hp : pc.emptiedProducers = false)
    (hf : pc.finished = false) : TornDown s pc := by
  refine ⟨h, fun h => ?_, fun h => ?_, fun h => ?_⟩
  · rw [hc] at h; cases h
  · rw [hp] at h; cases h
  · rw [hf] at h; cases h

/-- **A cleanup tears down piece by piece.** -/
theorem CleanupWithContext.Moves.tornDown {s s' : Client} {o : Choice}
    {pc pc' : CleanupWithContext} (h : pc.Moves s o s' pc') (ht : TornDown s pc) :
    TornDown s' pc' := by
  cases h with
  | stopManager => split_ifs <;> exact tornDown_of_running (fun _ => rfl) rfl rfl rfl
  | closeConsumers =>
      exact ⟨ht.manager, fun _ => rfl, fun h => (by cases h), fun h => (by cases h)⟩
  | closeProducers => exact ⟨ht.manager, ht.consumers, fun _ => rfl, fun h => (by cases h)⟩
  | noConnection hc =>
      refine ⟨ht.manager, ht.consumers, ht.producers, fun _ => ?_⟩
      rw [Client.dead, hc]
      rfl
  | alreadyClosed e hc ho =>
      refine ⟨ht.manager, ht.consumers, ht.producers, fun _ => ?_⟩
      rw [Client.dead, hc]
      exact ho
  | closeFails e hc ho =>
      exact ⟨ht.manager, ht.consumers, ht.producers, fun _ => Client.dead_shutdown hc⟩
  | close hc ho he => exact ⟨ht.manager, ht.consumers, ht.producers, fun _ => rfl⟩
  | cancel => exact tornDown_of_running (fun h => (by cases h)) rfl rfl rfl
  | enter => exact tornDown_of_running (fun h => (by cases h)) rfl rfl rfl
  | _ => exact ⟨ht.manager, ht.consumers, ht.producers, ht.connection⟩

/-- Nobody but a cleanup stops the manager; the flag goes up only at a startup's
`Start`, in `ForceReconnect`, and where a watcher has reconnected. -/
theorem Thread.Moves.flag {s s' : Client} {t t' : Thread} {o : Choice} {new : List Thread}
    (h : t.Moves s o s' t' new) (hk : t.isForce = false ∧ t.isCleanup = false) :
    s'.manager.stopped = s.manager.stopped ∧
      (s'.manager.connected = s.manager.connected ∨ s'.manager.connected = false ∨
        t = .startup .startManager ∨ ∃ c, t = .watcher (.established c)) := by
  cases h with
  | watcher h =>
      cases h with
      | lower => exact ⟨rfl, .inr (.inl rfl)⟩
      | raise c => exact ⟨rfl, .inr (.inr (.inr ⟨c, rfl⟩))⟩
      | callback ms hm => rw [hm.frame.manager]; exact ⟨rfl, .inl rfl⟩
      | success ms hm => rw [hm.frame.manager]; exact ⟨rfl, .inl rfl⟩
      | _ => exact ⟨rfl, .inl rfl⟩
  | startup h =>
      cases h with
      | startManager => exact ⟨rfl, .inr (.inr (.inl rfl))⟩
      | producer hi =>
          obtain ⟨n, P, K, rfl⟩ := SetupStep.exec_frame hi
          exact ⟨rfl, .inl rfl⟩
      | consumer hi =>
          obtain ⟨n, P, K, rfl⟩ := SetupStep.exec_frame hi
          exact ⟨rfl, .inl rfl⟩
      | _ => exact ⟨rfl, .inl rfl⟩
  | force h => cases hk.1
  | cleanup h => cases hk.2
  | subscribe id h => rw [h.sameCore.1.manager]; exact ⟨rfl, .inl rfl⟩
  | loop l h => rw [h.sameCore.manager]; exact ⟨rfl, .inl rfl⟩
  | health h => rw [(HealthRun.step_sameCore h).manager]; exact ⟨rfl, .inl rfl⟩

theorem CleanupWithContext.Moves.flag {s s' : Client} {o : Choice}
    {pc pc' : CleanupWithContext} (h : pc.Moves s o s' pc') :
    (s'.manager.stopped = s.manager.stopped ∧ s'.manager.connected = s.manager.connected) ∨
      s'.manager.connected = false := by
  cases h with
  | stopManager => exact .inr rfl
  | _ => exact .inl ⟨rfl, rfl⟩

/-- **The flag stays down after `Stop`.** -/
theorem FinalInv.stopped_run {p : State} {l r new : List Thread} {t t' : Thread} {o : Choice}
    {s' : Client} (hi : FinalInv p) (hl : p.threads = l ++ t :: r)
    (ht : t.Moves p.shared o s' t' new) (hcond : leavesTornDown p t = true)
    (hst : s'.manager.stopped = true) :
    started ⟨s', l ++ t' :: r ++ new⟩ = true ∧ s'.manager.connected = false := by
  have hmem : t ∈ p.threads := hl ▸ mem_focus_self l r t
  by_cases hk : t.isCleanup = true
  · refine ⟨started_focus hl ht (hi.begun t hmem hk), ?_⟩
    cases ht with
    | cleanup h =>
        rcases h.flag with ⟨hst', hco⟩ | hco
        · exact hco.trans (hi.stopped (hst'.symm.trans hst)).2
        · exact hco
    | _ => cases hk
  · obtain ⟨hst', hco⟩ := ht.flag ⟨hi.noForce t hmem, by simpa using hk⟩
    obtain ⟨hs, hdown⟩ := hi.stopped (hst'.symm.trans hst)
    refine ⟨started_focus hl ht hs, ?_⟩
    rcases hco with hco | hco | rfl | ⟨c, rfl⟩
    · exact hco.trans hdown
    · exact hco
    · cases hi.one.startup_eq hs hmem
    · rw [leavesTornDown, ← hst', hst] at hcond
      cases hcond

/-- **What a cleanup has torn down stays so**, whoever moves. -/
theorem FinalInv.torn_run {p : State} {l r new : List Thread} {t t' : Thread} {o : Choice}
    {s' : Client} (hi : FinalInv p) (hl : p.threads = l ++ t :: r)
    (ht : t.Moves p.shared o s' t' new) (hcond : leavesTornDown p t = true)
    {pc : CleanupWithContext} (hpc : .cleanup pc ∈ l ++ t' :: r ++ new) : TornDown s' pc := by
  have hmem : t ∈ p.threads := hl ▸ mem_focus_self l r t
  rcases ht.cleanup_origin hpc with hold | ⟨pc₀, rfl, h⟩
  · have hin : .cleanup pc ∈ p.threads := hl ▸ mem_of_mem_others hold t
    have htorn := hi.torn pc hin
    by_cases hp : t.passive = true
    · exact htorn.mono (ht.passive hp).1.sinks
    · cases ht with
      | watcher h => exact h.tornDown hcond hi.known hin htorn
      | cleanup h => exact htorn.mono h.sinks
      | force h => cases hi.noForce _ hmem
      | startup h =>
          -- a cleanup is there, so the startup is over
          cases hi.one.startup_eq (hi.begun _ hin rfl) hmem
          exact absurd rfl hp
      | _ => exact absurd rfl hp
  · exact h.tornDown (hi.torn pc₀ hmem)

/-- **Every step keeps the invariant.** -/
theorem FinalInv.step {p p' : State} {a : Action} (hi : FinalInv p)
    (hg : both stopping (onRun leavesTornDown) p a = true) (h : Moves p a p') : FinalInv p' := by
  obtain ⟨hstop, hcond⟩ := both_iff.1 hg
  have hone := hi.one.step (oneStartup_of_guard rfl hstop) h
  have hknown := hi.known.step h
  cases h with
  | run hl hix ht =>
      have hcond := onRun_run hcond hix
      exact ⟨hone, hknown, ht.forall_kind ht.kind.2.1 (fun x => x.thread_kind.2.1)
        (hl ▸ hi.noForce), ht.started_of_kind hl ht.kind.2.2 (fun x => x.thread_kind.2.2) hi.begun,
        hi.stopped_run hl ht hcond, fun pc => hi.torn_run hl ht hcond⟩
  | drop hc ho =>
      refine ⟨hone, hknown, hi.noForce, hi.begun, hi.stopped, fun pc hpc => ?_⟩
      exact (hi.torn pc hpc).mono ⟨id, id, id, fun hd => Client.dead_drop hd _⟩
  | call k =>
      refine ⟨hone, hknown, List.forall_mem_append.2 ⟨hi.noForce, List.forall_mem_singleton.2 ?_⟩,
        started_of_kind_snoc hi.begun fun hc => ?_,
        fun hst => ⟨started_snoc _ _ (hi.stopped hst).1, (hi.stopped hst).2⟩, fun pc hpc => ?_⟩
      · cases k <;> first | rfl | cases hstop
      · cases k with
        | cleanup => exact hstop
        | _ => cases hc
      · rcases List.mem_append.1 hpc with hpc | hpc
        · exact hi.torn pc hpc
        · cases k <;> cases List.mem_singleton.1 hpc
          exact tornDown_of_running (fun h => (by cases h)) rfl rfl rfl
  | cancel ctx =>
      exact ⟨hone, hknown, hi.noForce, hi.begun, hi.stopped, fun pc hpc =>
        (hi.torn pc hpc).mono ⟨id, id, id, id⟩⟩

/-- **Shutdown is final where the watchers leave alone what is torn down.**  In
every run of one startup, disconnects, reconnects, `Subscribe` calls and cleanups
in which every step meets the condition: once a cleanup that was not refused at
its first check has returned, no open connection is stored, the maps are empty,
and the manager is not connected, in that state and in every later one. -/
theorem shutdown_final (cfg : RabbitMQ) (p : State)
    (hr : Run step (both stopping (onRun leavesTornDown)) (fresh cfg) p) (err : Option GoError)
    (hret : .cleanup (.returned err) ∈ p.threads) :
    (∀ c, p.shared.connection = some c → p.shared.amqp.closed c = true) ∧
      p.shared.producers = ∅ ∧ p.shared.consumers = ∅ ∧ p.shared.manager.connected = false := by
  have hi : FinalInv p := by
    refine hr.invariant ⟨singleStartup_fresh cfg, known_fresh cfg, fun t ht => (by cases ht),
      fun t ht => (by cases ht), fun h => (by cases h), fun pc hpc => (by cases hpc)⟩ ?_
    exact fun _ _ _ hi hg h => hi.step hg (moves_of_step h).2
  have ht := hi.torn _ hret
  refine ⟨?_, ht.producers rfl, ht.consumers rfl, (hi.stopped (ht.manager rfl)).2⟩
  have hdead := ht.connection rfl
  rw [Client.dead, Option.all_eq_true] at hdead
  exact hdead

/-- A cleanup while the watcher is in its back-off, which it leaves at the closed
stop channel. -/
theorem shutdown_final_in_backoff :
    ∃ p, Run step (both stopping (onRun leavesTornDown)) (fresh defaultRabbitMQConfig) p ∧
      .watcher (.backoff 500) ∈ p.threads ∧ ∃ err, .cleanup (.returned err) ∈ p.threads ∧
      (∀ c, p.shared.connection = some c → p.shared.amqp.closed c = true) ∧
      p.shared.producers = ∅ ∧ p.shared.consumers = ∅ ∧ p.shared.manager.connected = false := by
  obtain ⟨p, hr, hp⟩ := exists_run_of_replay step (both stopping (onRun leavesTornDown))
    (fresh defaultRabbitMQConfig)
    (fun p => p.threads.contains (.watcher (.backoff 500)) &&
      p.threads.contains (.cleanup (.returned (some (.library Broker.errClosed)))))
    (boot ++ .drop 0 :: solo 2 3 ++ .run 2 (.fail "dial timeout") :: .call .cleanup :: solo 3 12)
    (by decide)
  rw [Bool.and_eq_true, List.contains_iff_mem, List.contains_iff_mem] at hp
  exact ⟨p, hr, hp.1, _, hp.2, shutdown_final defaultRabbitMQConfig p hr _ hp.2⟩

/-- **A reconnect under way survives the shutdown.**  The watcher has dialled
connection 1 when the cleanup runs from its first step to its return; then it
stores the connection, fills the maps again, and raises the flag. -/
theorem shutdown_undone :
    ∃ p, Run step stopping (fresh defaultRabbitMQConfig) p ∧
      (∃ err, .cleanup (.returned err) ∈ p.threads) ∧
      (∃ c, p.shared.connection = some c ∧ p.shared.amqp.closed c = false) ∧
      p.shared.producers ≠ ∅ ∧ p.shared.consumers ≠ ∅ ∧ p.shared.manager.connected = true := by
  obtain ⟨p, hr, hp⟩ := exists_run_of_replay step stopping (fresh defaultRabbitMQConfig)
    (fun p => p.threads.contains (.cleanup (.returned (some (.library Broker.errClosed)))) &&
      p.shared.connection == some 1 && !p.shared.amqp.closed 1 &&
      !p.shared.producers.entries.isEmpty && !p.shared.consumers.entries.isEmpty &&
      p.shared.manager.connected)
    (boot ++ .drop 0 :: solo 2 4 ++ .call .cleanup :: solo 3 12 ++ solo 2 14) (by decide)
  simp only [Bool.and_eq_true, List.contains_iff_mem, beq_iff_eq, Bool.not_eq_true'] at hp
  obtain ⟨⟨⟨⟨⟨hret, hc⟩, ho⟩, hprod⟩, hcons⟩, hconn⟩ := hp
  refine ⟨p, hr, ⟨_, hret⟩, ⟨1, hc, ho⟩, fun h => ?_, fun h => ?_, hconn⟩
  · rw [h] at hprod
    cases hprod
  · rw [h] at hcons
    cases hcons

end LynxRabbit
