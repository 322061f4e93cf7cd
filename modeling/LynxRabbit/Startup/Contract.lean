/-
# What a startup reports

`startupWithContext` (`client.go`) publishes `false` as soon as it is past its first
check, publishes `true` as its last act before it returns nil, and publishes `false`
again before it returns an error, whichever of its exits it takes.  So the return
value and the published values agree at every exit, as long as no other startup and
no cleanup writes them too.

A nil return on a fresh client also says something about the client: everything the
configuration enables is registered on the stored connection, and the manager's flag
is up.  The first comes from the way the flag is kept, `HealthInv`; for the second,
nobody lowers the flag while no receiver gets an error, and only a disconnect by the
broker gives one.
-/

import LynxRabbit.Reconnection.Health
import LynxRabbit.Shutdown.NilConnection

namespace LynxRabbit

open Runs

/-! ### The published values -/

/-- The same value for both readiness and both health resources. -/
def RuntimeContract.all (b : Bool) : RuntimeContract := ⟨some b, some b, some b, some b⟩

/-- Of all startups and cleanups only goroutine `i` moves. -/
def soleLifecycle (i : ℕ) (p : State) : Action → Bool
  | .run j _ => j == i || p.threads[j]?.all fun t => !t.isStartup && !t.isCleanup
  | _ => true

/-- What a startup past its first check has published. -/
def StartupWithContext.Published (s : Client) : StartupWithContext → Prop
  | .enter => False
  | .publish => s.rt.isSome = true
  | .returned err => s.rt = some (.all err.isNone)
  | pc => s.rt = some (.all false) ∧ (pc.pastStore = true → s.connection ≠ none)

theorem Client.rt_publishRuntimeContract {s : Client} (b : Bool) (h : s.rt.isSome = true) :
    (s.publishRuntimeContract b b).rt = some (.all b) := by
  obtain ⟨r, hr⟩ := Option.isSome_iff_exists.1 h
  simp [Client.publishRuntimeContract, hr, RuntimeContract.all]

theorem StartupWithContext.Published.rt {s : Client} {pc : StartupWithContext}
    (h : pc.Published s) : s.rt.isSome = true := by
  cases pc with
  | enter => exact h.elim
  | publish => exact h
  | returned err => rw [show s.rt = _ from h]; rfl
  | _ => rw [h.1]; rfl

/-- Nothing but the runtime's values and the presence of a connection matters. -/
theorem StartupWithContext.Published.congr {s s' : Client} {pc : StartupWithContext}
    (h : pc.Published s) (hrt : s'.rt = s.rt) (hc : s.connection ≠ none → s'.connection ≠ none) :
    pc.Published s' := by
  cases pc with
  | enter => exact h
  | publish => simpa only [StartupWithContext.Published, hrt] using h
  | returned err => simpa only [StartupWithContext.Published, hrt] using h
  | _ => exact ⟨hrt.trans h.1, fun hp => hc (h.2 hp)⟩

/-- **Each step of a startup** keeps what is published in line with where it
stands. -/
theorem StartupWithContext.Moves.published {s s' : Client} {o : Choice}
    {pc pc' : StartupWithContext} {new : List Spawn} (h : pc.Moves s o s' pc' new)
    (hp : pc.Published s) : pc'.Published s' := by
  have hrt := hp.rt
  cases h with
  | refuse e => exact hp.elim
  | enter => exact hp.elim
  | publish => exact ⟨Client.rt_publishRuntimeContract false hrt, fun h => by cases h⟩
  | store c => exact ⟨hp.1, fun _ h => by cases h⟩
  | producer hi =>
      obtain ⟨n, P, K, rfl⟩ := SetupStep.exec_frame hi
      exact hp
  | consumer hi =>
      obtain ⟨n, P, K, rfl⟩ := SetupStep.exec_frame hi
      exact hp
  | @abort pc f e hf =>
      refine ⟨?_, fun h => by cases h⟩
      cases pc with
      | dial => exact hp.1
      | afterConnect => exact hp.1
      | producers todo => exact hp.1
      | afterProducers => exact hp.1
      | consumers todo => exact hp.1
      | _ => cases hf
  | panicProducer rest hi hc => exact absurd hc (hp.2 rfl)
  | panicConsumer rest hi hc => exact absurd hc (hp.2 rfl)
  | publishReady => exact Client.rt_publishRuntimeContract true hrt
  | unpublish e => exact Client.rt_publishRuntimeContract false hrt
  | dial => exact ⟨hp.1, fun h => by cases h⟩
  | consumersDone => exact ⟨hp.1, fun h => by cases h⟩
  | startHealth => exact ⟨hp.1, fun h => by cases h⟩
  | startManager => exact ⟨hp.1, fun h => by cases h⟩
  | registerShared => exact ⟨hp.1, fun h => by cases h⟩
  | pass parts hpart => exact ⟨hp.1, fun h => by cases h⟩
  | healthy => exact ⟨hp.1, fun h => by cases h⟩
  | unregistered e => exact ⟨hp.1, fun h => by cases h⟩
  | unhealthy parts e => exact ⟨hp.1, fun h => by cases h⟩
  | _ => exact hp

/-- Goroutine `i` is a startup past its first check, in line with what is
published. -/
def Reporting (i : ℕ) (p : State) : Prop :=
  ∃ pc, p.threads[i]? = some (.startup pc) ∧ pc.Published p.shared

/-- **Every step keeps the report in line.** -/
theorem Reporting.step {i : ℕ} {p p' : State} {a : Action} (hi : Reporting i p)
    (hg : soleLifecycle i p a = true) (h : Moves p a p') : Reporting i p' := by
  obtain ⟨pc, hpc, hpub⟩ := hi
  cases h with
  | @run j o l r new t t' s' hl hix ht hj =>
      by_cases hij : j = i
      · subst hij
        obtain rfl : t = .startup pc := Option.some.inj (hix.symm.trans hpc)
        cases ht with
        | startup h =>
            subst hj
            exact ⟨_, getElem?_focus_self l r _ _, h.published hpub⟩
      · -- somebody else moved, and is neither a startup nor a cleanup
        have hkind : t.isStartup = false ∧ t.isCleanup = false := by
          simpa [soleLifecycle, hij, hix] using hg
        rw [hl] at hpc
        have hplace : (l ++ t' :: r ++ new)[i]? = some (.startup pc) :=
          getElem?_focus_of_ne hpc (fun h => hij (hj.symm.trans h.symm)) t' new
        obtain ⟨b, c, P, K, L, n, m, f, x, y, -, hs'⟩ := ht.update hkind.1 hkind.2
        refine ⟨pc, hplace, hpub.congr ?_ fun hc => ht.connection_ne_none hkind.2 hc⟩
        rw [hs']
  | drop hc ho => exact ⟨pc, hpc, hpub.congr rfl id⟩
  | call k =>
      have hlt : i < p.threads.length := (List.getElem?_eq_some_iff.1 hpc).1
      exact ⟨pc, (List.getElem?_append_left hlt).trans hpc, hpub⟩
  | cancel id => exact ⟨pc, hpc, hpub.congr rfl fun h => h⟩

/-! ### A client the broker leaves alone -/

/-- One startup, no `ForceReconnect` and no cleanup, and the broker keeps every
connection open. -/
def unbroken (p : State) : Action → Bool
  | .drop _ => false
  | a => automatic p a

theorem automatic_of_unbroken {p : State} {a : Action} (h : unbroken p a = true) :
    automatic p a = true := by
  cases a with
  | drop c => cases h
  | _ => exact h

/-- The call has started the manager and has not failed since. -/
def StartupWithContext.connects : StartupWithContext → Bool
  | .registerShared => true
  | .checkHealth _ => true
  | .publishReady => true
  | .returned none => true
  | _ => false

/-- No receiver has an error for its watcher, so no watcher reconnects, and a startup
past `Start` has left the flag up. -/
structure Unbroken (p : State) : Prop where
  silent : ∀ n, p.shared.amqp.notify n ≠ .error
  waiting : ∀ pc, .watcher pc ∈ p.threads → pc.inReconnectLoop = false
  stored : ∀ pc, .startup pc ∈ p.threads → pc.pastStore = true → p.shared.connection ≠ none
  up : ∀ pc, .startup pc ∈ p.threads → pc.connects = true → p.shared.manager.connected = true

/-- **A step of a startup** gives no receiver an error, and raises the flag before it
goes on to check the client's health. -/
theorem StartupWithContext.Moves.unbroken {s s' : Client} {o : Choice}
    {pc pc' : StartupWithContext} {new : List Spawn} (h : pc.Moves s o s' pc' new)
    (hsilent : ∀ n, s.amqp.notify n ≠ .error)
    (hstored : pc.pastStore = true → s.connection ≠ none)
    (hup : pc.connects = true → s.manager.connected = true) :
    (∀ n, s'.amqp.notify n ≠ .error) ∧ (pc'.pastStore = true → s'.connection ≠ none) ∧
      (pc'.connects = true → s'.manager.connected = true) ∧
      ∀ q, Thread.watcher q ∈ new.map Spawn.thread → q.inReconnectLoop = false := by
  have hnone : ∀ q, Thread.watcher q ∈ ([] : List Spawn).map Spawn.thread →
      q.inReconnectLoop = false := by
    intro q hq
    cases hq
  cases h with
  | store c => exact ⟨hsilent, fun _ h => (by cases h), fun h => (by cases h), hnone⟩
  | notifyClose c =>
      refine ⟨fun n => ?_, hstored, fun h => (by cases h), hnone⟩
      simp only [Broker.notifyClose, Function.update_apply]
      split_ifs
      · exact fun h => by cases h
      · exact fun h => by cases h
      · exact hsilent n
  | producer hi =>
      obtain ⟨n, P, K, rfl⟩ := SetupStep.exec_frame hi
      exact ⟨hsilent, hstored, fun h => (by cases h), hnone⟩
  | consumer hi =>
      obtain ⟨n, P, K, rfl⟩ := SetupStep.exec_frame hi
      exact ⟨hsilent, hstored, fun h => (by cases h), hnone⟩
  | panicProducer rest hi hc => exact absurd hc (hstored rfl)
  | panicConsumer rest hi hc => exact absurd hc (hstored rfl)
  | startHealth =>
      refine ⟨hsilent, fun h => (by cases h), fun h => (by cases h), fun q hq => ?_⟩
      cases List.mem_singleton.1 hq
  | startManager =>
      refine ⟨hsilent, fun h => (by cases h), fun _ => rfl, fun q hq => ?_⟩
      split at hq
      · cases List.mem_singleton.1 hq
        rfl
      · cases hq
  | registerShared => exact ⟨hsilent, fun h => (by cases h), fun _ => hup rfl, hnone⟩
  | pass parts hpart => exact ⟨hsilent, fun h => (by cases h), fun _ => hup rfl, hnone⟩
  | healthy => exact ⟨hsilent, fun h => (by cases h), fun _ => hup rfl, hnone⟩
  | publishReady => exact ⟨hsilent, fun h => (by cases h), fun _ => hup rfl, hnone⟩
  | setReconnectFunc c => exact ⟨hsilent, hstored, fun h => (by cases h), hnone⟩
  | setConnectionNotify n => exact ⟨hsilent, hstored, fun h => (by cases h), hnone⟩
  | afterConnect => exact ⟨hsilent, hstored, fun h => (by cases h), hnone⟩
  | producersDone => exact ⟨hsilent, hstored, fun h => (by cases h), hnone⟩
  | afterProducers => exact ⟨hsilent, hstored, fun h => (by cases h), hnone⟩
  | _ => exact ⟨hsilent, fun h => (by cases h), fun h => (by cases h), hnone⟩

/-- A startup never lowers the flag. -/
theorem StartupWithContext.Moves.keepsFlag {s s' : Client} {o : Choice}
    {pc pc' : StartupWithContext} {new : List Spawn} (h : pc.Moves s o s' pc' new)
    (hf : s.manager.connected = true) : s'.manager.connected = true := by
  cases h with
  | producer hi =>
      obtain ⟨n, P, K, rfl⟩ := SetupStep.exec_frame hi
      exact hf
  | consumer hi =>
      obtain ⟨n, P, K, rfl⟩ := SetupStep.exec_frame hi
      exact hf
  | startManager => rfl
  | _ => exact hf

/-- A watcher with nothing to receive stays out of the way or returns. -/
theorem WatchConnection.Moves.unbroken {s s' : Client} {o : Choice} {pc pc' : WatchConnection}
    {new : List Spawn} (h : pc.Moves s o s' pc' new) (hw : pc.inReconnectLoop = false)
    (hsilent : ∀ n, s.amqp.notify n ≠ .error) :
    s' = s ∧ pc'.inReconnectLoop = false ∧ new = [] := by
  cases h with
  | stop n hs => exact ⟨rfl, rfl, rfl⟩
  | closed hn => exact ⟨rfl, rfl, rfl⟩
  | receive hn => exact absurd hn (hsilent _)
  | _ => cases hw

/-- What one goroutine's step has to bring about for the others. -/
theorem Unbroken.focus {p : State} {l r new : List Thread} {t t' : Thread} {s' : Client}
    (hi : Unbroken p) (hl : p.threads = l ++ t :: r)
    (hsilent : ∀ n, s'.amqp.notify n ≠ .error)
    (hconn : p.shared.connection ≠ none → s'.connection ≠ none)
    (hflag : p.shared.manager.connected = true → s'.manager.connected = true)
    (hmoved : ∀ u ∈ t' :: new,
      (∀ pc, u = .watcher pc → pc.inReconnectLoop = false) ∧
      ∀ pc, u = .startup pc → (pc.pastStore = true → s'.connection ≠ none) ∧
        (pc.connects = true → s'.manager.connected = true)) :
    Unbroken ⟨s', l ++ t' :: r ++ new⟩ := by
  have hin : ∀ {u}, u ∈ l ++ t' :: r ++ new → u ∈ p.threads ∨ u ∈ t' :: new := by
    intro u hu
    rcases mem_focus hu with hu | rfl | hu
    · exact .inl (hl ▸ mem_of_mem_others hu t)
    · exact .inr (List.mem_cons_self ..)
    · exact .inr (List.mem_cons_of_mem _ hu)
  refine ⟨hsilent, fun pc hpc => ?_, fun pc hpc hp => ?_, fun pc hpc hp => ?_⟩
  · rcases hin hpc with hold | hnew
    · exact hi.waiting pc hold
    · exact (hmoved _ hnew).1 pc rfl
  · rcases hin hpc with hold | hnew
    · exact hconn (hi.stored pc hold hp)
    · exact ((hmoved _ hnew).2 pc rfl).1 hp
  · rcases hin hpc with hold | hnew
    · exact hflag (hi.up pc hold hp)
    · exact ((hmoved _ hnew).2 pc rfl).2 hp

/-- **A step of a goroutine** keeps the connections unbroken. -/
theorem Unbroken.run {p : State} {l r new : List Thread} {t t' : Thread} {o : Choice}
    {s' : Client} (hi : Unbroken p) (hl : p.threads = l ++ t :: r)
    (ht : t.Moves p.shared o s' t' new) (hk : t.isForce = false ∧ t.isCleanup = false) :
    Unbroken ⟨s', l ++ t' :: r ++ new⟩ := by
  have hmem : t ∈ p.threads := hl ▸ mem_focus_self l r t
  cases hst : t.isStartup with
  | true =>
      have hconn := ht.connection_ne_none hk.2
      cases ht with
      | @startup pc pc' _ sp h =>
          obtain ⟨hsilent, hstored, hup, hnew⟩ :=
            h.unbroken hi.silent (hi.stored pc hmem) (hi.up pc hmem)
          refine hi.focus hl hsilent hconn h.keepsFlag (List.forall_mem_cons.2 ⟨?_, ?_⟩)
          · refine ⟨fun q hq => (by cases hq), fun q hq => ?_⟩
            cases hq
            exact ⟨hstored, hup⟩
          · intro u hu
            refine ⟨fun q hq => hnew q (hq ▸ hu), fun q hq => ?_⟩
            obtain ⟨x, -, rfl⟩ := List.mem_map.1 hu
            cases x <;> cases hq
      | _ => cases hst
  | false =>
      have hone : ∀ u ∈ t' :: new, ∀ pc, u ≠ .startup pc := by
        refine List.forall_mem_cons.2 ⟨?_, fun u hu pc he => ?_⟩
        · rintro pc rfl
          rw [← ht.kind.1] at hst
          cases hst
        · obtain ⟨x, rfl⟩ := ht.spawned u hu
          cases x <;> cases he
      by_cases hp : t.passive = true
      · obtain ⟨hs, hp', hloops⟩ := ht.passive hp
        refine hi.focus hl (fun n => ?_) (fun hc => ?_) (fun hf => ?_) fun u hu =>
          ⟨fun pc hpc => ?_, fun pc hpc => absurd hpc (hone u hu pc)⟩
        · rw [hs.notify]
          exact hi.silent n
        · rwa [hs.connection]
        · rwa [hs.manager]
        · subst hpc
          rcases List.mem_cons.1 hu with rfl | hu
          · cases hp'
          · obtain ⟨k, hk⟩ := hloops _ hu
            cases hk
      · cases ht with
        | watcher h =>
            obtain ⟨rfl, hw, rfl⟩ := h.unbroken (hi.waiting _ hmem) hi.silent
            refine hi.focus hl hi.silent id id fun u hu =>
              ⟨fun pc hpc => ?_, fun pc hpc => absurd hpc (hone u hu pc)⟩
            rw [List.mem_singleton.1 hu] at hpc
            cases hpc
            exact hw
        | force h => cases hk.1
        | cleanup h => cases hk.2
        | startup h => cases hst
        | _ => exact absurd rfl hp

/-- **Every step keeps the connections unbroken.** -/
theorem Unbroken.step {p p' : State} {a : Action} (hi : Unbroken p)
    (hk : ∀ t ∈ p.threads, t.isForce = false ∧ t.isCleanup = false)
    (hg : unbroken p a = true) (h : Moves p a p') : Unbroken p' := by
  cases h with
  | run hl hix ht => exact hi.run hl ht (hk _ (List.mem_of_getElem? hix))
  | drop hc ho => cases hg
  | call k =>
      have hin : ∀ {u}, u ∈ p.threads ++ [k.thread p.threads.length] →
          u ∈ p.threads ∨ u = k.thread p.threads.length := by
        intro u hu
        simpa using hu
      refine ⟨hi.silent, fun pc hpc => ?_, fun pc hpc hp => ?_, fun pc hpc hp => ?_⟩
      · rcases hin hpc with hold | hnew
        · exact hi.waiting pc hold
        · cases k <;> cases hnew
      · rcases hin hpc with hold | hnew
        · exact hi.stored pc hold hp
        · cases k <;> cases hnew
          cases hp
      · rcases hin hpc with hold | hnew
        · exact hi.up pc hold hp
        · cases k <;> cases hnew
          cases hp
  | cancel id => exact ⟨hi.silent, hi.waiting, hi.stored, hi.up⟩

theorem unbroken_fresh (cfg : RabbitMQ) : Unbroken (fresh cfg) :=
  ⟨fun n h => (by cases h), fun pc h => (by cases h), fun pc h => (by cases h),
    fun pc h => (by cases h)⟩

/-! ### The two halves of a startup's report -/

/-- Goroutine `i` has returned `err` from `startupWithContext`: the published values
are all true if it is nil, and all false otherwise. -/
def Agrees (err : Option GoError) (rt : Option RuntimeContract) : Prop :=
  (err = none ↔ rt = some (.all true)) ∧ (err ≠ none → rt = some (.all false))

theorem agrees_of_eq {err : Option GoError} {rt : Option RuntimeContract}
    (h : rt = some (.all err.isNone)) : Agrees err rt := by
  subst h
  cases err with
  | none => exact ⟨iff_of_true rfl rfl, fun h => absurd rfl h⟩
  | some e =>
      refine ⟨iff_of_false (Option.some_ne_none e) fun h => ?_, fun _ => rfl⟩
      simp [RuntimeContract.all] at h

/-- **A startup's result, the published contract and the client agree.**

From any state in which a startup is past its first check, with a runtime there and
no other startup or cleanup moving: whichever exit the call takes, whatever every
step of it and of the other goroutines comes to, it returns nil exactly when the
published values are all true in the end, and otherwise they are all false.

On a fresh client whose connections the broker keeps open: once the startup has
returned nil, every enabled producer and consumer has a channel of the stored
connection under its name, and the manager is connected. -/
theorem startup_agrees :
    (∀ (p q : State) (i : ℕ) (err : Option GoError),
      p.threads[i]? = some (.startup .publish) → p.shared.rt.isSome = true →
      Run step (soleLifecycle i) p q → q.threads[i]? = some (.startup (.returned err)) →
        Agrees err q.shared.rt) ∧
      ∀ (cfg : RabbitMQ) (q : State), Run step unbroken (fresh cfg) q →
        .startup (.returned none) ∈ q.threads →
          ∃ c, q.shared.connection = some c ∧ q.shared.manager.connected = true ∧
            (∀ k ∈ cfg.getEnabledProducers, ∃ ch,
              q.shared.producers.lookup k.name = some (some ch) ∧ ch.conn = c) ∧
            ∀ k ∈ cfg.getEnabledConsumers, ∃ ch,
              q.shared.consumers.lookup k.name = some (some ch) ∧ ch.conn = c := by
  constructor
  · intro p q i err hp hrt hr hret
    obtain ⟨pc, hpc, hpub⟩ : Reporting i q := hr.invariant ⟨.publish, hp, hrt⟩
      fun _ _ _ hi hg h => hi.step hg (moves_of_step h).2
    obtain rfl : pc = .returned err := by simpa [hret] using hpc.symm
    exact agrees_of_eq hpub
  · intro cfg q hr hret
    have hi : HealthInv q ∧ Unbroken q := by
      refine hr.invariant (I := fun q => HealthInv q ∧ Unbroken q)
        ⟨healthInv_fresh cfg, unbroken_fresh cfg⟩ fun p a p' hi hg h => ?_
      have hm := (moves_of_step h).2
      exact ⟨hi.1.step (automatic_of_unbroken hg) hm, hi.2.step hi.1.kinds hg hm⟩
    have hup := hi.2.up _ hret rfl
    obtain ⟨c, hc, hcomp⟩ := hi.1.up hup
    rw [Complete, run_config hr] at hcomp
    refine ⟨c, hc, hup, fun k hk => hcomp (.producer k.name) ?_, fun k hk =>
      hcomp (.consumer k.name) ?_⟩
    · exact List.mem_append_left _ (List.mem_map.2 ⟨k, hk, rfl⟩)
    · exact List.mem_append_right _ (List.mem_map.2 ⟨k, hk, rfl⟩)

/-- The default client, past the first check of its startup. -/
def pastFirstCheck : State := ⟨{ config := defaultRabbitMQConfig }, [.startup .publish]⟩

/-- Its startup alone, once with every call succeeding and once with the exchange of
its producer refused; and the whole startup of a fresh client. -/
theorem startup_agrees_default :
    (∃ q, Run step (soleLifecycle 0) pastFirstCheck q ∧
      q.threads[0]? = some (.startup (.returned none)) ∧ Agrees none q.shared.rt) ∧
    (∃ q e, Run step (soleLifecycle 0) pastFirstCheck q ∧
      q.threads[0]? = some (.startup (.returned (some e))) ∧ Agrees (some e) q.shared.rt) ∧
    ∃ q c, Run step unbroken (fresh defaultRabbitMQConfig) q ∧
      .startup (.returned none) ∈ q.threads ∧ q.shared.connection = some c ∧
      q.shared.manager.connected = true := by
  refine ⟨?_, ?_, ?_⟩
  · obtain ⟨q, hr, hq⟩ := exists_run_of_replay step (soleLifecycle 0) pastFirstCheck
      (fun q => q.threads[0]? == some (.startup (.returned none))) (solo 0 28) (by decide)
    rw [beq_iff_eq] at hq
    exact ⟨q, hr, hq, startup_agrees.1 pastFirstCheck q 0 none rfl rfl hr hq⟩
  · obtain ⟨q, hr, hq⟩ := exists_run_of_replay step (soleLifecycle 0) pastFirstCheck
      (fun q => q.threads[0]? == some (.startup (.returned (some (.wrapf
        "failed to initialize producers" (.wrapf "failed to create producer default-producer"
          (.wrapf "failed to declare exchange lynx.exchange" (.library "refused"))))))))
      (solo 0 8 ++ [.run 0 (.fail "refused"), .run 0 .ok]) (by decide)
    rw [beq_iff_eq] at hq
    exact ⟨q, _, hr, hq, startup_agrees.1 pastFirstCheck q 0 _ rfl rfl hr hq⟩
  · obtain ⟨q, hr, hq⟩ := exists_run_of_replay step unbroken (fresh defaultRabbitMQConfig)
      (fun q => q.threads.contains (.startup (.returned none))) boot (by decide)
    have hret := List.contains_iff_mem.1 hq
    obtain ⟨c, hc, hup, -⟩ := startup_agrees.2 defaultRabbitMQConfig q hr hret
    exact ⟨q, c, hr, hret, hc, hup⟩

end LynxRabbit
