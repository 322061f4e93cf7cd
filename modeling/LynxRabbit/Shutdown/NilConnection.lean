/-
# `Channel()` on a nil connection

`createProducer` and `createConsumer` call `r.connection.Channel()` without the
mutex and without a nil check, once for every configured entry; the last step of
a cleanup sets `r.connection` to nil.  A cleanup that does so while an execution
of the reconnect callback is past its store and has channels left to open takes
the process down.

The condition is on that one step of the cleanup: nobody has channels left to
open when it sets the field to nil.  A callback that has not stored its
connection yet does not matter, since its store comes before its first channel.
-/

import LynxRabbit.Client.Connections

namespace LynxRabbit

open Runs

/-- One startup; `ForceReconnect` and cleanup are called on a started client. -/
def reconnectOrStop (p : State) : Action → Bool
  | .call .startup => unstarted p
  | .call .cleanup => started p
  | .call .forceReconnect => started p
  | _ => true

/-- The callback has stored its connection and has channels left to open. -/
def Callback.opensLater (cfg : RabbitMQ) : Callback → Bool
  | .clearProducers _ => (cfg.initializeProducers ++ cfg.initializeConsumers).any SetupStep.opens
  | .clearConsumers _ => (cfg.initializeProducers ++ cfg.initializeConsumers).any SetupStep.opens
  | .rebuild _ todo => todo.any SetupStep.opens
  | _ => false

def Thread.opensLater (cfg : RabbitMQ) (t : Thread) : Bool :=
  t.callback?.any (Callback.opensLater cfg)

/-- A cleanup sets `r.connection` to nil only when no execution of the callback
has channels left to open on it. -/
def closesWhenIdle (p : State) : Action → Bool
  | .run i o =>
    match p.threads[i]? with
    | some (.cleanup .closeConnection) =>
      p.shared.dead || o.err.isSome || p.threads.all fun u => !u.opensLater p.shared.config
    | _ => true
  | _ => true

/-- The startup has stored its connection and is not through its set-up. -/
def StartupWithContext.pastStore : StartupWithContext → Bool
  | .setReconnectFunc _ => true
  | .notifyClose _ => true
  | .setConnectionNotify _ => true
  | .afterConnect => true
  | .producers _ => true
  | .afterProducers => true
  | .consumers _ => true
  | _ => false

/-- Nobody has channels to open while there is no connection. -/
structure NilInv (p : State) : Prop where
  one : SingleStartup p
  begun : ∀ t ∈ p.threads, t.isCleanup = true → started p = true
  idle : p.shared.connection = none →
    ∀ t ∈ p.threads, t.opensLater p.shared.config = false
  setup : ∀ pc, .startup pc ∈ p.threads → pc.pastStore = true → p.shared.connection ≠ none
  calm : p.shared.panicked = false

/-- A set-up step that opens nothing leaves nothing to open. -/
theorem SetupStep.exec_opens {s s' : Client} {o : Choice} {i : SetupStep} {todo : List SetupStep}
    (h : i.exec s o = .next s' todo) (hi : i.opens = false) : todo = [] := by
  rcases SetupStep.exec_next h with ⟨c, -, -, -, ⟨p, rfl, -⟩ | ⟨k, rfl, -⟩⟩ | ⟨r, ch, -, -, ht⟩ |
    ⟨name, ch, -, -, ht⟩ | ⟨name, ch, -, -, ht⟩
  · cases hi
  · cases hi
  · exact ht
  · exact ht
  · exact ht

/-- A callback comes to have channels to open by its store alone. -/
theorem Callback.Moves.opensLater {s s' : Client} {o : Choice} {cb cb' : Callback}
    {new : List Spawn} (h : cb.Moves s o s' (.inl cb') new)
    (hi : cb.opensLater s.config = false) (hs : cb.storing = none) :
    cb'.opensLater s'.config = false := by
  cases h with
  | store c => cases hs
  | clearProducers c => exact hi
  | clearConsumers c => exact hi
  | setup c he =>
      simp only [Callback.opensLater, List.any_cons, Bool.or_eq_false_iff] at hi
      rw [SetupStep.exec_opens he hi.1]
      exact hi.2
  | _ => rfl

/-- A goroutine comes to have channels to open by the store of its callback
alone. -/
theorem Thread.Moves.opensLater {s s' : Client} {t t' : Thread} {o : Choice} {new : List Thread}
    (h : t.Moves s o s' t' new) (hi : t.opensLater s.config = false) (hs : t.storing = none) :
    t'.opensLater s'.config = false := by
  cases h with
  | watcher h =>
      cases h with
      | callback ms hm => exact hm.opensLater hi hs
      | _ => rfl
  | force h =>
      cases h with
      | callback hm => exact hm.opensLater hi hs
      | _ => rfl
  | _ => rfl

theorem StartupWithContext.Moves.pastStore {s s' : Client} {o : Choice}
    {pc pc' : StartupWithContext} {new : List Spawn} (h : pc.Moves s o s' pc' new)
    (hp : pc'.pastStore = true) : pc.pastStore = true ∨ s'.connection ≠ none := by
  cases h with
  | store c => exact .inr fun h => by cases h
  | setReconnectFunc c => exact .inl rfl
  | notifyClose c => exact .inl rfl
  | setConnectionNotify n => exact .inl rfl
  | afterConnect => exact .inl rfl
  | producer hi => exact .inl rfl
  | producersDone => exact .inl rfl
  | afterProducers => exact .inl rfl
  | consumer hi => exact .inl rfl
  | _ => cases hp

/-- **The only panic is `Channel()` on nil**: a callback with channels left to
open, or a startup past its store, finds no connection. -/
theorem Thread.Moves.panicked {s s' : Client} {t t' : Thread} {o : Choice} {new : List Thread}
    (h : t.Moves s o s' t' new) :
    s'.panicked = s.panicked ∨
      (s.connection = none ∧
        (t.opensLater s.config = true ∨ ∃ pc, t = .startup pc ∧ pc.pastStore = true)) := by
  have hopens : ∀ {i : SetupStep} {rest : List SetupStep} (c : ConnId), i.opens = true →
      (Callback.rebuild c (i :: rest)).opensLater s.config = true := by
    intro i rest c hi
    rw [Callback.opensLater, List.any_cons, hi]
    rfl
  cases h with
  | watcher h =>
      cases h with
      | callback ms hm => exact .inl hm.frame.panicked
      | success ms hm => exact .inl hm.frame.panicked
      | panic ms c rest hi hc => exact .inr ⟨hc, .inl (hopens c hi)⟩
      | _ => exact .inl rfl
  | force h =>
      cases h with
      | callback hm => exact .inl hm.frame.panicked
      | success hm => exact .inl hm.frame.panicked
      | panic c rest hi hc => exact .inr ⟨hc, .inl (hopens c hi)⟩
      | _ => exact .inl rfl
  | startup h =>
      cases h with
      | producer hi =>
          obtain ⟨n, P, K, rfl⟩ := SetupStep.exec_frame hi
          exact .inl rfl
      | consumer hi =>
          obtain ⟨n, P, K, rfl⟩ := SetupStep.exec_frame hi
          exact .inl rfl
      | panicProducer rest hi hc => exact .inr ⟨hc, .inr ⟨_, rfl, rfl⟩⟩
      | panicConsumer rest hi hc => exact .inr ⟨hc, .inr ⟨_, rfl, rfl⟩⟩
      | _ => exact .inl rfl
  | cleanup h => cases h <;> exact .inl rfl
  | subscribe id h => exact .inl h.sameCore.1.panicked
  | loop l h => exact .inl h.sameCore.panicked
  | health h => exact .inl (HealthRun.step_sameCore h).panicked

/-- The step of a cleanup that forgets an open connection. -/
theorem Thread.Moves.forgets {s s' : Client} {t t' : Thread} {o : Choice} {new : List Thread}
    (h : t.Moves s o s' t' new) (hs : s.connection ≠ none) (hs' : s'.connection = none) :
    t = .cleanup .closeConnection ∧ s.dead = false ∧ o.err = none := by
  by_cases hk : t.isCleanup = true
  · cases h with
    | cleanup h =>
        cases h with
        | close hc ho he =>
            refine ⟨rfl, ?_, he⟩
            rw [Client.dead, hc]
            exact ho
        | closeFails e hc ho => exact absurd hs' (hc ▸ hs)
        | _ => exact absurd hs' hs
    | _ => cases hk
  · exact absurd hs' (h.connection_ne_none (by simpa using hk) hs)

/-- When a cleanup forgets the connection, nobody has channels left to open. -/
theorem idle_of_forgets {p : State} {i : ℕ} {t t' : Thread} {o : Choice} {s' : Client}
    {new : List Thread} (hix : p.threads[i]? = some t) (ht : t.Moves p.shared o s' t' new)
    (hcond : closesWhenIdle p (.run i o) = true) (hs : p.shared.connection ≠ none)
    (hs' : s'.connection = none) :
    t.isCleanup = true ∧ ∀ u ∈ p.threads, u.opensLater p.shared.config = false := by
  obtain ⟨rfl, hd, he⟩ := ht.forgets hs hs'
  rw [closesWhenIdle, hix] at hcond
  simp only [hd, he, Option.isSome_none, Bool.false_or, List.all_eq_true,
    Bool.not_eq_true'] at hcond
  exact ⟨rfl, hcond⟩

/-- **Nobody has channels to open on a nil connection**, after the step. -/
theorem NilInv.idle_run {p : State} {i : ℕ} {l r new : List Thread} {t t' : Thread} {o : Choice}
    {s' : Client} (hi : NilInv p) (hl : p.threads = l ++ t :: r) (hix : p.threads[i]? = some t)
    (ht : t.Moves p.shared o s' t' new) (hcond : closesWhenIdle p (.run i o) = true)
    (hs' : s'.connection = none) :
    ∀ u ∈ l ++ t' :: r ++ new, u.opensLater s'.config = false := by
  have hquiet : ∀ u ∈ p.threads, u.opensLater p.shared.config = false := by
    by_cases hs : p.shared.connection = none
    · exact hi.idle hs
    · exact (idle_of_forgets hix ht hcond hs hs').2
  have hst : t.storing = none := by
    cases hst : t.storing with
    | none => rfl
    | some c =>
        rw [ht.connection_of_storing hst] at hs'
        cases hs'
  refine forall_focus (hl ▸ hquiet) (fun u _ hu => ?_)
    (ht.opensLater (hquiet t (hl ▸ mem_focus_self l r t)) hst) fun u hu => ?_
  · rw [ht.config]
    exact hu
  · obtain ⟨x, rfl⟩ := ht.spawned u hu
    cases x <;> rfl

/-- **A startup past its store has a connection.** -/
theorem NilInv.setup_run {p : State} {i : ℕ} {l r new : List Thread} {t t' : Thread} {o : Choice}
    {s' : Client} (hi : NilInv p) (hl : p.threads = l ++ t :: r) (hix : p.threads[i]? = some t)
    (ht : t.Moves p.shared o s' t' new) (hcond : closesWhenIdle p (.run i o) = true)
    {pc : StartupWithContext} (hpc : .startup pc ∈ l ++ t' :: r ++ new)
    (hp : pc.pastStore = true) : s'.connection ≠ none := by
  have hmem : t ∈ p.threads := hl ▸ mem_focus_self l r t
  intro hs'
  rcases ht.startup_origin hpc with hold | ⟨pc₀, sp, rfl, -, -, h⟩
  · -- the cleanup that forgets the connection comes after the startup
    have hin : .startup pc ∈ p.threads := hl ▸ mem_of_mem_others hold t
    have hk := (idle_of_forgets hix ht hcond (hi.setup pc hin hp) hs').1
    cases hi.one.startup_eq (hi.begun t hmem hk) hin
    cases hp
  · rcases h.pastStore hp with hp₀ | hc
    · cases (idle_of_forgets hix ht hcond (hi.setup pc₀ hmem hp₀) hs').1
    · exact hc hs'

/-- **A step of a goroutine keeps the invariant.** -/
theorem NilInv.run {p : State} {i : ℕ} {l r new : List Thread} {t t' : Thread} {o : Choice}
    {s' : Client} (hi : NilInv p) (hl : p.threads = l ++ t :: r) (hix : p.threads[i]? = some t)
    (ht : t.Moves p.shared o s' t' new) (hcond : closesWhenIdle p (.run i o) = true)
    (hone : SingleStartup ⟨s', l ++ t' :: r ++ new⟩) : NilInv ⟨s', l ++ t' :: r ++ new⟩ := by
  have hmem : t ∈ p.threads := hl ▸ mem_focus_self l r t
  refine ⟨hone, ht.started_of_kind hl ht.kind.2.2 (fun x => x.thread_kind.2.2) hi.begun,
    hi.idle_run hl hix ht hcond, fun pc => hi.setup_run hl hix ht hcond, ?_⟩
  rcases ht.panicked with hp | ⟨hs, hopens | ⟨pc, rfl, hp⟩⟩
  · exact hp.trans hi.calm
  · rw [hi.idle hs t hmem] at hopens
    cases hopens
  · exact absurd hs (hi.setup pc hmem hp)

/-- **Every step keeps the invariant.** -/
theorem NilInv.step {p p' : State} {a : Action} (hi : NilInv p)
    (hg : both reconnectOrStop closesWhenIdle p a = true) (h : Moves p a p') : NilInv p' := by
  obtain ⟨hcall, hcond⟩ := both_iff.1 hg
  have hone := hi.one.step (oneStartup_of_guard rfl hcall) h
  cases h with
  | run hl hix ht => exact hi.run hl hix ht hcond hone
  | drop hc ho => exact ⟨hone, hi.begun, hi.idle, hi.setup, hi.calm⟩
  | call k =>
      refine ⟨hone, started_of_kind_snoc hi.begun fun hc => ?_, fun hs => List.forall_mem_append.2
        ⟨hi.idle hs, List.forall_mem_singleton.2 ?_⟩, fun pc hpc hp => ?_, hi.calm⟩
      · cases k with
        | cleanup => exact hcall
        | _ => cases hc
      · cases k <;> rfl
      · rcases List.mem_append.1 hpc with hold | hnew
        · exact hi.setup pc hold hp
        · cases k <;> cases List.mem_singleton.1 hnew
          cases hp
  | cancel id => exact ⟨hone, hi.begun, hi.idle, hi.setup, hi.calm⟩

/-- **No crash where the cleanup finds nobody with channels to open.**  In every
run of one startup, disconnects, reconnects, `ForceReconnect` and `Subscribe`
calls and cleanups in which every step meets the condition, no `createProducer`
or `createConsumer` ever called `Channel()` on a nil connection. -/
theorem channel_never_on_nil (cfg : RabbitMQ) (p : State)
    (hr : Run step (both reconnectOrStop closesWhenIdle) (fresh cfg) p) :
    p.shared.panicked = false := by
  have hi : NilInv p := by
    refine hr.invariant ⟨singleStartup_fresh cfg, fun t ht => (by cases ht),
      fun _ t ht => (by cases ht), fun pc hpc => (by cases hpc), rfl⟩ ?_
    exact fun _ _ _ hi hg h => hi.step hg (moves_of_step h).2
  exact hi.calm

/-- A cleanup that runs while a `ForceReconnect` has opened all its channels. -/
theorem channel_never_on_nil_after_rebuild :
    ∃ p, Run step (both reconnectOrStop closesWhenIdle) (fresh defaultRabbitMQConfig) p ∧
      .cleanup (.returned none) ∈ p.threads ∧ .force .returned ∈ p.threads ∧
      p.shared.panicked = false := by
  obtain ⟨p, hr, hp⟩ := exists_run_of_replay step (both reconnectOrStop closesWhenIdle)
    (fresh defaultRabbitMQConfig)
    (fun p => p.threads.contains (.cleanup (.returned none)) &&
      p.threads.contains (.force .returned))
    (boot ++ .call .forceReconnect :: solo 3 13 ++ .call .cleanup :: solo 4 12 ++ solo 3 4)
    (by decide)
  rw [Bool.and_eq_true, List.contains_iff_mem, List.contains_iff_mem] at hp
  exact ⟨p, hr, hp.1, hp.2, channel_never_on_nil defaultRabbitMQConfig p hr⟩

/-- **A cleanup in the middle of a rebuild crashes the process.**  The watcher has
stored connection 1 and not opened the producer's channel when the cleanup closes
the connection and sets the field to nil; the next step of the watcher calls
`Channel()` on nil. -/
theorem channel_on_nil :
    ∃ p, Run step reconnectOrStop (fresh defaultRabbitMQConfig) p ∧
      p.shared.connection = none ∧ p.shared.panicked = true := by
  obtain ⟨p, hr, hp⟩ := exists_run_of_replay step reconnectOrStop (fresh defaultRabbitMQConfig)
    (fun p => p.shared.connection == none && p.shared.panicked)
    (boot ++ .drop 0 :: solo 2 7 ++ .call .cleanup :: solo 3 12 ++ solo 2 1) (by decide)
  rw [Bool.and_eq_true, beq_iff_eq] at hp
  exact ⟨p, hr, hp.1, hp.2⟩

end LynxRabbit
