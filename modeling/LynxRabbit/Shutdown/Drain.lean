/-
# Drain before teardown

A cleanup waits on `subscriptionWG` before it closes the channels and the
connection, so that no delivery is acknowledged on a channel that is being torn
down.  The counter is the number of dispatch loops that have not returned; but
`startDispatchLoop` adds to it when it starts its loop and looks at neither
`closed` nor `closeChan`, so a loop may start behind the wait, and its `select`
may take a delivery although `closeChan` is closed.

The condition is that no loop is started on an open channel behind the wait.  A
loop on a closed channel does no harm: nothing is opened again, so its `select`
never sees a delivery.
-/

import LynxRabbit.Client.Connections

namespace LynxRabbit

open Runs

/-- A dispatch loop that has not returned. -/
def Thread.running : Thread → Bool
  | .loop _ pc => pc != .returned
  | _ => false

/-- The channel on which `startDispatchLoop` is about to start its loop. -/
def DispatchStep.starting : DispatchStep → Option Channel
  | .start ch => some ch
  | _ => none

def Callback.starting : Callback → Option Channel
  | .dispatch _ _ _ _ d => d.starting
  | _ => none

/-- The channel on which a goroutine is about to start a dispatch loop. -/
def Thread.starting : Thread → Option Channel
  | .watcher (.callback _ cb) => cb.starting
  | .force (.callback cb) => cb.starting
  | .subscribe _ (.dispatch _ d) => d.starting
  | _ => none

/-- No loop is started on an open channel once a cleanup is past its wait. -/
def startsInTime (p : State) (t : Thread) : Bool :=
  t.starting.all fun ch =>
    !p.shared.amqp.chanOpen ch || !someCleanup CleanupWithContext.drained p

/-- The loop handles nothing, and will not. -/
structure Quiet (s : Client) (l : Loop) (pc : LoopPc) : Prop where
  idle : pc.dispatching = false
  shut : pc = .select → s.amqp.chanOpen l.channel = false

/-- The counter is the number of loops that have not returned. -/
def Counted (p : State) : Prop := p.shared.subscriptionWG = p.threads.countP Thread.running

/-- The counter counts the loops; behind the wait every loop is quiet. -/
structure DrainInv (p : State) : Prop where
  known : Known p
  count : Counted p
  quiet : someCleanup CleanupWithContext.drained p = true →
    ∀ l pc, .loop l pc ∈ p.threads → Quiet p.shared l pc

/-! ### The counter -/

/-- The callback adds one to the counter for each loop it starts. -/
theorem Callback.Moves.subscriptionWG {s s' : Client} {o : Choice} {cb : Callback}
    {q : Callback ⊕ ConnId} {new : List Spawn} (h : cb.Moves s o s' q new) :
    s'.subscriptionWG = s.subscriptionWG + (new.map Spawn.thread).countP Thread.running := by
  cases h with
  | setup c hi =>
      obtain ⟨n, P, K, rfl⟩ := SetupStep.exec_frame hi
      rfl
  | dispatch c started pending hd =>
      obtain ⟨⟨n, rfl⟩, -⟩ := DispatchStep.exec_inl hd
      rfl
  | start c started pending hd =>
      obtain ⟨rfl, -⟩ := DispatchStep.exec_inr hd
      rfl
  | _ => rfl

theorem SubscribeCall.Moves.subscriptionWG {s s' : Client} {o : Choice} {id : ℕ}
    {pc pc' : SubscribeCall} {new : List Spawn} (h : pc.Moves s o id s' pc' new) :
    s'.subscriptionWG = s.subscriptionWG + (new.map Spawn.thread).countP Thread.running := by
  cases h with
  | dispatch hd =>
      obtain ⟨⟨n, rfl⟩, -⟩ := DispatchStep.exec_inl hd
      rfl
  | start hd =>
      obtain ⟨rfl, -⟩ := DispatchStep.exec_inr hd
      rfl
  | _ => rfl

theorem StartupWithContext.Moves.subscriptionWG {s s' : Client} {o : Choice}
    {pc pc' : StartupWithContext} {new : List Spawn} (h : pc.Moves s o s' pc' new) :
    s'.subscriptionWG = s.subscriptionWG + (new.map Spawn.thread).countP Thread.running := by
  rw [h.frame.subscriptionWG]
  cases h with
  | startManager => split <;> rfl
  | _ => rfl

/-- **The counter moves with the loops**: up by one when a loop is started, down
by one when a loop returns. -/
theorem Thread.Moves.subscriptionWG {s s' : Client} {t t' : Thread} {o : Choice}
    {new : List Thread} (h : t.Moves s o s' t' new)
    (hpos : t.running = true → 0 < s.subscriptionWG) :
    s'.subscriptionWG + t.running.toNat =
      s.subscriptionWG + t'.running.toNat + new.countP Thread.running := by
  cases h with
  | watcher h =>
      cases h with
      | callback ms hm => exact hm.subscriptionWG
      | success ms hm => exact hm.subscriptionWG
      | _ => rfl
  | force h =>
      cases h with
      | callback hm => exact hm.subscriptionWG
      | success hm => exact hm.subscriptionWG
      | _ => rfl
  | subscribe id h => exact h.subscriptionWG
  | startup h => exact h.subscriptionWG
  | cleanup h => cases h <;> rfl
  | health h =>
      obtain ⟨n, f, r, -, rfl⟩ := HealthRun.step_frame h
      rfl
  | loop l h =>
      cases h with
      | handled m failed => split_ifs <;> rfl
      | finish => exact Nat.sub_add_cancel (hpos rfl)
      | _ => rfl

theorem Counted.run {p : State} {l r new : List Thread} {t t' : Thread} {o : Choice}
    {s' : Client} (hi : Counted p) (hl : p.threads = l ++ t :: r)
    (ht : t.Moves p.shared o s' t' new) : Counted ⟨s', l ++ t' :: r ++ new⟩ := by
  have hmem : t ∈ p.threads := hl ▸ mem_focus_self l r t
  have hpos : t.running = true → 0 < p.shared.subscriptionWG := fun hrun => by
    rw [hi]
    exact List.countP_pos_iff.2 ⟨t, hmem, hrun⟩
  have hwg := ht.subscriptionWG hpos
  have hfocus := countP_focus l r new t t' Thread.running
  rw [← hl, ← show _ = _ from hi] at hfocus
  show s'.subscriptionWG = (l ++ t' :: r ++ new).countP Thread.running
  omega

/-- **The counter counts the loops**, in every run. -/
theorem Counted.step {p p' : State} {a : Action} (hi : Counted p) (h : Moves p a p') :
    Counted p' := by
  cases h with
  | run hl hix ht => exact hi.run hl ht
  | drop hc ho => exact hi
  | call k =>
      have hrun : (k.thread p.threads.length).running = false := by cases k <;> rfl
      show p.shared.subscriptionWG = _
      rw [countP_snoc, hrun]
      exact hi
  | cancel id => exact hi

/-! ### Loops behind the wait -/

theorem Thread.starting_of_callback {t : Thread} {cb : Callback} (h : t.callback? = some cb) :
    t.starting = cb.starting := by
  rcases Thread.eq_of_callback h with ⟨ms, rfl⟩ | rfl <;> rfl

/-- A loop that is started is in its `select`, on the channel its starter had. -/
theorem Thread.Moves.started_loop {s s' : Client} {t t' : Thread} {o : Choice}
    {new : List Thread} (h : t.Moves s o s' t' new) {l : Loop} {pc : LoopPc}
    (hl : .loop l pc ∈ new) : t.starting = some l.channel ∧ pc = .select := by
  obtain ⟨rfl, ⟨id, rfl, -⟩ | ⟨c, started, pending, hcb, -⟩⟩ := h.loop_started hl
  · exact ⟨rfl, rfl⟩
  · exact ⟨Thread.starting_of_callback hcb, rfl⟩

/-- A cleanup gets past its wait when the counter is zero. -/
theorem CleanupWithContext.Moves.drained {s s' : Client} {o : Choice}
    {pc pc' : CleanupWithContext} (h : pc.Moves s o s' pc') (hd : pc'.drained = true) :
    pc.drained = true ∨ s.subscriptionWG = 0 := by
  cases h with
  | stopManager => split_ifs at hd <;> cases hd
  | waitSubscriptions hw => exact .inr hw
  | waitPool => exact .inl rfl
  | closeConsumers => exact .inl rfl
  | closeProducers => exact .inl rfl
  | noConnection hc => exact .inl rfl
  | alreadyClosed e hc ho => exact .inl rfl
  | closeFails e hc ho => exact .inl rfl
  | close hc ho he => exact .inl rfl
  | _ => cases hd

theorem Quiet.mono {s s' : Client} {l : Loop} {pc : LoopPc} (hq : Quiet s l pc)
    (ha : s.amqp.Ages s'.amqp) (hc : l.channel.conn < s.amqp.dialled) : Quiet s' l pc := by
  refine ⟨hq.idle, fun hpc => ?_⟩
  by_contra ho
  have := ha.chanOpen hc (by simpa using ho)
  rw [hq.shut hpc] at this
  cases this

/-- A quiet loop stays quiet: its `select` can only leave. -/
theorem LoopPc.Moves.quiet {s s' : Client} {l : Loop} {pc pc' : LoopPc} (h : pc.Moves s l s' pc')
    (hq : Quiet s l pc) : Quiet s' l pc' := by
  have hidle := hq.idle
  cases h with
  | deliver ho =>
      rw [hq.shut rfl] at ho
      cases ho
  | handled m failed => cases hidle
  | settled failed => cases hidle
  | _ => exact ⟨rfl, fun h => by cases h⟩

/-- **Behind the wait** old loops stay quiet, and a new one is on a closed channel. -/
theorem DrainInv.quiet_run {p : State} {l r new : List Thread} {t t' : Thread} {o : Choice}
    {s' : Client} (hi : DrainInv p) (hl : p.threads = l ++ t :: r)
    (ht : t.Moves p.shared o s' t' new) (hcond : startsInTime p t = true)
    (hbefore : someCleanup CleanupWithContext.drained p = true) {k : Loop} {pc : LoopPc}
    (hk : .loop k pc ∈ l ++ t' :: r ++ new) : Quiet s' k pc := by
  have hmem : t ∈ p.threads := hl ▸ mem_focus_self l r t
  rcases ht.loop_origin hk with hold | ⟨pc₀, rfl, h⟩ | hnew
  · have hin : .loop k pc ∈ p.threads := hl ▸ mem_of_mem_others hold t
    exact (hi.quiet hbefore k pc hin).mono ht.ages (hi.known.used _ hin _ rfl)
  · exact h.quiet (hi.quiet hbefore k pc₀ hmem)
  · obtain ⟨hst, rfl⟩ := ht.started_loop hnew
    rw [startsInTime, hst, hbefore] at hcond
    have hshut : p.shared.amqp.chanOpen k.channel = false := by simpa using hcond
    have hsel : Quiet p.shared k .select := ⟨rfl, fun _ => hshut⟩
    exact hsel.mono ht.ages (hi.known.used t hmem _ (ht.serving.2 _ hnew rfl))

/-- The step that ends the wait is a cleanup's, and the counter is zero. -/
theorem Thread.Moves.ends_wait {p : State} {l r new : List Thread} {t t' : Thread} {o : Choice}
    {s' : Client} (ht : t.Moves p.shared o s' t' new) (hl : p.threads = l ++ t :: r)
    (hbefore : someCleanup CleanupWithContext.drained p = false)
    (hd : someCleanup CleanupWithContext.drained ⟨s', l ++ t' :: r ++ new⟩ = true) :
    p.shared.subscriptionWG = 0 ∧ t.isCleanup = true := by
  obtain ⟨pc, hpc, hpcd⟩ := someCleanup_iff.1 hd
  rcases ht.cleanup_origin hpc with hold | ⟨pc₀, rfl, h⟩
  · rw [someCleanup_eq_false hbefore (hl ▸ mem_of_mem_others hold t)] at hpcd
    cases hpcd
  · rcases h.drained hpcd with hdr | hz
    · rw [someCleanup_eq_false hbefore (hl ▸ mem_focus_self l r _)] at hdr
      cases hdr
    · exact ⟨hz, rfl⟩

/-- When the counter is zero every loop has returned. -/
theorem DrainInv.quiet_of_zero {p : State} (hi : DrainInv p) (hz : p.shared.subscriptionWG = 0)
    {k : Loop} {pc : LoopPc} (hk : .loop k pc ∈ p.threads) (s' : Client) : Quiet s' k pc := by
  have hnone := List.countP_eq_zero.1 (hi.count.symm.trans hz) _ hk
  have hret : pc = .returned := by simpa [Thread.running] using hnone
  exact hret ▸ ⟨rfl, fun h => by cases h⟩

/-- **A step of a goroutine keeps the invariant.** -/
theorem DrainInv.run {p : State} {l r new : List Thread} {t t' : Thread} {o : Choice}
    {s' : Client} (hi : DrainInv p) (hl : p.threads = l ++ t :: r)
    (ht : t.Moves p.shared o s' t' new) (hcond : startsInTime p t = true)
    (hknown : Known ⟨s', l ++ t' :: r ++ new⟩) : DrainInv ⟨s', l ++ t' :: r ++ new⟩ := by
  refine ⟨hknown, hi.count.run hl ht, fun hd k pc hk => ?_⟩
  by_cases hbefore : someCleanup CleanupWithContext.drained p = true
  · exact hi.quiet_run hl ht hcond hbefore hk
  · obtain ⟨hz, hc⟩ := ht.ends_wait hl (by simpa using hbefore) hd
    refine hi.quiet_of_zero hz ?_ s'
    rcases ht.loop_origin hk with hold | ⟨pc₀, rfl, -⟩ | hnew
    · exact hl ▸ mem_of_mem_others hold t
    · cases hc
    · cases ht with
      | cleanup h => cases hnew
      | _ => cases hc

/-- **Every step keeps the invariant.** -/
theorem DrainInv.step {p p' : State} {a : Action} (hi : DrainInv p)
    (hg : onRun startsInTime p a = true) (h : Moves p a p') : DrainInv p' := by
  have hknown := hi.known.step h
  have hcount := hi.count.step h
  cases h with
  | run hl hix ht => exact hi.run hl ht (onRun_run hg hix) hknown
  | @drop c hc ho =>
      refine ⟨hknown, hcount, fun hd l pc hl => ?_⟩
      exact (hi.quiet hd l pc hl).mono (.drop _ c) (hi.known.used _ hl _ rfl)
  | call k =>
      refine ⟨hknown, hcount, fun hd l pc hl => ?_⟩
      have hin : ∀ {u}, u ∈ p.threads ++ [k.thread p.threads.length] →
          u ≠ k.thread p.threads.length → u ∈ p.threads := fun hu hne =>
        (List.mem_append.1 hu).resolve_right fun hu => hne (List.mem_singleton.1 hu)
      obtain ⟨pc', hpc', hpcd⟩ := someCleanup_iff.1 hd
      refine hi.quiet (someCleanup_iff.2 ⟨pc', hin hpc' fun he => ?_, hpcd⟩) l pc
        (hin hl fun he => by cases k <;> cases he)
      cases k <;> cases he
      cases hpcd
  | cancel id => exact ⟨hknown, hcount, fun hd l pc hl => ⟨(hi.quiet hd l pc hl).idle,
      (hi.quiet hd l pc hl).shut⟩⟩

/-- **Drain before teardown, where no loop starts behind the wait.**  In every
run in which every step meets the condition, once a cleanup is past
`subscriptionWG.Wait()` no delivery is being handled or settled. -/
theorem drained_before_teardown (cfg : RabbitMQ) (p : State)
    (hr : Run step (onRun startsInTime) (fresh cfg) p) (pc : CleanupWithContext)
    (hpc : .cleanup pc ∈ p.threads) (hd : pc.drained = true) (l : Loop) (lpc : LoopPc)
    (hl : .loop l lpc ∈ p.threads) : lpc.dispatching = false := by
  have hi : DrainInv p := by
    refine hr.invariant ⟨known_fresh cfg, rfl, fun hd => (by cases hd)⟩ ?_
    exact fun _ _ _ hi hg h => hi.step hg (moves_of_step h).2
  exact (hi.quiet (someCleanup_iff.2 ⟨pc, hpc, hd⟩) l lpc hl).idle

/-- A delivery in progress when the cleanup begins: the loop settles it and leaves
before the wait ends. -/
theorem drained_before_teardown_in_handler :
    ∃ p, Run step (onRun startsInTime) (fresh defaultRabbitMQConfig) p ∧
      .cleanup (.returned none) ∈ p.threads ∧
      ∃ l lpc, .loop l lpc ∈ p.threads ∧ lpc.dispatching = false := by
  obtain ⟨p, hr, hp⟩ := exists_run_of_replay step (onRun startsInTime)
    (fresh defaultRabbitMQConfig)
    (fun p => p.threads.contains (.cleanup (.returned none)) &&
      p.threads.contains (.loop ⟨⟨3, "default-consumer", "lynx.queue", 0⟩, ⟨2, 0⟩, false, some 3,
        none⟩ .returned))
    (boot ++ .call (.subscribeWith "default-consumer" "lynx.queue" 0) :: solo 3 7 ++
      solo 4 1 ++ .call .cleanup :: solo 5 7 ++ solo 4 2 ++ .run 4 .stop :: solo 4 2 ++ solo 5 5)
    (by decide)
  rw [Bool.and_eq_true, List.contains_iff_mem, List.contains_iff_mem] at hp
  exact ⟨p, hr, hp.1, _, _, hp.2,
    drained_before_teardown defaultRabbitMQConfig p hr _ hp.1 rfl _ _ hp.2⟩

/-- **A loop that starts behind the wait.**  The `SubscribeWith` call has its
channel when the cleanup finds the counter at zero; then it starts the loop, which
takes a delivery.  The cleanup closes everything and returns while the delivery is
still to be acknowledged. -/
theorem ack_after_teardown :
    ∃ p, Run step always (fresh defaultRabbitMQConfig) p ∧
      .cleanup (.returned none) ∈ p.threads ∧
      ∃ l lpc, .loop l lpc ∈ p.threads ∧ lpc.dispatching = true := by
  obtain ⟨p, hr, hp⟩ := exists_run_of_replay step always (fresh defaultRabbitMQConfig)
    (fun p => p.threads.contains (.cleanup (.returned none)) &&
      p.threads.contains (.loop ⟨⟨3, "default-consumer", "lynx.queue", 0⟩, ⟨2, 0⟩, false, some 3,
        none⟩ (.settling false)))
    (boot ++ .call (.subscribeWith "default-consumer" "lynx.queue" 0) :: solo 3 6 ++
      .call .cleanup :: solo 4 8 ++ solo 3 1 ++ solo 5 1 ++ solo 4 4 ++ solo 5 1)
    (by decide)
  rw [Bool.and_eq_true, List.contains_iff_mem, List.contains_iff_mem] at hp
  exact ⟨p, hr, hp.1, _, _, hp.2, rfl⟩

end LynxRabbit
