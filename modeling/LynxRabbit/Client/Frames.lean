/-
# What a step can touch

Frame conditions, read off the transitions.  `SameCore` is the part of the client
the reconnect machinery works on: the stored connection, the two channel maps,
the connection manager, the connections and their receivers.  Dispatch loops,
`Subscribe` calls, the health ticker and a startup past its `Start` are passive:
they leave it alone.  The goroutine in charge of the connection is its guardian,
and a step never makes a second one.
-/

import LynxRabbit.Client.Moves

namespace LynxRabbit

open Runs

/-- The two states agree on everything the reconnect machinery works on. -/
structure SameCore (s s' : Client) : Prop where
  config : s'.config = s.config
  connection : s'.connection = s.connection
  producers : s'.producers = s.producers
  consumers : s'.consumers = s.consumers
  manager : s'.manager = s.manager
  dialled : s'.amqp.dialled = s.amqp.dialled
  closed : s'.amqp.closed = s.amqp.closed
  notifies : s'.amqp.notifies = s.amqp.notifies
  notifyConn : s'.amqp.notifyConn = s.amqp.notifyConn
  notify : s'.amqp.notify = s.amqp.notify
  panicked : s'.panicked = s.panicked

theorem SameCore.refl (s : Client) : SameCore s s := by constructor <;> rfl

theorem SameCore.of_amqp {s : Client} {n : ℕ} {f : ℕ → Bool} :
    SameCore s { s with amqp := { s.amqp with channels := n, chanClosed := f } } := by
  constructor <;> rfl

/-! ### Conditions on the goroutine that moves -/

/-- A guard that asks something of the goroutine that takes the step, and nothing
of the other actions. -/
def onRun (f : State → Thread → Bool) (p : State) : Action → Bool
  | .run i _ => p.threads[i]?.all (f p)
  | _ => true

theorem onRun_run {f : State → Thread → Bool} {p : State} {i : ℕ} {o : Choice} {t : Thread}
    (h : onRun f p (.run i o) = true) (ht : p.threads[i]? = some t) : f p t = true := by
  rwa [onRun, ht] at h

/-! ### Passive goroutines -/

/-- The goroutine never touches what the reconnect machinery works on. -/
def Thread.passive : Thread → Bool
  | .subscribe _ _ => true
  | .loop _ _ => true
  | .health _ => true
  | .startup pc => !pc.settingUp
  | _ => false

/-- A probe leaves the library alone, or opens a channel and closes it again. -/
theorem Client.connectionProbe_cases (s : Client) (o : Choice) :
    (s.connectionProbe o).2 = s.amqp ∨ ∃ c, (s.connectionProbe o).2 =
      { s.amqp with channels := s.amqp.channels + 1 }.closeChannel ⟨s.amqp.channels, c⟩ := by
  unfold Client.connectionProbe
  split
  · exact .inl rfl
  · split
    · exact .inl rfl
    · split
      · exact .inl rfl
      · split
        · exact .inl rfl
        · rename_i b ch hb
          obtain ⟨rfl, rfl, -⟩ := Broker.channel_ok hb
          exact .inr ⟨_, rfl⟩

theorem SubscribeCall.Moves.sameCore {s s' : Client} {o : Choice} {id : ℕ} {pc pc' : SubscribeCall}
    {new : List Spawn} (h : pc.Moves s o id s' pc' new) :
    SameCore s s' ∧ (new = [] ∨ ∃ l, new = [.loop l]) := by
  cases h with
  | refuse pc e => exact ⟨.refl s, .inl rfl⟩
  | lookup hl => exact ⟨.refl s, .inl rfl⟩
  | lookupWith hq hl => exact ⟨.refl s, .inl rfl⟩
  | record sub => exact ⟨by constructor <;> rfl, .inl rfl⟩
  | dispatch hd =>
      obtain ⟨⟨n, rfl⟩, -⟩ := DispatchStep.exec_inl hd
      exact ⟨.of_amqp, .inl rfl⟩
  | start hd =>
      obtain ⟨rfl, -⟩ := DispatchStep.exec_inr hd
      exact ⟨by constructor <;> rfl, .inr ⟨_, rfl⟩⟩
  | fail sub d f e => exact ⟨.of_amqp, .inl rfl⟩

theorem LoopPc.Moves.sameCore {s s' : Client} {l : Loop} {pc pc' : LoopPc}
    (h : pc.Moves s l s' pc') : SameCore s s' := by
  cases h <;> constructor <;> rfl

/-- The health ticker writes its own record, or opens and closes a channel. -/
theorem HealthRun.step_cases {s s' : Client} {o : Choice} {pc pc' : HealthRun}
    (h : pc.step s o = some (s', pc')) :
    (∃ r, s' = { s with health := r }) ∨ ∃ c, s' = { s with amqp :=
      { s.amqp with channels := s.amqp.channels + 1 }.closeChannel ⟨s.amqp.channels, c⟩ } := by
  cases pc with
  | select =>
      rw [HealthRun.step] at h
      split_ifs at h <;> cases h <;> exact .inl ⟨_, rfl⟩
  | probe =>
      cases h
      rcases s.connectionProbe_cases o with hb | ⟨c, hb⟩ <;> rw [hb]
      · exact .inl ⟨s.health, rfl⟩
      · exact .inr ⟨c, rfl⟩
  | record err => cases err <;> cases h <;> exact .inl ⟨_, rfl⟩
  | returned => cases h

theorem HealthRun.step_frame {s s' : Client} {o : Choice} {pc pc' : HealthRun}
    (h : pc.step s o = some (s', pc')) :
    ∃ n f r, s.amqp.StillClosed f ∧
      s' = { s with amqp := { s.amqp with channels := n, chanClosed := f }, health := r } := by
  rcases HealthRun.step_cases h with ⟨r, rfl⟩ | ⟨c, rfl⟩
  · exact ⟨_, _, r, .refl s.amqp, rfl⟩
  · exact ⟨_, _, s.health, .closeChannel s.amqp ⟨s.amqp.channels, c⟩, rfl⟩

theorem HealthRun.step_sameCore {s s' : Client} {o : Choice} {pc pc' : HealthRun}
    (h : pc.step s o = some (s', pc')) : SameCore s s' := by
  obtain ⟨n, f, r, -, rfl⟩ := HealthRun.step_frame h
  constructor <;> rfl

/-- A startup past `Start` only reads, and publishes to the runtime. -/
theorem StartupWithContext.Moves.sameCore {s s' : Client} {o : Choice}
    {pc pc' : StartupWithContext} {new : List Spawn} (h : pc.Moves s o s' pc' new)
    (hp : pc.settingUp = false) : SameCore s s' ∧ pc'.settingUp = false ∧ new = [] := by
  cases h with
  | registerShared => exact ⟨.refl s, rfl, rfl⟩
  | pass parts hpart => exact ⟨.refl s, rfl, rfl⟩
  | healthy => exact ⟨.refl s, rfl, rfl⟩
  | unregistered e => exact ⟨.refl s, rfl, rfl⟩
  | unhealthy parts e => exact ⟨.refl s, rfl, rfl⟩
  | publishReady => exact ⟨by constructor <;> rfl, rfl, rfl⟩
  | unpublish e => exact ⟨by constructor <;> rfl, rfl, rfl⟩
  | abort f e hf =>
      rw [StartupWithContext.settingUp_of_fallible hf] at hp
      cases hp
  | _ => cases hp

/-- **Passive goroutines leave the core alone**, stay passive, and start nothing
but dispatch loops. -/
theorem Thread.Moves.passive {s s' : Client} {t t' : Thread} {o : Choice} {new : List Thread}
    (h : t.Moves s o s' t' new) (hp : t.passive = true) :
    SameCore s s' ∧ t'.passive = true ∧ ∀ u ∈ new, ∃ l, u = .loop l .select := by
  cases h with
  | watcher h => cases hp
  | force h => cases hp
  | cleanup h => cases hp
  | subscribe id h =>
      obtain ⟨hs, rfl | ⟨l, rfl⟩⟩ := h.sameCore
      · exact ⟨hs, rfl, fun u hu => by cases hu⟩
      · exact ⟨hs, rfl, fun u hu => ⟨l, by simpa [Spawn.thread] using hu⟩⟩
  | loop l h => exact ⟨h.sameCore, rfl, fun u hu => by cases hu⟩
  | health h => exact ⟨HealthRun.step_sameCore h, rfl, fun u hu => by cases hu⟩
  | startup h =>
      obtain ⟨hs, hpc', rfl⟩ := h.sameCore (by simpa [Thread.passive] using hp)
      exact ⟨hs, by simp [Thread.passive, hpc'], fun u hu => by cases hu⟩

/-! ### What the callback and a startup leave alone -/

/-- What no step of the callback changes. -/
structure CallbackFrame (s s' : Client) : Prop where
  config : s'.config = s.config
  manager : s'.manager = s.manager
  subscriptions : s'.subscriptions = s.subscriptions
  chanClosed : s'.amqp.chanClosed = s.amqp.chanClosed
  notify : s'.amqp.notify = s.amqp.notify
  notifyConn : s'.amqp.notifyConn = s.amqp.notifyConn
  panicked : s'.panicked = s.panicked

theorem Callback.Moves.frame {s s' : Client} {o : Choice} {cb : Callback}
    {q : Callback ⊕ ConnId} {new : List Spawn} (h : cb.Moves s o s' q new) :
    CallbackFrame s s' := by
  cases h with
  | setup c hi =>
      obtain ⟨n, P, K, rfl⟩ := SetupStep.exec_frame hi
      constructor <;> rfl
  | dispatch c started pending hd =>
      obtain ⟨⟨n, rfl⟩, -⟩ := DispatchStep.exec_inl hd
      constructor <;> rfl
  | start c started pending hd =>
      obtain ⟨rfl, -⟩ := DispatchStep.exec_inr hd
      constructor <;> rfl
  | _ => constructor <;> rfl

/-- What no step of a startup changes. -/
structure StartupFrame (s s' : Client) : Prop where
  config : s'.config = s.config
  subscriptions : s'.subscriptions = s.subscriptions
  subscriptionWG : s'.subscriptionWG = s.subscriptionWG
  stopChanClosed : s'.manager.stopChanClosed = s.manager.stopChanClosed
  stopped : s'.manager.stopped = s.manager.stopped
  chanClosed : s.amqp.StillClosed s'.amqp.chanClosed

theorem StartupWithContext.Moves.frame {s s' : Client} {o : Choice}
    {pc pc' : StartupWithContext} {new : List Spawn} (h : pc.Moves s o s' pc' new) :
    StartupFrame s s' := by
  cases h with
  | producer hi =>
      obtain ⟨n, P, K, rfl⟩ := SetupStep.exec_frame hi
      exact ⟨rfl, rfl, rfl, rfl, rfl, .refl s.amqp⟩
  | consumer hi =>
      obtain ⟨n, P, K, rfl⟩ := SetupStep.exec_frame hi
      exact ⟨rfl, rfl, rfl, rfl, rfl, .refl s.amqp⟩
  | abort f e hf hcl => exact ⟨rfl, rfl, rfl, rfl, rfl, hcl⟩
  | _ => exact ⟨rfl, rfl, rfl, rfl, rfl, .refl s.amqp⟩

/-- The callback starts nothing but dispatch loops. -/
theorem Callback.Moves.spawn {s s' : Client} {o : Choice} {cb : Callback}
    {q : Callback ⊕ ConnId} {new : List Spawn} (h : cb.Moves s o s' q new) :
    new = [] ∨ ∃ l, new = [.loop l] := by
  cases h with
  | start c started pending hd => exact .inr ⟨_, rfl⟩
  | _ => exact .inl rfl

/-! ### Executions of the callback -/

/-- The callback the goroutine ran has returned a connection, and nothing has been
done with it yet. -/
def Thread.succeeded : Thread → Bool
  | .watcher (.established _) => true
  | .force .raise => true
  | _ => false

/-- The goroutines in the callback are the watcher and `ForceReconnect`. -/
theorem Thread.eq_of_callback {t : Thread} {cb : Callback} (h : t.callback? = some cb) :
    (∃ ms, t = .watcher (.callback ms cb)) ∨ t = .force (.callback cb) := by
  cases t with
  | watcher pc =>
      cases pc <;> cases h
      exact .inl ⟨_, rfl⟩
  | force pc =>
      cases pc <;> cases h
      exact .inr rfl
  | _ => cases h

/-- **A goroutine in the callback** makes a step of the callback, which goes on or
returns its connection, or the callback ends without one. -/
theorem Thread.Moves.of_callback {s s' : Client} {t t' : Thread} {o : Choice}
    {new : List Thread} {cb : Callback} (h : t.Moves s o s' t' new)
    (hcb : t.callback? = some cb) :
    (∃ cb' sp, cb.Moves s o s' (.inl cb') sp ∧ t'.callback? = some cb' ∧
        new = sp.map Spawn.thread) ∨
      (∃ c sp, cb.Moves s o s' (.inr c) sp ∧ t'.callback? = none ∧ t'.succeeded = true ∧
        new = sp.map Spawn.thread) ∨
      (t'.callback? = none ∧ t'.succeeded = false ∧ t'.passive = false ∧ new = []) := by
  cases h with
  | watcher h =>
      cases h with
      | callback ms hm => cases hcb; exact .inl ⟨_, _, hm, rfl, rfl⟩
      | success ms hm => cases hcb; exact .inr (.inl ⟨_, _, hm, rfl, rfl, rfl⟩)
      | failure ms f hf => exact .inr (.inr ⟨rfl, rfl, rfl, rfl⟩)
      | panic ms c rest hi hc => exact .inr (.inr ⟨rfl, rfl, rfl, rfl⟩)
      | _ => cases hcb
  | force h =>
      cases h with
      | callback hm => cases hcb; exact .inl ⟨_, _, hm, rfl, rfl⟩
      | success hm => cases hcb; exact .inr (.inl ⟨_, _, hm, rfl, rfl, rfl⟩)
      | failure f hf => exact .inr (.inr ⟨rfl, rfl, rfl, rfl⟩)
      | panic c rest hi hc => exact .inr (.inr ⟨rfl, rfl, rfl, rfl⟩)
      | _ => cases hcb
  | _ => cases hcb

/-- A goroutine that stays in the callback makes a step of it. -/
theorem Thread.Moves.callback_next {s s' : Client} {t t' : Thread} {o : Choice}
    {new : List Thread} {cb cb' : Callback} (h : t.Moves s o s' t' new)
    (hcb : t.callback? = some cb) (hcb' : t'.callback? = some cb') :
    ∃ sp, cb.Moves s o s' (.inl cb') sp ∧ new = sp.map Spawn.thread := by
  rcases h.of_callback hcb with ⟨cb₁, sp, hm, hcb₁, hnew⟩ | ⟨_, _, _, hnone, _, _⟩ |
    ⟨hnone, _, _, _⟩
  · obtain rfl := Option.some.inj (hcb₁.symm.trans hcb')
    exact ⟨sp, hm, hnew⟩
  all_goals
    rw [hnone] at hcb'
    cases hcb'

theorem Thread.callback?_of_succeeded {t : Thread} (h : t.succeeded = true) :
    t.callback? = none := by
  cases t with
  | watcher pc =>
      cases pc with
      | callback ms cb => cases h
      | _ => rfl
  | force pc =>
      cases pc with
      | callback cb => cases h
      | _ => rfl
  | _ => rfl

theorem Thread.callback?_of_passive {t : Thread} (h : t.passive = true) : t.callback? = none := by
  cases t with
  | watcher pc => cases h
  | force pc => cases h
  | _ => rfl

/-! ### Which goroutine a thread is -/

/-- What a step adds to the pool was started with `go`. -/
theorem Thread.Moves.spawned {s s' : Client} {t t' : Thread} {o : Choice} {new : List Thread}
    (h : t.Moves s o s' t' new) : ∀ u ∈ new, ∃ x : Spawn, u = x.thread := by
  intro u hu
  cases h with
  | loop l h => cases hu
  | cleanup h => cases hu
  | health h => cases hu
  | _ =>
      obtain ⟨x, -, rfl⟩ := List.mem_map.1 hu
      exact ⟨x, rfl⟩

/-- **Where a loop comes from**: it is in its `select`, and its starter was in the last step
of `startDispatchLoop`, in a `Subscribe` call or in the callback. -/
theorem Thread.Moves.loop_started {s s' : Client} {t t' : Thread} {o : Choice}
    {new : List Thread} (h : t.Moves s o s' t' new) {l : Loop} {pc : LoopPc}
    (hl : .loop l pc ∈ new) : pc = .select ∧
      ((∃ id, t = .subscribe id (.dispatch l.sub (.start l.channel)) ∧ l.rebuild = none) ∨
        ∃ c started pending, t.callback? =
          some (.dispatch c started l.sub pending (.start l.channel)) ∧ l.rebuild = some c) := by
  have hcallback : ∀ {cb q sp}, Callback.Moves s o cb s' q sp →
      .loop l pc ∈ sp.map Spawn.thread → pc = .select ∧ ∃ c started pending,
        some cb = some (.dispatch c started l.sub pending (.start l.channel)) ∧
          l.rebuild = some c := by
    intro cb q sp hm hl
    cases hm with
    | start c started pending hd =>
        cases List.mem_singleton.1 hl
        obtain ⟨-, rfl, rfl, -, hrb⟩ := DispatchStep.exec_inr hd
        exact ⟨rfl, c, started, pending, rfl, hrb⟩
    | _ => cases hl
  cases h with
  | watcher h =>
      cases h with
      | callback ms hm => exact (hcallback hm hl).imp_right .inr
      | success ms hm => exact (hcallback hm hl).imp_right .inr
      | handover n => cases List.mem_singleton.1 hl
      | _ => cases hl
  | force h =>
      cases h with
      | callback hm => exact (hcallback hm hl).imp_right .inr
      | success hm => exact (hcallback hm hl).imp_right .inr
      | _ => cases hl
  | subscribe id h =>
      cases h with
      | start hd =>
          cases List.mem_singleton.1 hl
          obtain ⟨-, rfl, rfl, -, hrb⟩ := DispatchStep.exec_inr hd
          exact ⟨rfl, .inl ⟨id, rfl, hrb⟩⟩
      | _ => cases hl
  | startup h =>
      cases h with
      | startHealth => cases List.mem_singleton.1 hl
      | startManager =>
          split at hl
          · cases List.mem_singleton.1 hl
          · cases hl
      | _ => cases hl
  | loop k h => cases hl
  | cleanup h => cases hl
  | health h => cases hl

def Thread.isStartup : Thread → Bool
  | .startup _ => true
  | _ => false

def Thread.isForce : Thread → Bool
  | .force _ => true
  | _ => false

def Thread.isCleanup : Thread → Bool
  | .cleanup _ => true
  | _ => false

def Thread.isWatcher : Thread → Bool
  | .watcher _ => true
  | _ => false

/-- No startup was ever called. -/
def unstarted (p : State) : Bool := p.threads.all fun t => !t.isStartup

/-- A startup has returned nil. -/
def started (p : State) : Bool := p.threads.any (· == .startup (.returned none))

theorem Spawn.thread_kind (x : Spawn) :
    x.thread.isStartup = false ∧ x.thread.isForce = false ∧ x.thread.isCleanup = false := by
  cases x <;> exact ⟨rfl, rfl, rfl⟩

/-- A goroutine stays what it is. -/
theorem Thread.Moves.kind {s s' : Client} {t t' : Thread} {o : Choice} {new : List Thread}
    (h : t.Moves s o s' t' new) :
    t'.isStartup = t.isStartup ∧ t'.isForce = t.isForce ∧ t'.isCleanup = t.isCleanup := by
  cases h <;> exact ⟨rfl, rfl, rfl⟩

/-- A watcher is started by a watcher, or by the `Start` of a startup. -/
theorem Thread.Moves.isWatcher {s s' : Client} {t t' : Thread} {o : Choice} {new : List Thread}
    (h : t.Moves s o s' t' new) :
    t'.isWatcher = t.isWatcher ∧
      ∀ u ∈ new, u.isWatcher = true → t.isWatcher = true ∨ t = .startup .startManager := by
  have hloop : ∀ {sp : List Spawn}, (sp = [] ∨ ∃ l, sp = [.loop l]) →
      ∀ u ∈ sp.map Spawn.thread, u.isWatcher = true → False := by
    rintro sp (rfl | ⟨l, rfl⟩) u hu hw
    · cases hu
    · obtain rfl := List.mem_singleton.1 hu
      cases hw
  cases h with
  | watcher h => exact ⟨rfl, fun u _ _ => .inl rfl⟩
  | startup h =>
      refine ⟨rfl, fun u hu hw => ?_⟩
      cases h with
      | startManager => exact .inr rfl
      | startHealth =>
          obtain rfl := List.mem_singleton.1 hu
          cases hw
      | _ => cases hu
  | subscribe id h => exact ⟨rfl, fun u hu hw => (hloop h.sameCore.2 u hu hw).elim⟩
  | force h =>
      refine ⟨rfl, fun u hu hw => ?_⟩
      cases h with
      | callback hm => exact (hloop hm.spawn u hu hw).elim
      | success hm => exact (hloop hm.spawn u hu hw).elim
      | _ => cases hu
  | loop l h => exact ⟨rfl, fun u hu => by cases hu⟩
  | cleanup h => exact ⟨rfl, fun u hu => by cases hu⟩
  | health h => exact ⟨rfl, fun u hu => by cases hu⟩

/-- **Where a goroutine of one kind comes from**: it was there, or it is the one that
moved.  A startup or a cleanup is never started with `go`. -/
theorem Thread.Moves.startup_origin {s s' : Client} {t t' : Thread} {o : Choice}
    {l r new : List Thread} (h : t.Moves s o s' t' new) {pc' : StartupWithContext}
    (hm : .startup pc' ∈ l ++ t' :: r ++ new) :
    .startup pc' ∈ l ++ r ∨
      ∃ pc sp, t = .startup pc ∧ t' = .startup pc' ∧ new = sp.map Spawn.thread ∧
        pc.Moves s o s' pc' sp := by
  rcases mem_focus hm with hold | rfl | hnew
  · exact .inl hold
  · cases h with
    | startup h => exact .inr ⟨_, _, rfl, rfl, rfl, h⟩
  · obtain ⟨x, hx⟩ := h.spawned _ hnew
    cases x <;> cases hx

theorem Thread.Moves.cleanup_origin {s s' : Client} {t t' : Thread} {o : Choice}
    {l r new : List Thread} (h : t.Moves s o s' t' new) {pc' : CleanupWithContext}
    (hm : .cleanup pc' ∈ l ++ t' :: r ++ new) :
    .cleanup pc' ∈ l ++ r ∨ ∃ pc, t = .cleanup pc ∧ pc.Moves s o s' pc' := by
  rcases mem_focus hm with hold | rfl | hnew
  · exact .inl hold
  · cases h with
    | cleanup h => exact .inr ⟨_, rfl, h⟩
  · obtain ⟨x, hx⟩ := h.spawned _ hnew
    cases x <;> cases hx

theorem Thread.Moves.loop_origin {s s' : Client} {t t' : Thread} {o : Choice}
    {l r new : List Thread} (h : t.Moves s o s' t' new) {k : Loop} {pc' : LoopPc}
    (hm : .loop k pc' ∈ l ++ t' :: r ++ new) :
    .loop k pc' ∈ l ++ r ∨ (∃ pc, t = .loop k pc ∧ pc.Moves s k s' pc') ∨ .loop k pc' ∈ new := by
  rcases mem_focus hm with hold | rfl | hnew
  · exact .inl hold
  · cases h with
    | loop _ h => exact .inr (.inl ⟨_, rfl, h⟩)
  · exact .inr (.inr hnew)

/-- A kind of goroutine that is never started with `go` stays away. -/
theorem Thread.Moves.forall_kind {s s' : Client} {t t' : Thread} {o : Choice}
    {l r new : List Thread} {K : Thread → Bool} (h : t.Moves s o s' t' new) (hself : K t' = K t)
    (hspawn : ∀ x : Spawn, K x.thread = false) (hall : ∀ u ∈ l ++ t :: r, K u = false) :
    ∀ u ∈ l ++ t' :: r ++ new, K u = false := by
  refine forall_focus hall (fun u _ hu => hu) (hself.trans (hall t (mem_focus_self l r t))) ?_
  intro u hu
  obtain ⟨x, rfl⟩ := h.spawned u hu
  exact hspawn x

/-- A startup between its first check and `Start`. -/
def Thread.startingUp : Thread → Bool
  | .startup pc => pc.settingUp && pc != .enter
  | _ => false

/-- A goroutine outside the callback leaves the connection and the maps alone, unless
it is a startup on its way or a cleanup. -/
theorem Thread.Moves.calm {s s' : Client} {t t' : Thread} {o : Choice} {new : List Thread}
    (h : t.Moves s o s' t' new) (hcb : t.callback? = none) (hs : t.startingUp = false)
    (hc : t.isCleanup = false) :
    s'.connection = s.connection ∧ s'.producers = s.producers ∧ s'.consumers = s.consumers := by
  by_cases hp : t.passive = true
  · have hs := (h.passive hp).1
    exact ⟨hs.connection, hs.producers, hs.consumers⟩
  · cases h with
    | watcher h =>
        cases h with
        | callback ms hm => cases hcb
        | success ms hm => cases hcb
        | _ => exact ⟨rfl, rfl, rfl⟩
    | force h =>
        cases h with
        | callback hm => cases hcb
        | success hm => cases hcb
        | _ => exact ⟨rfl, rfl, rfl⟩
    | cleanup h => cases hc
    | @startup pc _ _ _ h =>
        -- not passive and not on its way: the startup is at its first check
        have hu : pc.settingUp = true := by simpa [Thread.passive] using hp
        obtain rfl : pc = .enter := by simpa [Thread.startingUp, hu] using hs
        cases h <;> exact ⟨rfl, rfl, rfl⟩
    | _ => exact absurd rfl hp

/-! ### What a goroutine may write -/

/-- What a step of the callback may write. -/
theorem Callback.Moves.update {s s' : Client} {o : Choice} {cb : Callback}
    {q : Callback ⊕ ConnId} {new : List Spawn} (h : cb.Moves s o s' q new) :
    ∃ b c P K n, s' = { s with
      amqp := b, connection := c, producers := P, consumers := K, subscriptionWG := n } := by
  cases h with
  | setup c hi =>
      obtain ⟨n, P, K, rfl⟩ := SetupStep.exec_frame hi
      exact ⟨_, _, _, _, _, rfl⟩
  | dispatch c started pending hd =>
      obtain ⟨⟨n, rfl⟩, -⟩ := DispatchStep.exec_inl hd
      exact ⟨_, _, _, _, _, rfl⟩
  | start c started pending hd =>
      obtain ⟨rfl, -⟩ := DispatchStep.exec_inr hd
      exact ⟨_, _, _, _, _, rfl⟩
  | _ => exact ⟨_, _, _, _, _, rfl⟩

theorem SubscribeCall.Moves.update {s s' : Client} {o : Choice} {id : ℕ}
    {pc pc' : SubscribeCall} {new : List Spawn} (h : pc.Moves s o id s' pc' new) :
    ∃ b L n, s' = { s with amqp := b, subscriptions := L, subscriptionWG := n } := by
  cases h with
  | dispatch hd =>
      obtain ⟨⟨n, rfl⟩, -⟩ := DispatchStep.exec_inl hd
      exact ⟨_, _, _, rfl⟩
  | start hd =>
      obtain ⟨rfl, -⟩ := DispatchStep.exec_inr hd
      exact ⟨_, _, _, rfl⟩
  | _ => exact ⟨_, _, _, rfl⟩

/-- The ticker leaves its own stop signals alone. -/
theorem HealthRun.step_stops {s s' : Client} {o : Choice} {pc pc' : HealthRun}
    (h : pc.step s o = some (s', pc')) :
    s'.health.stopped = s.health.stopped ∧
      s'.health.stopChanClosed = s.health.stopChanClosed := by
  cases pc with
  | select =>
      rw [HealthRun.step] at h
      split_ifs at h <;> cases h <;> exact ⟨rfl, rfl⟩
  | probe => cases h; exact ⟨rfl, rfl⟩
  | record err => cases err <;> cases h <;> exact ⟨rfl, rfl⟩
  | returned => cases h

/-- **What a goroutine that is neither a startup nor a cleanup may write**: no signal,
nothing of the runtime's, and of the manager the flag alone. -/
theorem Thread.Moves.update {s s' : Client} {t t' : Thread} {o : Choice} {new : List Thread}
    (h : t.Moves s o s' t' new) (hs : t.isStartup = false) (hc : t.isCleanup = false) :
    ∃ b c P K L n m f r x,
      (r.stopped = s.health.stopped ∧ r.stopChanClosed = s.health.stopChanClosed) ∧
      s' = { s with
        amqp := b, connection := c, producers := P, consumers := K, subscriptions := L,
        subscriptionWG := n, metrics := m, manager := { s.manager with connected := f },
        health := r, panicked := x } := by
  cases h with
  | watcher h =>
      cases h with
      | callback ms hm =>
          obtain ⟨b, c, P, K, n, rfl⟩ := hm.update
          exact ⟨_, _, _, _, _, _, _, _, _, _, ⟨rfl, rfl⟩, rfl⟩
      | success ms hm =>
          obtain ⟨b, c, P, K, n, rfl⟩ := hm.update
          exact ⟨_, _, _, _, _, _, _, _, _, _, ⟨rfl, rfl⟩, rfl⟩
      | _ => exact ⟨_, _, _, _, _, _, _, _, _, _, ⟨rfl, rfl⟩, rfl⟩
  | force h =>
      cases h with
      | callback hm =>
          obtain ⟨b, c, P, K, n, rfl⟩ := hm.update
          exact ⟨_, _, _, _, _, _, _, _, _, _, ⟨rfl, rfl⟩, rfl⟩
      | success hm =>
          obtain ⟨b, c, P, K, n, rfl⟩ := hm.update
          exact ⟨_, _, _, _, _, _, _, _, _, _, ⟨rfl, rfl⟩, rfl⟩
      | _ => exact ⟨_, _, _, _, _, _, _, _, _, _, ⟨rfl, rfl⟩, rfl⟩
  | subscribe id h =>
      obtain ⟨b, L, n, rfl⟩ := h.update
      exact ⟨_, _, _, _, _, _, _, _, _, _, ⟨rfl, rfl⟩, rfl⟩
  | loop l h => cases h <;> exact ⟨_, _, _, _, _, _, _, _, _, _, ⟨rfl, rfl⟩, rfl⟩
  | health h =>
      have hr := HealthRun.step_stops h
      obtain ⟨n, f, r, -, rfl⟩ := HealthRun.step_frame h
      exact ⟨_, _, _, _, _, _, _, _, _, _, hr, rfl⟩
  | startup h => cases hs
  | cleanup h => cases hc

/-- No goroutine writes the configuration, or takes a cancellation back. -/
theorem Thread.Moves.constant {s s' : Client} {t t' : Thread} {o : Choice} {new : List Thread}
    (h : t.Moves s o s' t' new) : s'.config = s.config ∧ s'.cancelled = s.cancelled := by
  cases hs : t.isStartup with
  | true =>
      cases h with
      | startup h =>
          cases h with
          | producer hi =>
              obtain ⟨n, P, K, rfl⟩ := SetupStep.exec_frame hi
              exact ⟨rfl, rfl⟩
          | consumer hi =>
              obtain ⟨n, P, K, rfl⟩ := SetupStep.exec_frame hi
              exact ⟨rfl, rfl⟩
          | _ => exact ⟨rfl, rfl⟩
      | _ => cases hs
  | false =>
      cases hc : t.isCleanup with
      | true =>
          cases h with
          | cleanup h => cases h <;> exact ⟨rfl, rfl⟩
          | _ => cases hc
      | false =>
          obtain ⟨b, c, P, K, L, n, m, f, r, x, -, rfl⟩ := h.update hs hc
          exact ⟨rfl, rfl⟩

theorem Thread.Moves.config {s s' : Client} {t t' : Thread} {o : Choice} {new : List Thread}
    (h : t.Moves s o s' t' new) : s'.config = s.config :=
  h.constant.1

/-- **No step changes the configuration.** -/
theorem Moves.config {p p' : State} {a : Action} (h : Moves p a p') :
    p'.shared.config = p.shared.config := by
  cases h with
  | run hl hi ht => exact ht.config
  | _ => rfl

theorem run_config {cfg : RabbitMQ} {g : State → Action → Bool} {p : State}
    (hr : Run step g (fresh cfg) p) : p.shared.config = cfg :=
  hr.invariant (I := fun p => p.shared.config = cfg) rfl fun _ _ _ hi _ h =>
    (moves_of_step h).2.config.trans hi

/-- Only a cleanup stops the manager and closes its stop channel. -/
theorem Thread.Moves.stopSignals {s s' : Client} {t t' : Thread} {o : Choice}
    {new : List Thread} (h : t.Moves s o s' t' new) (hk : t.isCleanup = false) :
    s'.manager.stopped = s.manager.stopped ∧
      s'.manager.stopChanClosed = s.manager.stopChanClosed := by
  cases hs : t.isStartup with
  | true =>
      cases h with
      | startup h => exact ⟨h.frame.stopped, h.frame.stopChanClosed⟩
      | _ => cases hs
  | false =>
      obtain ⟨b, c, P, K, L, n, m, f, r, x, -, rfl⟩ := h.update hs hk
      exact ⟨rfl, rfl⟩

/-- Some cleanup is at a place with `f`. -/
def someCleanup (f : CleanupWithContext → Bool) (p : State) : Bool :=
  p.threads.any fun
    | .cleanup pc => f pc
    | _ => false

theorem someCleanup_iff {f : CleanupWithContext → Bool} {p : State} :
    someCleanup f p = true ↔ ∃ pc, .cleanup pc ∈ p.threads ∧ f pc = true := by
  rw [someCleanup, List.any_eq_true]
  constructor
  · rintro ⟨t, ht, hf⟩
    cases t with
    | cleanup pc => exact ⟨pc, ht, hf⟩
    | _ => cases hf
  · rintro ⟨pc, hpc, hf⟩
    exact ⟨_, hpc, hf⟩

theorem someCleanup_eq_false {f : CleanupWithContext → Bool} {p : State}
    (h : someCleanup f p = false) {pc : CleanupWithContext} (hpc : .cleanup pc ∈ p.threads) :
    f pc = false := by
  by_contra hf
  rw [someCleanup_iff.2 ⟨pc, hpc, by simpa using hf⟩] at h
  cases h

/-! ### The counters -/

def Thread.isLoop : Thread → Bool
  | .loop _ _ => true
  | _ => false

def Thread.isHealth : Thread → Bool
  | .health _ => true
  | _ => false

/-- Only a dispatch loop writes the metrics, and only the ticker counts a failed
check. -/
theorem Thread.Moves.counters {s s' : Client} {t t' : Thread} {o : Choice} {new : List Thread}
    (h : t.Moves s o s' t' new) (hl : t.isLoop = false) (hh : t.isHealth = false) :
    s'.metrics = s.metrics ∧ s'.health.errorCount = s.health.errorCount := by
  have hcallback : ∀ {cb : Callback} {q sp}, cb.Moves s o s' q sp →
      s'.metrics = s.metrics ∧ s'.health.errorCount = s.health.errorCount := by
    intro cb q sp hm
    obtain ⟨b, c, P, K, n, rfl⟩ := hm.update
    exact ⟨rfl, rfl⟩
  cases h with
  | watcher h =>
      cases h with
      | callback ms hm => exact hcallback hm
      | success ms hm => exact hcallback hm
      | _ => exact ⟨rfl, rfl⟩
  | force h =>
      cases h with
      | callback hm => exact hcallback hm
      | success hm => exact hcallback hm
      | _ => exact ⟨rfl, rfl⟩
  | subscribe id h =>
      obtain ⟨b, L, n, rfl⟩ := h.update
      exact ⟨rfl, rfl⟩
  | startup h =>
      cases h with
      | producer hi =>
          obtain ⟨n, P, K, rfl⟩ := SetupStep.exec_frame hi
          exact ⟨rfl, rfl⟩
      | consumer hi =>
          obtain ⟨n, P, K, rfl⟩ := SetupStep.exec_frame hi
          exact ⟨rfl, rfl⟩
      | _ => exact ⟨rfl, rfl⟩
  | cleanup h => cases h <;> exact ⟨rfl, rfl⟩
  | loop l h => cases hl
  | health h => cases hh

/-- **A step writes the metrics only to count a delivery**, handled or failed. -/
theorem Thread.step_metrics {s s' : Client} {t t' : Thread} {o : Choice} {new : List Thread}
    (h : t.step s o = some (s', t', new)) :
    s'.metrics = s.metrics ∨ ∃ failed, s'.metrics = s.metrics.countHandled failed := by
  cases t with
  | loop l pc =>
      obtain ⟨q, hq, he⟩ := Option.map_eq_some_iff.1 h
      cases he
      cases pc with
      | select =>
          rw [LoopPc.step] at hq
          split_ifs at hq <;> cases hq <;> exact .inl rfl
      | handling => cases hq; exact .inr ⟨_, rfl⟩
      | settling failed => cases hq; exact .inl rfl
      | closing => cases hq; exact .inl rfl
      | finishing => cases hq; exact .inl rfl
      | returned => cases hq
  | health pc =>
      cases Thread.moves_of_step h with
      | health hs =>
          obtain ⟨n, f, r, -, rfl⟩ := HealthRun.step_frame hs
          exact .inl rfl
  | _ => exact .inl ((Thread.moves_of_step h).counters rfl rfl).1

theorem step_metrics {p p' : State} {a : Action} (h : step p a = some p') :
    p'.shared.metrics = p.shared.metrics ∨
      ∃ failed, p'.shared.metrics = p.shared.metrics.countHandled failed := by
  cases a with
  | run i o =>
      obtain ⟨l, t, r, s', t', new, -, -, -, ht, rfl⟩ := step_run_focus h
      exact Thread.step_metrics ht
  | drop c => cases (moves_of_step h).2; exact .inl rfl
  | call k => cases (moves_of_step h).2; exact .inl rfl
  | cancel id => cases (moves_of_step h).2; exact .inl rfl

/-! ### The guardian of the connection -/

/-- The goroutine in charge of the connection: a startup that has not started the
manager yet, or a live watcher. -/
def Thread.guardian : Thread → Bool
  | .watcher .returned => false
  | .watcher _ => true
  | .startup pc => pc.settingUp
  | _ => false

theorem Thread.guardian_of_passive {t : Thread} (h : t.passive = true) : t.guardian = false := by
  cases t with
  | startup pc => simpa [Thread.passive, Thread.guardian] using h
  | watcher pc => cases h
  | _ => rfl

theorem Callback.Moves.countP_guardian {s s' : Client} {o : Choice} {cb : Callback}
    {q : Callback ⊕ ConnId} {new : List Spawn} (h : cb.Moves s o s' q new) :
    (new.map Spawn.thread).countP Thread.guardian = 0 := by
  obtain rfl | ⟨l, rfl⟩ := h.spawn <;> rfl

/-- A watcher in charge stays in charge, hands over to the next one, or returns. -/
theorem WatchConnection.Moves.guardian {s s' : Client} {o : Choice} {pc pc' : WatchConnection}
    {new : List Spawn} (h : pc.Moves s o s' pc' new) :
    (Thread.watcher pc').guardian.toNat + (new.map Spawn.thread).countP Thread.guardian ≤
      (Thread.watcher pc).guardian.toNat := by
  cases h with
  | callback ms hm => rw [hm.countP_guardian]; exact le_rfl
  | success ms hm => rw [hm.countP_guardian]; exact le_rfl
  | _ => exact of_decide_eq_true rfl

/-- A `ForceReconnect` call starts no watcher. -/
theorem ForceReconnect.Moves.guardian {s s' : Client} {o : Choice} {pc pc' : ForceReconnect}
    {new : List Spawn} (h : pc.Moves s o s' pc' new) :
    (new.map Spawn.thread).countP Thread.guardian = 0 := by
  cases h with
  | callback hm => exact hm.countP_guardian
  | success hm => exact hm.countP_guardian
  | _ => rfl

/-- A startup in charge hands over to at most one watcher, when it starts the
manager. -/
theorem StartupWithContext.Moves.guardian {s s' : Client} {o : Choice}
    {pc pc' : StartupWithContext} {new : List Spawn} (h : pc.Moves s o s' pc' new)
    (hu : pc.settingUp = true) :
    pc'.settingUp.toNat + (new.map Spawn.thread).countP Thread.guardian ≤ 1 := by
  cases h with
  | startManager =>
      split
      · exact Nat.le_refl 1
      · exact Nat.zero_le 1
  | startHealth => exact le_rfl
  | _ => exact Nat.add_le_add (Bool.toNat_le _) (Nat.le_refl 0)

/-- **There is one guardian.**  A step hands the charge over, to the goroutine
itself or to one it starts, or drops it; it never makes a second guardian. -/
theorem Thread.Moves.guardian {s s' : Client} {t t' : Thread} {o : Choice} {new : List Thread}
    (h : t.Moves s o s' t' new) :
    t'.guardian.toNat + new.countP Thread.guardian ≤ t.guardian.toNat := by
  by_cases hp : t.passive = true
  · obtain ⟨-, ht', hnew⟩ := h.passive hp
    have h0 : new.countP Thread.guardian = 0 := by
      rw [List.countP_eq_zero]
      intro u hu
      obtain ⟨l, rfl⟩ := hnew u hu
      exact Bool.false_ne_true
    rw [Thread.guardian_of_passive ht', h0]
    exact Nat.zero_le _
  · cases h with
    | watcher h => exact h.guardian
    | force h => rw [h.guardian]; exact le_rfl
    | cleanup h => exact le_rfl
    | @startup pc _ _ _ h =>
        have hu : (Thread.startup pc).guardian = true := by
          simpa [Thread.passive, Thread.guardian] using hp
        rw [hu]
        exact h.guardian hu
    | _ => exact absurd rfl hp

/-- Without `ForceReconnect` and cleanup, whoever is not passive is in charge. -/
theorem Thread.Moves.guardian_of_active {s s' : Client} {t t' : Thread} {o : Choice}
    {new : List Thread} (h : t.Moves s o s' t' new) (hp : t.passive = false)
    (hk : t.isForce = false ∧ t.isCleanup = false) : t.guardian = true := by
  cases h with
  | watcher h => cases h <;> rfl
  | startup h => simpa [Thread.passive, Thread.guardian] using hp
  | force h => cases hk.1
  | cleanup h => cases hk.2
  | _ => cases hp

/-! ### One startup -/

/-- A startup is called only when none was called before. -/
def oneStartup (p : State) : Action → Bool
  | .call .startup => unstarted p
  | _ => true

/-- One startup and no cleanup; `ForceReconnect` is called on a started client. -/
def supervised (p : State) : Action → Bool
  | .call .startup => unstarted p
  | .call .cleanup => false
  | .call .forceReconnect => started p
  | _ => true

/-- Every guard that calls a startup only on an unstarted client has one startup. -/
theorem oneStartup_of_guard {g : State → Action → Bool} {p : State} {a : Action}
    (hg : g p (.call .startup) = unstarted p) (h : g p a = true) : oneStartup p a = true := by
  cases a with
  | call k =>
      cases k with
      | startup => exact hg.symm.trans h
      | _ => rfl
  | _ => rfl

/-- What one startup gives: there is one such call, and one guardian, which comes
with it. -/
structure SingleStartup (p : State) : Prop where
  single : p.threads.countP Thread.isStartup ≤ 1
  exclusive : p.threads.countP Thread.guardian ≤ 1
  idle : unstarted p = true → p.threads.countP Thread.guardian = 0

theorem singleStartup_fresh (cfg : RabbitMQ) : SingleStartup (fresh cfg) :=
  ⟨Nat.zero_le 1, Nat.zero_le 1, fun _ => rfl⟩

theorem unstarted_iff {p : State} :
    unstarted p = true ↔ p.threads.countP Thread.isStartup = 0 := by
  rw [unstarted, List.all_eq_true, List.countP_eq_zero]
  simp only [Bool.not_eq_true']
  exact forall₂_congr fun t _ => (Bool.not_eq_true _).symm.to_iff

/-- A step of a goroutine adds no startup. -/
theorem Thread.Moves.countP_startup {s s' : Client} {t t' : Thread} {o : Choice}
    {l r new : List Thread} (h : t.Moves s o s' t' new) :
    (l ++ t' :: r ++ new).countP Thread.isStartup = (l ++ t :: r).countP Thread.isStartup := by
  have hcount := countP_focus l r new t t' Thread.isStartup
  have hnew : new.countP Thread.isStartup = 0 := by
    rw [List.countP_eq_zero]
    intro u hu
    obtain ⟨x, rfl⟩ := h.spawned u hu
    rw [x.thread_kind.1]
    exact Bool.false_ne_true
  rw [h.kind.1] at hcount
  omega

/-- **There is one startup and one guardian** in every run with one startup. -/
theorem SingleStartup.step {p p' : State} {a : Action} (hi : SingleStartup p)
    (hg : oneStartup p a = true) (h : Moves p a p') : SingleStartup p' := by
  obtain ⟨hsingle, hexcl, hidle⟩ := hi
  rw [unstarted_iff] at hidle
  cases h with
  | @run i o l r new t t' s' hl hix ht =>
      rw [hl] at hsingle hexcl hidle
      have hstart := ht.countP_startup (l := l) (r := r)
      have hgu := ht.guardian
      have hcount := countP_focus l r new t t' Thread.guardian
      refine ⟨hstart.trans_le hsingle,
        (by omega : (l ++ t' :: r ++ new).countP Thread.guardian ≤ 1), fun hu => ?_⟩
      have h0 := hidle (hstart.symm.trans (unstarted_iff.1 hu))
      exact (by omega : (l ++ t' :: r ++ new).countP Thread.guardian = 0)
  | drop hc ho => exact ⟨hsingle, hexcl, fun hu => hidle (unstarted_iff.1 hu)⟩
  | call k =>
      have hs := countP_snoc p.threads (k.thread p.threads.length) Thread.isStartup
      have hc := countP_snoc p.threads (k.thread p.threads.length) Thread.guardian
      cases k with
      | startup =>
          have hu := unstarted_iff.1 hg
          rw [hu] at hs
          rw [hidle hu] at hc
          refine ⟨hs.le, hc.le, fun hu' => ?_⟩
          rw [unstarted_iff.1 hu'] at hs
          cases hs
      | _ =>
          refine ⟨hs.trans_le hsingle, hc.trans_le hexcl, fun hu => ?_⟩
          exact hc.trans (hidle (hs.symm.trans (unstarted_iff.1 hu)))
  | cancel id => exact ⟨hsingle, hexcl, fun hu => hidle (unstarted_iff.1 hu)⟩

/-- A startup that has returned stays where it is. -/
theorem started_focus {p : State} {l r new : List Thread} {t t' : Thread} {o : Choice}
    {s' : Client} (hl : p.threads = l ++ t :: r) (h : t.Moves p.shared o s' t' new)
    (hs : started p = true) : started ⟨s', l ++ t' :: r ++ new⟩ = true := by
  obtain ⟨u, hu, he⟩ := List.any_eq_true.1 hs
  rw [hl] at hu
  rcases eq_or_mem_others hu with rfl | hu
  · obtain rfl := beq_iff_eq.1 he
    cases h with
    | startup h =>
        cases h with
        | abort f e hf => cases hf
  · exact List.any_eq_true.2 ⟨u, mem_focus_of_others hu t' new, he⟩

theorem started_snoc {p : State} (s : Client) (t : Thread) (h : started p = true) :
    started ⟨s, p.threads ++ [t]⟩ = true := by
  rw [started, List.any_append, Bool.or_eq_true]
  exact .inl h

/-- A kind of goroutine that is called on a started client only: the startup has
returned nil wherever there is one. -/
theorem Thread.Moves.started_of_kind {p : State} {l r new : List Thread} {t t' : Thread}
    {o : Choice} {s' : Client} {K : Thread → Bool} (h : t.Moves p.shared o s' t' new)
    (hl : p.threads = l ++ t :: r) (hself : K t' = K t) (hspawn : ∀ x : Spawn, K x.thread = false)
    (hall : ∀ u ∈ p.threads, K u = true → started p = true) :
    ∀ u ∈ l ++ t' :: r ++ new, K u = true → started ⟨s', l ++ t' :: r ++ new⟩ = true := by
  intro u hu hk
  refine started_focus hl h ?_
  rcases mem_focus hu with hu | rfl | hu
  · exact hall u (hl ▸ mem_of_mem_others hu t) hk
  · exact hall t (hl ▸ mem_focus_self l r t) (hself.symm.trans hk)
  · obtain ⟨x, rfl⟩ := h.spawned u hu
    rw [hspawn x] at hk
    cases hk

theorem started_of_kind_snoc {p : State} {K : Thread → Bool} {t : Thread}
    (hall : ∀ u ∈ p.threads, K u = true → started p = true) (ht : K t = true → started p = true) :
    ∀ u ∈ p.threads ++ [t], K u = true → started ⟨p.shared, p.threads ++ [t]⟩ = true :=
  List.forall_mem_append.2 ⟨fun u hu hk => started_snoc _ _ (hall u hu hk),
    List.forall_mem_singleton.2 fun hk => started_snoc _ _ (ht hk)⟩

/-- Once it has returned nil, the one startup call stands nowhere else. -/
theorem SingleStartup.startup_eq {p : State} (hi : SingleStartup p) (hs : started p = true)
    {pc : StartupWithContext} (h : .startup pc ∈ p.threads) : pc = .returned none := by
  obtain ⟨t, ht, he⟩ := List.any_eq_true.1 hs
  obtain rfl := beq_iff_eq.1 he
  obtain ⟨l, r, hl⟩ := List.append_of_mem ht
  have hsingle := hi.single
  rw [hl] at hsingle h
  rcases eq_or_mem_others h with h | h
  · cases h; rfl
  · have := not_of_countP_le_one hsingle rfl h
    cases this

end LynxRabbit
