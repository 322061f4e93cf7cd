/-
# A rebuild restarts every subscription

`rebuildAfterReconnect` takes a snapshot of `r.subscriptions` and starts a dispatch
loop for each of its entries, in order.  An entry whose consumer channel is missing
is skipped without an error.  That branch is never taken when one execution of the
callback, or one startup, is at work at a time: the consumer name of every
subscription is the name of an enabled consumer, and by the time of the snapshot
every enabled consumer is registered on the connection the execution has stored.

The invariant counts for each execution the loops it has started: those whose
`rebuild` field is its connection, in the order of their start, are the loops of
the snapshot's entries it has dealt with.
-/

import LynxRabbit.Client.Connections
import LynxRabbit.Subscriptions.Names

namespace LynxRabbit

open Runs

/-- The goroutine is running the callback, or is a startup between its first check
and `Start`. -/
def Thread.busy : Thread → Bool
  | .startup pc => pc.settingUp && pc != .enter
  | t => t.callback?.isSome

/-- The goroutine is about to run the callback, or is a startup at its first
check. -/
def Thread.begins : Thread → Bool
  | .watcher (.check _) => true
  | .force .lower => true
  | .startup .enter => true
  | _ => false

/-- No cleanup; the callback or a startup is begun only when neither is under
way. -/
def oneAtATime (p : State) : Action → Bool
  | .call .cleanup => false
  | .run i _ => p.threads[i]?.all fun t => !t.begins || p.threads.all fun u => !u.busy
  | _ => true

/-- The connection an execution has dialled. -/
def Callback.conn? : Callback → Option ConnId
  | .dial => none
  | .store c => some c
  | .clearProducers c => some c
  | .clearConsumers c => some c
  | .rebuild c _ => some c
  | .restart c _ _ => some c
  | .dispatch c _ _ _ _ => some c

/-- The entries of its snapshot an execution has dealt with. -/
def Callback.started : Callback → List Subscription
  | .restart _ started _ => started
  | .dispatch _ started _ _ _ => started
  | _ => []

/-- The subscription of a dispatch loop that the rebuild on connection `c`
started. -/
def Thread.restarted (c : ConnId) : Thread → Option Subscription
  | .loop l _ => if l.rebuild = some c then some l.sub else none
  | _ => none

/-- What holds of an execution that is alone at work. -/
structure Restarting (p : State) (cb : Callback) : Prop where
  track : cb.OnTrack p.shared
  dialled : ∀ c, cb.conn? = some c → c < p.shared.amqp.dialled
  loops : ∀ c, cb.conn? = some c → p.threads.filterMap (Thread.restarted c) = cb.started
  own : ∀ c, cb.conn? = some c → ∀ c', cb.serving = some c' → c' = c

/-- The invariant of the runs with one execution at a time. -/
structure RestartInv (p : State) : Prop where
  named : Named p
  noCleanup : ∀ t ∈ p.threads, t.isCleanup = false
  alone : p.threads.countP Thread.busy ≤ 1
  loops : ∀ l pc, .loop l pc ∈ p.threads → ∀ c, l.rebuild = some c →
    c < p.shared.amqp.dialled ∧ l.channel.conn = c
  callbacks : ∀ t ∈ p.threads, ∀ cb, t.callback? = some cb → Restarting p cb

theorem Thread.busy_of_callback {t : Thread} {cb : Callback} (h : t.callback? = some cb) :
    t.busy = true := by
  rcases Thread.eq_of_callback h with ⟨ms, rfl⟩ | rfl <;> rfl

/-- A goroutine that is not at work runs neither the callback nor a startup. -/
theorem Thread.of_not_busy {t : Thread} (h : t.busy = false) :
    t.callback? = none ∧ t.startingUp = false := by
  cases t with
  | startup pc => exact ⟨rfl, h⟩
  | _ => exact ⟨Option.isNone_iff_eq_none.1 (Option.isSome_eq_false_iff.1 h), rfl⟩

theorem Thread.begins_of_callback {t : Thread} {cb : Callback} (h : t.callback? = some cb) :
    t.begins = false := by
  rcases Thread.eq_of_callback h with ⟨ms, rfl⟩ | rfl <;> rfl

theorem Spawn.thread_busy (x : Spawn) : x.thread.busy = false := by cases x <;> rfl

theorem Call.thread_busy (k : Call) (id : ℕ) : (k.thread id).busy = false := by cases k <;> rfl

/-! ### Skipping is impossible -/

/-- **The consumer channel is there**: an execution that is restarting finds the
consumer of every subscription. -/
theorem Restarting.ready {p : State} {cb : Callback} {c : ConnId} {started : List Subscription}
    {pending : List Subscription} {sub : Subscription} (h : Restarting p cb)
    (hcb : cb = .restart c started (sub :: pending))
    (hsub : .consumer sub.consumerName ∈ p.shared.config.entries) :
    p.shared.isConsumerReady sub.consumerName = true := by
  subst hcb
  obtain ⟨-, hcomp⟩ := h.track
  obtain ⟨ch, hch, -⟩ := hcomp _ hsub
  exact Client.isConsumerReady_iff.2 ⟨ch, hch⟩

/-! ### Goroutines that are not at work -/

/-- A goroutine outside the callback starts no loop for a rebuild, and if it
enters the callback it has not dialled. -/
theorem Thread.Moves.outside {s s' : Client} {t t' : Thread} {o : Choice} {new : List Thread}
    (h : t.Moves s o s' t' new) (hn : t.callback? = none) (c : ConnId) :
    t'.restarted c = t.restarted c ∧ new.filterMap (Thread.restarted c) = [] ∧
      ∀ cb, t'.callback? = some cb → cb = .dial := by
  cases h with
  | watcher h =>
      cases h with
      | callback ms hm => cases hn
      | success ms hm => cases hn
      | failure ms f hf => cases hn
      | attempt ms hs => exact ⟨rfl, rfl, fun cb h => (Option.some.inj h).symm⟩
      | _ => exact ⟨rfl, rfl, fun cb h => (by cases h)⟩
  | force h =>
      cases h with
      | callback hm => cases hn
      | success hm => cases hn
      | failure f hf => cases hn
      | lower => exact ⟨rfl, rfl, fun cb h => (Option.some.inj h).symm⟩
      | _ => exact ⟨rfl, rfl, fun cb h => (by cases h)⟩
  | subscribe id h =>
      cases h with
      | start hd =>
          obtain ⟨-, -, -, -, hrb⟩ := DispatchStep.exec_inr hd
          refine ⟨rfl, ?_, fun cb h => (by cases h)⟩
          rw [List.map_singleton, List.filterMap_cons_none]
          · rfl
          · rw [Spawn.thread, Thread.restarted, hrb]
            rfl
      | _ => exact ⟨rfl, rfl, fun cb h => (by cases h)⟩
  | loop l h => exact ⟨rfl, rfl, fun cb h => (by cases h)⟩
  | cleanup h => exact ⟨rfl, rfl, fun cb h => (by cases h)⟩
  | health h => exact ⟨rfl, rfl, fun cb h => (by cases h)⟩
  | startup h =>
      cases h with
      | startManager => split <;> exact ⟨rfl, rfl, fun cb h => (by cases h)⟩
      | _ => exact ⟨rfl, rfl, fun cb h => (by cases h)⟩

/-- A step gets a goroutine to work only where it begins, and never starts one
that is at work. -/
theorem Thread.Moves.busy {s s' : Client} {t t' : Thread} {o : Choice} {new : List Thread}
    (h : t.Moves s o s' t' new) :
    (t'.busy = true → t.busy = true ∨ t.begins = true) ∧ new.countP Thread.busy = 0 := by
  refine ⟨fun hb => ?_, List.countP_eq_zero.2 fun u hu => ?_⟩
  · cases h with
    | watcher h =>
        cases h with
        | callback ms hm => exact .inl rfl
        | attempt ms hs => exact .inr rfl
        | _ => cases hb
    | force h =>
        cases h with
        | callback hm => exact .inl rfl
        | lower => exact .inr rfl
        | _ => cases hb
    | startup h =>
        cases h with
        | enter => exact .inr rfl
        | refuse e => cases hb
        | abort f e hf => cases hb
        | registerShared => cases hb
        | pass parts hpart => cases hb
        | healthy => cases hb
        | unregistered e => cases hb
        | unhealthy parts e => cases hb
        | publishReady => cases hb
        | unpublish e => cases hb
        | _ => exact .inl rfl
    | _ => cases hb
  · obtain ⟨x, rfl⟩ := h.spawned u hu
    rw [x.thread_busy]
    exact Bool.false_ne_true

/-- A loop for a rebuild is started by the execution with its connection, on the
connection that execution has read. -/
theorem Thread.Moves.restarted_loop {s s' : Client} {t t' : Thread} {o : Choice}
    {new : List Thread} (h : t.Moves s o s' t' new) {l : Loop} {pc : LoopPc} {c : ConnId}
    (hl : .loop l pc ∈ new) (hc : l.rebuild = some c) :
    ∃ cb, t.callback? = some cb ∧ cb.conn? = some c ∧ cb.serving = some l.channel.conn := by
  obtain ⟨-, ⟨id, -, hrb⟩ | ⟨c', started, pending, hcb, hrb⟩⟩ := h.loop_started hl
  · rw [hrb] at hc
    cases hc
  · exact ⟨_, hcb, hrb.symm.trans hc, rfl⟩

theorem Thread.restarted_of_callback {t : Thread} {cb : Callback} (h : t.callback? = some cb)
    (c : ConnId) : t.restarted c = none := by
  rcases Thread.eq_of_callback h with ⟨ms, rfl⟩ | rfl <;> rfl

/-! ### An execution at work -/

/-- **A step of the execution.**  Given what the step adds to the loops, the
execution has dealt with as many entries as it has started loops. -/
theorem Restarting.step {p : State} {cb cb' : Callback} {o : Choice} {s' : Client}
    {sp : List Spawn} {threads : List Thread} (hr : Restarting p cb)
    (h : cb.Moves p.shared o s' (.inl cb') sp)
    (hsubs : ∀ sub ∈ cb.subs, .consumer sub.consumerName ∈ p.shared.config.entries)
    (hfresh : ∀ c, p.shared.amqp.dialled ≤ c → p.threads.filterMap (Thread.restarted c) = [])
    (hloops : ∀ c, threads.filterMap (Thread.restarted c) =
      p.threads.filterMap (Thread.restarted c) ++
        (sp.map Spawn.thread).filterMap (Thread.restarted c)) :
    Restarting ⟨s', threads⟩ cb' := by
  have htrack := hr.track.step h
  have hle := h.connStep.dialled_le
  -- no loop is started
  have hkeep : ∀ {c}, sp = [] → cb.conn? = some c →
      threads.filterMap (Thread.restarted c) = cb.started := by
    rintro c rfl hc
    rw [hloops c, hr.loops c hc]
    exact List.append_nil _
  have hconn : cb.conn? = cb'.conn? → ∀ c, cb'.conn? = some c → c < s'.amqp.dialled :=
    fun he c hc => (hr.dialled c (he.trans hc)).trans_le hle
  cases h with
  | dial =>
      refine ⟨htrack, fun c hc => ?_, fun c hc => ?_, fun c hc c' hc' => by cases hc'⟩
      · obtain rfl := Option.some.inj hc
        exact Nat.lt_succ_self _
      · obtain rfl := Option.some.inj hc
        rw [hloops, hfresh _ le_rfl]
        rfl
  | skip c started hl =>
      obtain ⟨ch, hch⟩ := Client.isConsumerReady_iff.1
        (hr.ready rfl (hsubs _ (List.mem_cons_self ..)))
      exact absurd hch (hl ch)
  | dispatch c started pending hd =>
      refine ⟨htrack, hconn rfl, fun c hc => hkeep rfl hc, fun c' hc c'' hc'' => ?_⟩
      rcases DispatchStep.conn?_of_exec hd hc'' with hread | hstored
      · exact hr.own c' hc c'' hread
      · obtain rfl := Option.some.inj hc
        exact Option.some.inj (hstored.symm.trans hr.track.1)
  | @start c started sub pending d l s' hd =>
      refine ⟨htrack, hconn rfl, fun c' hc => ?_, fun c hc c' hc' => by cases hc'⟩
      obtain rfl := Option.some.inj hc
      obtain ⟨-, -, rfl, -, hrb⟩ := DispatchStep.exec_inr hd
      have htag : Thread.restarted c (.loop l .select) = some l.sub := if_pos hrb
      rw [hloops c, hr.loops c rfl]
      exact congrArg (started ++ ·) (List.filterMap_cons_some htag)
  | _ => exact ⟨htrack, hconn rfl, fun c hc => hkeep rfl hc, fun c hc c' hc' => by cases hc'⟩

/-- An execution is not disturbed by a step that leaves the connection, the maps
and its loops alone. -/
theorem Restarting.frame {p p' : State} {cb : Callback} (hr : Restarting p cb)
    (hcfg : p'.shared.config = p.shared.config)
    (hconn : p'.shared.connection = p.shared.connection)
    (hprod : p'.shared.producers = p.shared.producers)
    (hcons : p'.shared.consumers = p.shared.consumers)
    (hle : p.shared.amqp.dialled ≤ p'.shared.amqp.dialled)
    (hloops : ∀ c, p'.threads.filterMap (Thread.restarted c) =
      p.threads.filterMap (Thread.restarted c)) : Restarting p' cb :=
  ⟨hr.track.congr hcfg hconn (Client.entry_congr hprod hcons),
    fun c hc => (hr.dialled c hc).trans_le hle,
    fun c hc => (hloops c).trans (hr.loops c hc), hr.own⟩

/-- The loops of an execution have its connection, so none is tagged with a
connection that was not dialled. -/
theorem RestartInv.fresh_loops {p : State} (hi : RestartInv p) {c : ConnId}
    (hc : p.shared.amqp.dialled ≤ c) : p.threads.filterMap (Thread.restarted c) = [] := by
  rw [List.filterMap_eq_nil_iff]
  intro t ht
  cases t with
  | loop l pc =>
      refine if_neg fun hrb => ?_
      exact absurd (hi.loops l pc ht c hrb).1 (Nat.not_lt.2 hc)
  | _ => rfl

/-- At most one goroutine is at work after the step. -/
theorem RestartInv.alone_run {p : State} {l r new : List Thread} {t t' : Thread} {o : Choice}
    {s' : Client} (hi : RestartInv p) (hl : p.threads = l ++ t :: r)
    (ht : t.Moves p.shared o s' t' new)
    (hbegins : t.begins = true → ∀ u ∈ p.threads, u.busy = false) :
    (l ++ t' :: r ++ new).countP Thread.busy ≤ 1 := by
  have hcount := countP_focus l r new t t' Thread.busy
  have halone := hi.alone
  have hself := Bool.toNat_le t'.busy
  rw [← hl, ht.busy.2] at hcount
  by_cases hb : t'.busy = true
  · rcases ht.busy.1 hb with hbusy | hbeg
    · rw [hb, hbusy] at hcount
      omega
    · have hnone : p.threads.countP Thread.busy = 0 := by
        refine List.countP_eq_zero.2 fun u hu => ?_
        rw [hbegins hbeg u hu]
        exact Bool.false_ne_true
      omega
  · rw [Bool.not_eq_true] at hb
    rw [hb, Bool.toNat_false] at hcount
    omega

/-- The loops of a rebuild run on its connection. -/
theorem RestartInv.loops_run {p : State} {l r new : List Thread} {t t' : Thread} {o : Choice}
    {s' : Client} (hi : RestartInv p) (hl : p.threads = l ++ t :: r)
    (ht : t.Moves p.shared o s' t' new) {k : Loop} {pc : LoopPc}
    (hk : .loop k pc ∈ l ++ t' :: r ++ new) {c : ConnId} (hrb : k.rebuild = some c) :
    c < s'.amqp.dialled ∧ k.channel.conn = c := by
  have hmem : t ∈ p.threads := hl ▸ mem_focus_self l r t
  have hle := ht.ages.dialled
  rcases ht.loop_origin hk with hold | ⟨pc₀, rfl, -⟩ | hnew
  · obtain ⟨hc, hch⟩ := hi.loops k pc (hl ▸ mem_of_mem_others hold t) c hrb
    exact ⟨hc.trans_le hle, hch⟩
  · obtain ⟨hc, hch⟩ := hi.loops k pc₀ hmem c hrb
    exact ⟨hc.trans_le hle, hch⟩
  · obtain ⟨cb, hcb, hconn, hserv⟩ := ht.restarted_loop hnew hrb
    have hr := hi.callbacks t hmem cb hcb
    exact ⟨(hr.dialled c hconn).trans_le hle, hr.own c hconn _ hserv⟩

/-- **The execution itself moves**, or a goroutine enters the callback. -/
theorem RestartInv.execution_run {p : State} {l r new : List Thread} {t t' : Thread} {o : Choice}
    {s' : Client} (hi : RestartInv p) (hl : p.threads = l ++ t :: r)
    (ht : t.Moves p.shared o s' t' new) {cb' : Callback} (hcb' : t'.callback? = some cb') :
    Restarting ⟨s', l ++ t' :: r ++ new⟩ cb' := by
  have hmem : t ∈ p.threads := hl ▸ mem_focus_self l r t
  cases hcb : t.callback? with
  | none =>
      obtain rfl := (ht.outside hcb 0).2.2 cb' hcb'
      exact ⟨trivial, fun c hc => (by cases hc), fun c hc => (by cases hc),
        fun c hc => (by cases hc)⟩
  | some cb =>
      obtain ⟨sp, hm, rfl⟩ := ht.callback_next hcb hcb'
      have hsubs := hi.named.subs.held t hmem
      rw [Thread.subs_of_callback hcb] at hsubs
      refine (hi.callbacks t hmem cb hcb).step hm hsubs (fun c hc => hi.fresh_loops hc) fun c => ?_
      rw [hl]
      exact filterMap_focus _ ((Thread.restarted_of_callback hcb' c).trans
        (Thread.restarted_of_callback hcb c).symm)

/-- **Somebody else moves**, who is not at work since the execution is. -/
theorem RestartInv.bystander_run {p : State} {l r new : List Thread} {t t' u : Thread}
    {o : Choice} {s' : Client} (hi : RestartInv p) (hl : p.threads = l ++ t :: r)
    (ht : t.Moves p.shared o s' t' new) (hu : u ∈ l ++ r) {cb : Callback}
    (hcb : u.callback? = some cb) : Restarting ⟨s', l ++ t' :: r ++ new⟩ cb := by
  have hmem : t ∈ p.threads := hl ▸ mem_focus_self l r t
  have hr := hi.callbacks u (hl ▸ mem_of_mem_others hu t) cb hcb
  have halone := hi.alone
  rw [hl] at halone
  obtain ⟨hnone, hstart⟩ :=
    Thread.of_not_busy (mover_of_countP_le_one halone hu (Thread.busy_of_callback hcb))
  obtain ⟨hconn, hprod, hcons⟩ := ht.calm hnone hstart (hi.noCleanup t hmem)
  refine hr.frame ht.config hconn hprod hcons ht.ages.dialled fun c => ?_
  obtain ⟨htag, hnew, -⟩ := ht.outside hnone c
  rw [hl]
  exact (filterMap_focus _ htag).trans (by rw [hnew, List.append_nil])

/-- **A step of a goroutine keeps the invariant.** -/
theorem RestartInv.run {p : State} {l r new : List Thread} {t t' : Thread} {o : Choice}
    {s' : Client} (hi : RestartInv p) (hl : p.threads = l ++ t :: r)
    (ht : t.Moves p.shared o s' t' new)
    (hcond : (!t.begins || p.threads.all fun u => !u.busy) = true)
    (hnamed : Named ⟨s', l ++ t' :: r ++ new⟩) : RestartInv ⟨s', l ++ t' :: r ++ new⟩ := by
  have hbegins : t.begins = true → ∀ u ∈ p.threads, u.busy = false := by
    intro hb
    simpa [hb] using hcond
  refine ⟨hnamed, ht.forall_kind ht.kind.2.2 (fun x => x.thread_kind.2.2) (hl ▸ hi.noCleanup),
    hi.alone_run hl ht hbegins, fun k pc hk c hrb => hi.loops_run hl ht hk hrb,
    fun u hu cb hcb => ?_⟩
  rcases mem_focus hu with hu | rfl | hu
  · exact hi.bystander_run hl ht hu hcb
  · exact hi.execution_run hl ht hcb
  · obtain ⟨x, rfl⟩ := ht.spawned u hu
    cases x <;> cases hcb

/-- **Every step keeps the invariant.** -/
theorem RestartInv.step {p p' : State} {a : Action} (hi : RestartInv p)
    (hg : oneAtATime p a = true) (h : Moves p a p') : RestartInv p' := by
  have hnamed := hi.named.step h
  cases h with
  | run hl hix ht =>
      rw [oneAtATime, hix, Option.all_some] at hg
      exact hi.run hl ht hg hnamed
  | drop hc ho =>
      exact ⟨hnamed, hi.noCleanup, hi.alone, hi.loops, fun t ht cb hcb =>
        (hi.callbacks t ht cb hcb).frame rfl rfl rfl rfl le_rfl fun _ => rfl⟩
  | call k =>
      have hcall : (k.thread p.threads.length).callback? = none := by cases k <;> rfl
      refine ⟨hnamed, List.forall_mem_append.2 ⟨hi.noCleanup, List.forall_mem_singleton.2 ?_⟩,
        ?_, fun l pc hl => hi.loops l pc ?_, List.forall_mem_append.2 ⟨fun t ht cb hcb => ?_,
          List.forall_mem_singleton.2 fun cb hcb => ?_⟩⟩
      · cases k <;> first | rfl | cases hg
      · refine (countP_snoc _ _ _).le.trans ?_
        rw [k.thread_busy]
        exact hi.alone
      · refine (List.mem_append.1 hl).resolve_right fun hk => ?_
        cases k <;> cases List.mem_singleton.1 hk
      · refine (hi.callbacks t ht cb hcb).frame rfl rfl rfl rfl le_rfl fun c => ?_
        rw [List.filterMap_append]
        cases k <;> exact List.append_nil _
      · rw [hcall] at hcb
        cases hcb
  | cancel id =>
      exact ⟨hnamed, hi.noCleanup, hi.alone, hi.loops, fun t ht cb hcb =>
        (hi.callbacks t ht cb hcb).frame rfl rfl rfl rfl le_rfl fun _ => rfl⟩

theorem restartInv_run {cfg : RabbitMQ} {p : State} (hr : Run step oneAtATime (fresh cfg) p) :
    RestartInv p := by
  refine hr.invariant ⟨named_fresh cfg, fun t ht => (by cases ht), Nat.zero_le 1,
    fun l pc hl => (by cases hl), fun t ht => (by cases ht)⟩ ?_
  exact fun _ _ _ hi hg h => hi.step hg (moves_of_step h).2

/-! ### The snapshot of an execution -/

/-- The snapshot an execution works through, once it has taken one. -/
def Callback.snapshot? : Callback → Option (List Subscription)
  | .restart _ started pending => some (started ++ pending)
  | .dispatch _ started sub pending _ => some (started ++ sub :: pending)
  | _ => none

/-- An execution keeps its connection and its snapshot. -/
theorem Callback.Moves.keeps_snapshot {s s' : Client} {o : Choice} {cb cb' : Callback}
    {new : List Spawn} (h : cb.Moves s o s' (.inl cb') new) :
    (cb'.conn? = some s.amqp.dialled ∨ cb'.conn? = cb.conn?) ∧
      ∀ subs, cb.snapshot? = some subs → cb'.snapshot? = some subs := by
  cases h with
  | dial => exact ⟨.inl rfl, fun subs h => (by cases h)⟩
  | found c started hl => exact ⟨.inr rfl, fun subs h => h⟩
  | dispatch c started pending hd => exact ⟨.inr rfl, fun subs h => h⟩
  | skip c started hl =>
      refine ⟨.inr rfl, fun subs h => ?_⟩
      rwa [Callback.snapshot?, List.append_assoc]
  | start c started pending hd =>
      refine ⟨.inr rfl, fun subs h => ?_⟩
      rwa [Callback.snapshot?, List.append_assoc]
  | _ => exact ⟨.inr rfl, fun subs h => (by cases h)⟩

/-- As long as goroutine `i` is in the execution that dialled `c`, that execution
works through the snapshot `subs`. -/
structure Works (i : ℕ) (c : ConnId) (subs : List Subscription) (p : State) : Prop where
  dialled : c < p.shared.amqp.dialled
  kept : ∃ t, p.threads[i]? = some t ∧
    ∀ cb, t.callback? = some cb → cb.conn? = some c → cb.snapshot? = some subs

theorem Works.step {i : ℕ} {c : ConnId} {subs : List Subscription} {p p' : State} {a : Action}
    (hi : Works i c subs p) (h : Moves p a p') : Works i c subs p' := by
  obtain ⟨hc, u, hu, hkept⟩ := hi
  cases h with
  | @run j o l r new t t' s' hl hix ht hj =>
      refine ⟨hc.trans_le ht.ages.dialled, ?_⟩
      by_cases hij : i = j
      · subst hij
        obtain rfl := Option.some.inj (hu.symm.trans hix)
        refine ⟨t', hj ▸ getElem?_focus_self l r new t', fun cb' hcb' hconn' => ?_⟩
        cases hcb : u.callback? with
        | none =>
            obtain rfl := (ht.outside hcb 0).2.2 cb' hcb'
            cases hconn'
        | some cb =>
            obtain ⟨sp, hm, -⟩ := ht.callback_next hcb hcb'
            obtain ⟨hnew | hsame, hsnap⟩ := hm.keeps_snapshot
            · -- a fresh dial has another connection
              exact absurd (Option.some.inj (hconn'.symm.trans hnew)) hc.ne
            · exact hsnap subs (hkept cb hcb (hsame.symm.trans hconn'))
      · rw [hl] at hu
        exact ⟨u, getElem?_focus_of_ne hu (hj ▸ hij) t' new, hkept⟩
  | drop hd ho => exact ⟨hc, u, hu, hkept⟩
  | call k =>
      obtain ⟨hlt, -⟩ := List.getElem?_eq_some_iff.1 hu
      exact ⟨hc, u, (List.getElem?_append_left hlt).trans hu, hkept⟩
  | cancel id => exact ⟨hc, u, hu, hkept⟩

/-- The step in which an execution takes its snapshot. -/
theorem RestartInv.works {p p₁ : State} {i : ℕ} {o : Choice} {t : Thread} {c : ConnId}
    (hi : RestartInv p) (ht : p.threads[i]? = some t) (hcb : t.callback? = some (.rebuild c []))
    (h : Moves p (.run i o) p₁) : Works i c p.shared.subscriptions p₁ := by
  cases h with
  | @run _ _ l r new t₀ t' s' hl hix htm hj =>
      obtain rfl := Option.some.inj (ht.symm.trans hix)
      have hc := (hi.callbacks t (hl ▸ mem_focus_self l r t) _ hcb).dialled c rfl
      refine ⟨hc.trans_le htm.ages.dialled, t', hj ▸ getElem?_focus_self l r new t', ?_⟩
      intro cb' hcb' _
      obtain ⟨sp, hm, -⟩ := htm.callback_next hcb hcb'
      cases hm
      rfl

/-- **A rebuild loses no subscription.**  With one execution of the callback at a
time, whatever startups, `Subscribe` calls, disconnects and rebuilds came before:

* an execution that comes to a subscription of its snapshot finds the consumer
  channel, so the branch that skips a subscription is never taken;
* when the execution on connection `c`, which took its snapshot in `p`, has come to
  its return in `q`, the stored connection is `c`, the loops it has started are one
  for each entry of `r.subscriptions` in `p`, in that order, and they run on `c`. -/
theorem rebuild_restarts_every_subscription (cfg : RabbitMQ) :
    (∀ p, Run step oneAtATime (fresh cfg) p → ∀ t ∈ p.threads, ∀ c started sub pending,
      t.callback? = some (.restart c started (sub :: pending)) →
        p.shared.isConsumerReady sub.consumerName = true) ∧
      ∀ p p₁ q i o t u c started, Run step oneAtATime (fresh cfg) p → p.threads[i]? = some t →
        t.callback? = some (.rebuild c []) → step p (.run i o) = some p₁ →
        Run step oneAtATime p₁ q → q.threads[i]? = some u →
        u.callback? = some (.restart c started []) →
          q.shared.connection = some c ∧
            q.threads.filterMap (Thread.restarted c) = p.shared.subscriptions ∧
            ∀ l pc, .loop l pc ∈ q.threads → l.rebuild = some c → l.channel.conn = c := by
  refine ⟨fun p hr t ht c started sub pending hcb => ?_, ?_⟩
  · have hi := restartInv_run hr
    have hsubs := hi.named.subs.held t ht
    rw [Thread.subs_of_callback hcb] at hsubs
    exact (hi.callbacks t ht _ hcb).ready rfl (hsubs sub (List.mem_cons_self ..))
  · intro p p₁ q i o t u c started hp ht hcb hs hq hu hcbq
    -- the step from `p` takes the snapshot
    have hi := restartInv_run hp
    have hs := (moves_of_step hs).2
    have hg : oneAtATime p (.run i o) = true := by
      rw [oneAtATime, ht, Option.all_some, Thread.begins_of_callback hcb]
      rfl
    obtain ⟨hiq, hworksq⟩ : RestartInv q ∧ Works i c p.shared.subscriptions q := by
      refine hq.invariant (I := fun q => RestartInv q ∧ Works i c p.shared.subscriptions q)
        ⟨hi.step hg hs, hi.works ht hcb hs⟩ fun _ _ _ hboth hg h => ?_
      exact ⟨hboth.1.step hg (moves_of_step h).2, hboth.2.step (moves_of_step h).2⟩
    obtain ⟨u', hu', hkept⟩ := hworksq.kept
    obtain rfl := Option.some.inj (hu.symm.trans hu')
    have hr := hiq.callbacks u (List.mem_of_getElem? hu) _ hcbq
    have hsnap := Option.some.inj (hkept _ hcbq rfl)
    refine ⟨hr.track.1, ?_, fun l pc hl hrb => (hiq.loops l pc hl c hrb).2⟩
    rw [hr.loops c rfl, ← hsnap]
    exact (List.append_nil _).symm

/-- A reconnect of a client with one subscription. -/
theorem rebuild_restarts_every_subscription_of_one :
    ∃ p p₁ q : State, Run step oneAtATime (fresh defaultRabbitMQConfig) p ∧
      step p (.run 2 .ok) = some p₁ ∧ Run step oneAtATime p₁ q ∧
      p.shared.subscriptions = [⟨3, "default-consumer", "lynx.queue", 0⟩] ∧
      q.shared.connection = some 1 ∧
      q.threads.filterMap (Thread.restarted 1) = p.shared.subscriptions := by
  obtain ⟨p, hp, h⟩ := exists_run_of_replay step oneAtATime (fresh defaultRabbitMQConfig)
    (fun p => p.threads[2]? == some (.watcher (.callback 500 (.rebuild 1 []))) &&
      p.shared.subscriptions == [⟨3, "default-consumer", "lynx.queue", 0⟩] &&
      (step p (.run 2 .ok)).any fun p₁ => (replay step oneAtATime p₁ (solo 2 6)).any fun q =>
        q.threads[2]? == some (.watcher (.callback 500 (.restart 1
          [⟨3, "default-consumer", "lynx.queue", 0⟩] []))))
    (boot ++ .call (.subscribeWith "default-consumer" "lynx.queue" 0) :: solo 3 7 ++
      .drop 0 :: solo 2 15)
    (by decide)
  simp only [Bool.and_eq_true, beq_iff_eq, Option.any_eq_true] at h
  obtain ⟨⟨ht, hsubs⟩, p₁, hs, hq⟩ := h
  obtain ⟨q, hrun, hu⟩ := exists_run_of_replay step oneAtATime p₁
    (fun q => q.threads[2]? == some (.watcher (.callback 500 (.restart 1
      [⟨3, "default-consumer", "lynx.queue", 0⟩] [])))) (solo 2 6)
    (by simpa only [Option.any_eq_true, beq_iff_eq] using hq)
  have hall := (rebuild_restarts_every_subscription defaultRabbitMQConfig).2 p p₁ q 2 .ok _ _ 1 _
    hp ht rfl hs hrun (beq_iff_eq.1 hu) rfl
  exact ⟨p, p₁, q, hp, hs, hrun, hsubs, hall.1, hall.2.1⟩

end LynxRabbit
