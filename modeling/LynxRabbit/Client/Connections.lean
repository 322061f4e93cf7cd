/-
# The connections a step touches

Seen from the connections alone, a step of a goroutine is one of four: it leaves
them alone, dials a new one, stores the one it has dialled, or is the `Close` of
a cleanup.  A connection is in flight between its dial and its store; it belongs
to the goroutine that dialled it and to nobody else.
-/

import LynxRabbit.Client.Frames

namespace LynxRabbit

open Runs

/-- The connection an execution of the callback has dialled and not stored. -/
def Callback.storing : Callback → Option ConnId
  | .store c => some c
  | _ => none

/-- The connection a goroutine has dialled and not stored. -/
def Thread.storing : Thread → Option ConnId
  | .watcher (.callback _ cb) => cb.storing
  | .force (.callback cb) => cb.storing
  | .startup (.store c) => some c
  | _ => none

/-- `r.connection` is nil or closed. -/
def Client.dead (s : Client) : Bool := s.connection.all s.amqp.closed

/-- What a step does to the connections, unless it closes one; the indices are
the connection its goroutine has in flight before and after it. -/
inductive ConnStep (s s' : Client) : Option ConnId → Option ConnId → Prop
  | keep : s'.connection = s.connection → s'.amqp.dialled = s.amqp.dialled →
      s'.amqp.closed = s.amqp.closed → ConnStep s s' none none
  | dial : s'.connection = s.connection → s'.amqp.dialled = s.amqp.dialled + 1 →
      s'.amqp.closed = Function.update s.amqp.closed s.amqp.dialled false →
        ConnStep s s' none (some s.amqp.dialled)
  | store (c : ConnId) : s'.connection = some c → s'.amqp.dialled = s.amqp.dialled →
      s'.amqp.closed = s.amqp.closed → ConnStep s s' (some c) none

/-- The last step of a cleanup that finds an open connection `c`. -/
structure Closes (s s' : Client) (t : Thread) (c : ConnId) : Prop where
  mover : t = .cleanup .closeConnection
  stored : s.connection = some c
  after : s'.connection = none ∨ s'.connection = some c
  dialled : s'.amqp.dialled = s.amqp.dialled
  closed : s'.amqp.closed = Function.update s.amqp.closed c true

theorem ConnStep.connection {s s' : Client} {a b : Option ConnId} (h : ConnStep s s' a b) :
    s'.connection = s.connection ∨ ∃ c, a = some c ∧ s'.connection = some c := by
  cases h with
  | keep hc hd hcl => exact .inl hc
  | dial hc hd hcl => exact .inl hc
  | store c hc hd hcl => exact .inr ⟨c, rfl, hc⟩

theorem ConnStep.dialled_le {s s' : Client} {a b : Option ConnId} (h : ConnStep s s' a b) :
    s.amqp.dialled ≤ s'.amqp.dialled := by
  cases h with
  | keep hc hd hcl => exact hd.ge
  | dial hc hd hcl => exact hd ▸ Nat.le_succ _
  | store c hc hd hcl => exact hd.ge

/-- A connection was dialled before the step, or the goroutine has just dialled it. -/
theorem ConnStep.dialled_cases {s s' : Client} {a b : Option ConnId} (h : ConnStep s s' a b)
    {c : ConnId} (hlt : c < s'.amqp.dialled) : c < s.amqp.dialled ∨ b = some c := by
  cases h with
  | keep hc hd hcl => exact .inl (hd ▸ hlt)
  | dial hc hd hcl =>
      rw [hd] at hlt
      exact (Nat.lt_succ_iff_lt_or_eq.1 hlt).imp_right fun heq => congrArg some heq.symm
  | store c hc hd hcl => exact .inl (hd ▸ hlt)

theorem ConnStep.flying {s s' : Client} {a b : Option ConnId} (h : ConnStep s s' a b)
    {c : ConnId} (hb : b = some c) : c < s'.amqp.dialled := by
  cases h with
  | keep hc hd hcl => cases hb
  | dial hc hd hcl =>
      obtain rfl := Option.some.inj hb
      exact hd ▸ Nat.lt_succ_self _
  | store c hc hd hcl => cases hb

theorem ConnStep.connection_of_storing {s s' : Client} {a b : Option ConnId}
    (h : ConnStep s s' a b) {c : ConnId} (ha : a = some c) : s'.connection = some c := by
  cases h with
  | keep hc hd hcl => cases ha
  | dial hc hd hcl => cases ha
  | store c hc hd hcl => exact hc.trans ha

theorem SameCore.connStep {s s' : Client} (h : SameCore s s') : ConnStep s s' none none :=
  .keep h.connection h.dialled h.closed

theorem SetupStep.exec_connStep {s s' : Client} {o : Choice} {i : SetupStep}
    {todo : List SetupStep} (h : i.exec s o = .next s' todo) : ConnStep s s' none none := by
  obtain ⟨n, P, K, rfl⟩ := SetupStep.exec_frame h
  exact .keep rfl rfl rfl

theorem Callback.Moves.connStep {s s' : Client} {o : Choice} {cb : Callback}
    {q : Callback ⊕ ConnId} {new : List Spawn} (h : cb.Moves s o s' q new) :
    ConnStep s s' cb.storing (q.elim Callback.storing fun _ => none) := by
  cases h with
  | dial => exact .dial rfl rfl rfl
  | store c => exact .store c rfl rfl rfl
  | setup c hi => exact SetupStep.exec_connStep hi
  | dispatch c started pending hd =>
      obtain ⟨⟨n, rfl⟩, -⟩ := DispatchStep.exec_inl hd
      exact .keep rfl rfl rfl
  | start c started pending hd =>
      obtain ⟨rfl, -⟩ := DispatchStep.exec_inr hd
      exact .keep rfl rfl rfl
  | _ => exact .keep rfl rfl rfl

theorem Callback.storing_of_fallible {cb : Callback} (h : cb.fallible = true) :
    cb.storing = none := by
  cases cb with
  | store c => cases h
  | _ => rfl

theorem StartupWithContext.storing_of_fallible {pc : StartupWithContext}
    (h : pc.fallible = true) : (Thread.startup pc).storing = none := by
  cases pc with
  | store c => cases h
  | _ => rfl

/-- **A step, seen from the connections.** -/
theorem Thread.Moves.connStep {s s' : Client} {t t' : Thread} {o : Choice} {new : List Thread}
    (h : t.Moves s o s' t' new) :
    ConnStep s s' t.storing t'.storing ∨ ∃ c, Closes s s' t c := by
  have hkeep : s'.connection = s.connection → s'.amqp.dialled = s.amqp.dialled →
      s'.amqp.closed = s.amqp.closed → t.storing = none → t'.storing = none →
        ConnStep s s' t.storing t'.storing := by
    intro hc hd hcl ht ht'
    rw [ht, ht']
    exact .keep hc hd hcl
  cases h with
  | watcher h =>
      cases h with
      | callback ms hm => exact .inl hm.connStep
      | success ms hm => exact .inl hm.connStep
      | failure ms f hf => exact .inl (hkeep rfl rfl rfl (Callback.storing_of_fallible hf) rfl)
      | _ => exact .inl (hkeep rfl rfl rfl rfl rfl)
  | force h =>
      cases h with
      | callback hm => exact .inl hm.connStep
      | success hm => exact .inl hm.connStep
      | failure f hf => exact .inl (hkeep rfl rfl rfl (Callback.storing_of_fallible hf) rfl)
      | _ => exact .inl (hkeep rfl rfl rfl rfl rfl)
  | startup h =>
      cases h with
      | dial => exact .inl (.dial rfl rfl rfl)
      | store c => exact .inl (.store c rfl rfl rfl)
      | producer hi => exact .inl (SetupStep.exec_connStep hi)
      | consumer hi => exact .inl (SetupStep.exec_connStep hi)
      | abort f e hf =>
          exact .inl (hkeep rfl rfl rfl (StartupWithContext.storing_of_fallible hf) rfl)
      | _ => exact .inl (hkeep rfl rfl rfl rfl rfl)
  | cleanup h =>
      cases h with
      | closeFails e hc ho => exact .inr ⟨_, rfl, hc, .inr hc, rfl, rfl⟩
      | close hc ho he => exact .inr ⟨_, rfl, hc, .inl rfl, rfl, rfl⟩
      | _ => exact .inl (hkeep rfl rfl rfl rfl rfl)
  | subscribe id h => exact .inl h.sameCore.1.connStep
  | loop l h => exact .inl h.sameCore.connStep
  | health h => exact .inl (HealthRun.step_sameCore h).connStep

/-- The stored connection was stored before, or the goroutine had it in flight. -/
theorem Thread.Moves.connection_cases {s s' : Client} {t t' : Thread} {o : Choice}
    {new : List Thread} (h : t.Moves s o s' t' new) {c : ConnId} (hc : s'.connection = some c) :
    s.connection = some c ∨ t.storing = some c := by
  rcases h.connStep with hcs | ⟨c', hcl⟩
  · rcases hcs.connection with hcc | ⟨c', hst, hcc⟩
    · exact .inl (hcc.symm.trans hc)
    · exact .inr (hst.trans (hcc.symm.trans hc))
  · rcases hcl.after with hcc | hcc
    · rw [hcc] at hc
      cases hc
    · exact .inl (hcl.stored.trans (hcc.symm.trans hc))

/-- A goroutine with a connection in flight stores it in its next step. -/
theorem Thread.Moves.connection_of_storing {s s' : Client} {t t' : Thread} {o : Choice}
    {new : List Thread} (h : t.Moves s o s' t' new) {c : ConnId} (hst : t.storing = some c) :
    s'.connection = some c := by
  rcases h.connStep with hcs | ⟨c', hcl⟩
  · exact hcs.connection_of_storing hst
  · rw [hcl.mover] at hst
    cases hst

/-- A stored connection that is open after the step is still stored, unless the step
stores another one. -/
theorem Thread.Moves.connection_kept {s s' : Client} {t t' : Thread} {o : Choice}
    {new : List Thread} (h : t.Moves s o s' t' new) {c : ConnId} (hst : t.storing = none)
    (hc : s.connection = some c) (ho : s'.amqp.closed c = false) : s'.connection = some c := by
  rcases h.connStep with hcs | ⟨c', hcl⟩
  · rcases hcs.connection with hcc | ⟨c', hst', -⟩
    · exact hcc.trans hc
    · rw [hst] at hst'
      cases hst'
  · obtain rfl : c' = c := Option.some.inj (hcl.stored.symm.trans hc)
    rw [hcl.closed, Function.update_self] at ho
    cases ho

theorem Thread.Moves.dialled_cases {s s' : Client} {t t' : Thread} {o : Choice}
    {new : List Thread} (h : t.Moves s o s' t' new) {c : ConnId} (hlt : c < s'.amqp.dialled) :
    c < s.amqp.dialled ∨ t'.storing = some c := by
  rcases h.connStep with hcs | ⟨c', hcl⟩
  · exact hcs.dialled_cases hlt
  · exact .inl (hcl.dialled ▸ hlt)

theorem Thread.Moves.flying {s s' : Client} {t t' : Thread} {o : Choice} {new : List Thread}
    (h : t.Moves s o s' t' new) {c : ConnId} (hst : t'.storing = some c) :
    c < s'.amqp.dialled := by
  rcases h.connStep with hcs | ⟨c', hcl⟩
  · exact hcs.flying hst
  · have hk := h.kind.2.2
    rw [hcl.mover] at hk
    cases t' with
    | cleanup pc => cases hst
    | _ => cases hk

/-! ### Nothing is opened again -/

theorem ConnStep.closed_mono {s s' : Client} {a b : Option ConnId} (h : ConnStep s s' a b)
    {c : ConnId} (hc : c < s.amqp.dialled) (hcl : s.amqp.closed c = true) :
    s'.amqp.closed c = true := by
  cases h with
  | keep _ _ h => rwa [h]
  | dial _ _ h => rwa [h, Function.update_of_ne hc.ne]
  | store _ _ _ h => rwa [h]

theorem CallbackFrame.stillClosed {s s' : Client} (h : CallbackFrame s s') :
    s.amqp.StillClosed s'.amqp.chanClosed := by
  rw [h.chanClosed]
  exact .refl s.amqp

/-- A channel that is closed stays closed. -/
theorem Thread.Moves.stillClosed {s s' : Client} {t t' : Thread} {o : Choice}
    {new : List Thread} (h : t.Moves s o s' t' new) : s.amqp.StillClosed s'.amqp.chanClosed := by
  have hall : ∀ m : ChannelMap, s.amqp.StillClosed (s.amqp.closeAll m).chanClosed := by
    intro m i hi
    simp only [Broker.closeAll, hi, Bool.true_or]
  cases h with
  | watcher h =>
      cases h with
      | callback ms hm => exact hm.frame.stillClosed
      | success ms hm => exact hm.frame.stillClosed
      | failure ms f hf hcl => exact hcl
      | _ => exact .refl s.amqp
  | force h =>
      cases h with
      | callback hm => exact hm.frame.stillClosed
      | success hm => exact hm.frame.stillClosed
      | failure f hf hcl => exact hcl
      | _ => exact .refl s.amqp
  | startup h => exact h.frame.chanClosed
  | cleanup h =>
      cases h with
      | closeConsumers => exact hall s.consumers
      | closeProducers => exact hall s.producers
      | _ => exact .refl s.amqp
  | subscribe id h =>
      cases h with
      | dispatch hd =>
          obtain ⟨⟨n, rfl⟩, -⟩ := DispatchStep.exec_inl hd
          exact .refl s.amqp
      | start hd =>
          obtain ⟨rfl, -⟩ := DispatchStep.exec_inr hd
          exact .refl s.amqp
      | fail sub d f e hcl => exact hcl
      | _ => exact .refl s.amqp
  | loop l h =>
      cases h with
      | close => exact .closeChannel s.amqp l.channel
      | _ => exact .refl s.amqp
  | health h =>
      obtain ⟨n, f, r, hcl, rfl⟩ := HealthRun.step_frame h
      exact hcl

/-- **No step opens again what was closed.** -/
theorem Thread.Moves.ages {s s' : Client} {t t' : Thread} {o : Choice} {new : List Thread}
    (h : t.Moves s o s' t' new) : s.amqp.Ages s'.amqp := by
  rcases h.connStep with hcs | ⟨c, hcl⟩
  · exact ⟨hcs.dialled_le, fun c hc => hcs.closed_mono hc, h.stillClosed⟩
  · refine ⟨hcl.dialled.ge, fun c' hc' ho => ?_, h.stillClosed⟩
    rw [hcl.closed, Function.update_apply]
    split_ifs
    · rfl
    · exact ho

/-- Nobody but a cleanup forgets the stored connection. -/
theorem Thread.Moves.connection_ne_none {s s' : Client} {t t' : Thread} {o : Choice}
    {new : List Thread} (h : t.Moves s o s' t' new) (hk : t.isCleanup = false)
    (hs : s.connection ≠ none) : s'.connection ≠ none := by
  rcases h.connStep with hcs | ⟨c, hcl⟩
  · rcases hcs.connection with hc | ⟨c, -, hc⟩
    · rwa [hc]
    · rw [hc]
      exact fun h => by cases h
  · rw [hcl.mover] at hk
    cases hk

theorem Spawn.thread_storing (x : Spawn) : x.thread.storing = none := by cases x <;> rfl

theorem Call.thread_storing (k : Call) (id : ℕ) : (k.thread id).storing = none := by
  cases k <;> rfl

/-! ### Every connection was dialled -/

/-- The connection on which the callback restarts a subscription, once read. -/
def Callback.serving : Callback → Option ConnId
  | .dispatch _ _ _ _ d => d.conn?
  | _ => none

/-- The connection a `startDispatchLoop` has read, or a loop runs on. -/
def Thread.serving : Thread → Option ConnId
  | .watcher (.callback _ cb) => cb.serving
  | .force (.callback cb) => cb.serving
  | .subscribe _ (.dispatch _ d) => d.conn?
  | .loop l _ => some l.channel.conn
  | _ => none

/-- A `startDispatchLoop` reads the stored connection and keeps to it. -/
theorem DispatchStep.conn?_of_exec {s s' : Client} {o : Choice} {ctx : Option ℕ}
    {rb : Option ConnId} {sub : Subscription} {d d' : DispatchStep}
    (h : d.exec s o ctx rb sub = .next s' (.inl d')) {c : ConnId} (hc : d'.conn? = some c) :
    d.conn? = some c ∨ s.connection = some c := by
  rcases (DispatchStep.exec_inl h).2 with ⟨-, c', hs, -, hd'⟩ | ⟨c', hd, hd'⟩
  · exact .inr (hs.trans (hd'.symm.trans hc))
  · exact .inl (hd.trans (hd'.symm.trans hc))

/-- The loop it starts runs on that connection. -/
theorem DispatchStep.serving_of_exec {s s' : Client} {o : Choice} {ctx : Option ℕ}
    {rb : Option ConnId} {sub : Subscription} {d : DispatchStep} {l : Loop}
    (h : d.exec s o ctx rb sub = .next s' (.inr l)) :
    ∀ u ∈ [Spawn.loop l].map Spawn.thread, u.serving = d.conn? := by
  obtain ⟨-, rfl, -⟩ := DispatchStep.exec_inr h
  exact List.forall_mem_singleton.2 rfl

theorem Callback.Moves.serving {s s' : Client} {o : Choice} {cb : Callback}
    {q : Callback ⊕ ConnId} {new : List Spawn} (h : cb.Moves s o s' q new) {c : ConnId} :
    (q.elim Callback.serving (fun _ => none) = some c →
        cb.serving = some c ∨ s.connection = some c) ∧
      ∀ u ∈ new.map Spawn.thread, u.serving = some c → cb.serving = some c := by
  cases h with
  | dispatch c' started pending hd =>
      exact ⟨DispatchStep.conn?_of_exec hd, fun u hu => (by cases hu)⟩
  | start c' started pending hd =>
      exact ⟨fun hc => (by cases hc), fun u hu => (DispatchStep.serving_of_exec hd u hu).symm.trans⟩
  | _ => exact ⟨fun hc => (by cases hc), fun u hu => (by cases hu)⟩

/-- **The connections in use** were in use before, or are the stored one. -/
theorem Thread.Moves.serving {s s' : Client} {t t' : Thread} {o : Choice} {new : List Thread}
    (h : t.Moves s o s' t' new) {c : ConnId} :
    (t'.serving = some c → t.serving = some c ∨ s.connection = some c) ∧
      ∀ u ∈ new, u.serving = some c → t.serving = some c := by
  cases h with
  | watcher h =>
      cases h with
      | callback ms hm => exact hm.serving
      | success ms hm => exact hm.serving
      | handover n =>
          exact ⟨fun hc => (by cases hc), List.forall_mem_singleton.2 fun hc => (by cases hc)⟩
      | _ => exact ⟨fun hc => (by cases hc), fun u hu => (by cases hu)⟩
  | force h =>
      cases h with
      | callback hm => exact hm.serving
      | success hm => exact hm.serving
      | _ => exact ⟨fun hc => (by cases hc), fun u hu => (by cases hu)⟩
  | subscribe id h =>
      cases h with
      | dispatch hd => exact ⟨DispatchStep.conn?_of_exec hd, fun u hu => (by cases hu)⟩
      | start hd =>
          exact ⟨fun hc => (by cases hc),
            fun u hu => (DispatchStep.serving_of_exec hd u hu).symm.trans⟩
      | _ => exact ⟨fun hc => (by cases hc), fun u hu => (by cases hu)⟩
  | loop l h => exact ⟨.inl, fun u hu => (by cases hu)⟩
  | startup h =>
      refine ⟨fun hc => (by cases hc), fun u hu hc => ?_⟩
      obtain ⟨x, hx, rfl⟩ := List.mem_map.1 hu
      cases x with
      | loop l =>
          cases h with
          | startManager => split at hx <;> simp at hx
          | startHealth => simp at hx
          | _ => cases hx
      | _ => cases hc
  | cleanup h => exact ⟨fun hc => (by cases hc), fun u hu => (by cases hu)⟩
  | health h => exact ⟨fun hc => (by cases hc), fun u hu => (by cases hu)⟩

/-- The stored connection, those in flight and those in use were returned by
`dial`. -/
structure Known (p : State) : Prop where
  stored : ∀ c, p.shared.connection = some c → c < p.shared.amqp.dialled
  flying : ∀ t ∈ p.threads, ∀ c, t.storing = some c → c < p.shared.amqp.dialled
  used : ∀ t ∈ p.threads, ∀ c, t.serving = some c → c < p.shared.amqp.dialled

theorem known_fresh (cfg : RabbitMQ) : Known (fresh cfg) :=
  ⟨fun c hc => (by cases hc), fun t ht => (by cases ht), fun t ht => (by cases ht)⟩

theorem Known.step {p p' : State} {a : Action} (hi : Known p) (h : Moves p a p') : Known p' := by
  obtain ⟨hstored, hflying, hused⟩ := hi
  cases h with
  | @run i o l r new t t' s' hl hix ht =>
      have hmem : t ∈ p.threads := hl ▸ mem_focus_self l r t
      have hle := ht.ages.dialled
      have hserving : ∀ {c}, t.serving = some c → c < s'.amqp.dialled := fun hc =>
        (hused t hmem _ hc).trans_le hle
      refine ⟨fun c hc => ?_, ?_, ?_⟩
      · rcases ht.connection_cases hc with hc | hst
        · exact (hstored c hc).trans_le hle
        · exact (hflying t hmem c hst).trans_le hle
      · refine forall_focus (hl ▸ hflying) (fun u _ hu c hc => (hu c hc).trans_le hle)
          (fun c hc => ht.flying hc) fun u hu c hc => ?_
        obtain ⟨x, rfl⟩ := ht.spawned u hu
        rw [x.thread_storing] at hc
        cases hc
      · refine forall_focus (hl ▸ hused) (fun u _ hu c hc => (hu c hc).trans_le hle)
          (fun c hc => ?_) fun u hu c hc => hserving (ht.serving.2 u hu hc)
        rcases ht.serving.1 hc with hc | hc
        · exact hserving hc
        · exact (hstored c hc).trans_le hle
  | drop hc ho => exact ⟨hstored, hflying, hused⟩
  | call k =>
      refine ⟨hstored, List.forall_mem_append.2 ⟨hflying, List.forall_mem_singleton.2 ?_⟩,
        List.forall_mem_append.2 ⟨hused, List.forall_mem_singleton.2 ?_⟩⟩
      · intro c hc
        rw [k.thread_storing] at hc
        cases hc
      · intro c hc
        cases k <;> cases hc
  | cancel id => exact ⟨hstored, hflying, hused⟩

/-- A dead connection stays dead unless another one is stored. -/
theorem ConnStep.dead {s s' : Client} {a b : Option ConnId} (h : ConnStep s s' a b)
    (ha : a = none) (hk : ∀ c, s.connection = some c → c < s.amqp.dialled)
    (hd : s.dead = true) : s'.dead = true := by
  cases h with
  | keep hc hd' hcl => rwa [Client.dead, hc, hcl]
  | dial hc hd' hcl =>
      rw [Client.dead, hc, hcl]
      cases hs : s.connection with
      | none => rfl
      | some c =>
          rw [Client.dead, hs] at hd
          rwa [Option.all_some, Function.update_of_ne (hk c hs).ne]
  | store c hc hd' hcl => cases ha

theorem Client.dead_drop {s : Client} (h : s.dead = true) (c : ConnId) :
    Client.dead { s with amqp := s.amqp.drop c } = true := by
  rw [Client.dead, Option.all_eq_true] at h ⊢
  exact fun c' hc' => Broker.closed_drop (h c' hc')

end LynxRabbit
