/-
# Which subscriptions a goroutine works for

A subscription is created where a `Subscribe` call finds its consumer, is recorded
in `r.subscriptions`, and from there goes to the rebuilds that take a snapshot and
to the dispatch loops.  `Within P` says that every subscription anywhere in the
system has `P`; it is kept by every step as soon as the calls that find their
consumer create nothing else.

The number of a call is the number of goroutines at the time of the call, so that
every subscription belongs to a call that was made (`Allocated`).
-/

import LynxRabbit.Client.Frames

namespace LynxRabbit

open Runs

/-- `IsConsumerReady`. -/
def Client.isConsumerReady (s : Client) (name : String) : Bool :=
  match s.consumers.lookup name with
  | some (some _) => true
  | _ => false

theorem Client.isConsumerReady_iff {s : Client} {name : String} :
    s.isConsumerReady name = true ↔ ∃ ch, s.consumers.lookup name = some (some ch) := by
  unfold Client.isConsumerReady
  split
  · exact iff_of_true rfl ⟨_, ‹_›⟩
  · rename_i h
    exact iff_of_false Bool.false_ne_true fun ⟨ch, hch⟩ => h ch hch

/-- The call has not found its consumer yet. -/
def SubscribeCall.looking : SubscribeCall → Bool
  | .lookup _ _ => true
  | .lookupWith _ _ _ => true
  | _ => false

def SubscribeCall.subs : SubscribeCall → List Subscription
  | .record sub => [sub]
  | .dispatch sub _ => [sub]
  | _ => []

def Callback.subs : Callback → List Subscription
  | .restart _ _ pending => pending
  | .dispatch _ _ sub pending _ => sub :: pending
  | _ => []

/-- The subscriptions a goroutine works for. -/
def Thread.subs : Thread → List Subscription
  | .watcher (.callback _ cb) => cb.subs
  | .force (.callback cb) => cb.subs
  | .subscribe _ pc => pc.subs
  | .loop l _ => [l.sub]
  | _ => []

theorem Thread.subs_of_callback {t : Thread} {cb : Callback} (h : t.callback? = some cb) :
    t.subs = cb.subs := by
  rcases Thread.eq_of_callback h with ⟨ms, rfl⟩ | rfl <;> rfl

theorem DispatchStep.subs_of_exec {s s' : Client} {o : Choice} {ctx : Option ℕ}
    {rb : Option ConnId} {sub : Subscription} {d : DispatchStep} {l : Loop}
    (h : d.exec s o ctx rb sub = .next s' (.inr l)) :
    ∀ u ∈ [Spawn.loop l].map Spawn.thread, u.subs = [sub] := by
  obtain ⟨-, -, rfl, -⟩ := DispatchStep.exec_inr h
  exact List.forall_mem_singleton.2 rfl

/-- **The callback** takes its subscriptions from the recorded ones. -/
theorem Callback.Moves.subs {s s' : Client} {o : Choice} {cb : Callback}
    {q : Callback ⊕ ConnId} {new : List Spawn} (h : cb.Moves s o s' q new) (sub : Subscription) :
    (sub ∈ q.elim Callback.subs (fun _ => []) → sub ∈ cb.subs ∨ sub ∈ s.subscriptions) ∧
      ∀ u ∈ new.map Spawn.thread, sub ∈ u.subs → sub ∈ cb.subs := by
  cases h with
  | snapshot c => exact ⟨.inr, fun u hu => (by cases hu)⟩
  | found c started hl => exact ⟨.inl, fun u hu => (by cases hu)⟩
  | skip c started hl =>
      exact ⟨fun h => .inl (List.mem_cons_of_mem _ h), fun u hu => (by cases hu)⟩
  | dispatch c started pending hd => exact ⟨.inl, fun u hu => (by cases hu)⟩
  | start c started pending hd =>
      refine ⟨fun h => .inl (List.mem_cons_of_mem _ h), fun u hu hs => ?_⟩
      rw [DispatchStep.subs_of_exec hd u hu] at hs
      exact List.mem_singleton.1 hs ▸ List.mem_cons_self ..
  | _ => exact ⟨fun h => (by cases h), fun u hu => (by cases hu)⟩

/-- A startup starts nothing that works for a subscription. -/
theorem StartupWithContext.Moves.subs {s s' : Client} {o : Choice}
    {pc pc' : StartupWithContext} {new : List Spawn} (h : pc.Moves s o s' pc' new) :
    ∀ u ∈ new.map Spawn.thread, u.subs = [] := by
  cases h with
  | startHealth => exact List.forall_mem_singleton.2 rfl
  | startManager =>
      split
      · exact List.forall_mem_singleton.2 rfl
      · exact fun u hu => (by cases hu)
  | _ => exact fun u hu => (by cases hu)

/-- The subscription the call numbered `id` creates when it finds its consumer. -/
def Finds (s : Client) (t : Thread) (sub : Subscription) : Prop :=
  ∃ pc, t = .subscribe sub.id pc ∧ pc.looking = true ∧ s.isConsumerReady sub.consumerName = true

/-- **Where subscriptions come from**: from the goroutine itself, from the
recorded ones, or from a call that finds its consumer. -/
theorem Thread.Moves.subs {s s' : Client} {t t' : Thread} {o : Choice} {new : List Thread}
    (h : t.Moves s o s' t' new) {sub : Subscription} :
    (sub ∈ s'.subscriptions → sub ∈ s.subscriptions ∨ sub ∈ t.subs) ∧
      (sub ∈ t'.subs → sub ∈ t.subs ∨ sub ∈ s.subscriptions ∨ Finds s t sub) ∧
      ∀ u ∈ new, sub ∈ u.subs → sub ∈ t.subs := by
  have hcallback : ∀ {cb q sp}, Callback.Moves s o cb s' q sp →
      (sub ∈ s'.subscriptions → sub ∈ s.subscriptions ∨ sub ∈ cb.subs) ∧
        (sub ∈ q.elim Callback.subs (fun _ => []) →
          sub ∈ cb.subs ∨ sub ∈ s.subscriptions ∨ Finds s t sub) ∧
        ∀ u ∈ sp.map Spawn.thread, sub ∈ u.subs → sub ∈ cb.subs := by
    intro cb q sp hm
    obtain ⟨hq, hnew⟩ := hm.subs sub
    exact ⟨fun h => .inl (hm.frame.subscriptions ▸ h), fun h => (hq h).imp_right .inl, hnew⟩
  cases h with
  | watcher h =>
      cases h with
      | callback ms hm => exact hcallback hm
      | success ms hm => exact hcallback hm
      | handover n =>
          exact ⟨.inl, fun h => (by cases h), List.forall_mem_singleton.2 fun h => (by cases h)⟩
      | _ => exact ⟨.inl, fun h => (by cases h), fun u hu => (by cases hu)⟩
  | force h =>
      cases h with
      | callback hm => exact hcallback hm
      | success hm => exact hcallback hm
      | _ => exact ⟨.inl, fun h => (by cases h), fun u hu => (by cases hu)⟩
  | subscribe id h =>
      cases h with
      | lookup hl =>
          refine ⟨.inl, fun h => .inr (.inr ?_), fun u hu => (by cases hu)⟩
          obtain rfl := List.mem_singleton.1 h
          exact ⟨_, rfl, rfl, Client.isConsumerReady_iff.2 ⟨_, hl⟩⟩
      | lookupWith hq hl =>
          refine ⟨.inl, fun h => .inr (.inr ?_), fun u hu => (by cases hu)⟩
          obtain rfl := List.mem_singleton.1 h
          exact ⟨_, rfl, rfl, Client.isConsumerReady_iff.2 ⟨_, hl⟩⟩
      | record sub => exact ⟨List.mem_append.1, .inl, fun u hu => (by cases hu)⟩
      | dispatch hd =>
          obtain ⟨⟨n, rfl⟩, -⟩ := DispatchStep.exec_inl hd
          exact ⟨.inl, .inl, fun u hu => (by cases hu)⟩
      | start hd =>
          obtain ⟨rfl, -⟩ := DispatchStep.exec_inr hd
          refine ⟨.inl, fun h => (by cases h), fun u hu h => ?_⟩
          rwa [DispatchStep.subs_of_exec hd u hu] at h
      | _ => exact ⟨.inl, fun h => (by cases h), fun u hu => (by cases hu)⟩
  | loop l h => cases h <;> exact ⟨.inl, .inl, fun u hu => (by cases hu)⟩
  | cleanup h => cases h <;> exact ⟨.inl, fun h => (by cases h), fun u hu => (by cases hu)⟩
  | startup h =>
      refine ⟨fun hm => .inl (h.frame.subscriptions ▸ hm), fun hm => (by cases hm),
        fun u hu hm => ?_⟩
      rw [h.subs u hu] at hm
      cases hm
  | health h =>
      obtain ⟨n, f, r, -, rfl⟩ := HealthRun.step_frame h
      exact ⟨.inl, fun h => (by cases h), fun u hu => (by cases hu)⟩

/-! ### A property of all subscriptions -/

/-- Every subscription that is recorded or worked for has `P`. -/
structure Within (P : Subscription → Prop) (p : State) : Prop where
  recorded : ∀ sub ∈ p.shared.subscriptions, P sub
  held : ∀ t ∈ p.threads, ∀ sub ∈ t.subs, P sub

theorem within_fresh (P : Subscription → Prop) (cfg : RabbitMQ) : Within P (fresh cfg) :=
  ⟨fun sub h => (by cases h), fun t h => (by cases h)⟩

theorem Call.thread_subs (k : Call) (id : ℕ) : (k.thread id).subs = [] := by cases k <;> rfl

/-- **A property of all subscriptions is kept** when the calls that find their
consumer create only subscriptions that have it. -/
theorem Within.step {P : Subscription → Prop} {p p' : State} {a : Action} (hi : Within P p)
    (h : Moves p a p') (hfinds : ∀ t ∈ p.threads, ∀ sub, Finds p.shared t sub → P sub) :
    Within P p' := by
  cases h with
  | @run i o l r new t t' s' hl hix ht =>
      have hmem : t ∈ p.threads := hl ▸ mem_focus_self l r t
      have hself := hi.held t hmem
      refine ⟨fun sub hs => ?_, forall_focus (hl ▸ hi.held) (fun u _ hu => hu) (fun sub hs => ?_)
        fun u hu sub hs => hself sub (ht.subs.2.2 u hu hs)⟩
      · exact (ht.subs.1 hs).elim (hi.recorded sub) (hself sub)
      · rcases ht.subs.2.1 hs with hs | hs | hf
        · exact hself sub hs
        · exact hi.recorded sub hs
        · exact hfinds t hmem sub hf
  | drop hc ho => exact ⟨hi.recorded, hi.held⟩
  | call k =>
      refine ⟨hi.recorded, List.forall_mem_append.2 ⟨hi.held, List.forall_mem_singleton.2 ?_⟩⟩
      rw [k.thread_subs]
      exact fun sub h => by cases h
  | cancel id => exact ⟨hi.recorded, hi.held⟩

theorem Within.mono {P Q : Subscription → Prop} {p : State} (hi : Within P p)
    (h : ∀ sub, P sub → Q sub) : Within Q p :=
  ⟨fun sub hs => h sub (hi.recorded sub hs), fun t ht sub hs => h sub (hi.held t ht sub hs)⟩

/-! ### The numbers of the calls -/

/-- The call numbered `id` has not found its consumer yet. -/
def Thread.looksFor (id : ℕ) : Thread → Bool
  | .subscribe j pc => j == id && pc.looking
  | _ => false

theorem Thread.Moves.looksFor {s s' : Client} {t t' : Thread} {o : Choice} {new : List Thread}
    (h : t.Moves s o s' t' new) (id : ℕ) :
    t'.looksFor id = false ∧ ∀ u ∈ new, u.looksFor id = false := by
  refine ⟨?_, fun u hu => ?_⟩
  · cases h with
    | subscribe j h => cases h <;> exact Bool.and_false _
    | _ => rfl
  · obtain ⟨x, rfl⟩ := h.spawned u hu
    cases x <;> rfl

/-- A call looks for its consumer under its own number. -/
theorem Call.looksFor_thread {k : Call} {n id : ℕ} (h : (k.thread n).looksFor id = true) :
    id = n := by
  cases k with
  | subscribe queue handler => exact (beq_iff_eq.1 (Bool.and_eq_true_iff.1 h).1).symm
  | subscribeWith name queue handler => exact (beq_iff_eq.1 (Bool.and_eq_true_iff.1 h).1).symm
  | _ => cases h

theorem Finds.looksFor {s : Client} {t : Thread} {sub : Subscription} (h : Finds s t sub) :
    t.looksFor sub.id = true := by
  obtain ⟨pc, rfl, hpc, -⟩ := h
  rw [Thread.looksFor, hpc, beq_self_eq_true]
  rfl

/-- Every subscription, and every call still looking for its consumer, has the
number of a call that was made. -/
structure Allocated (p : State) : Prop where
  subs : Within (fun sub => sub.id < p.threads.length) p
  calls : ∀ t ∈ p.threads, ∀ id, t.looksFor id = true → id < p.threads.length

theorem allocated_fresh (cfg : RabbitMQ) : Allocated (fresh cfg) :=
  ⟨within_fresh _ cfg, fun t ht => by cases ht⟩

theorem Moves.length_le {p p' : State} {a : Action} (h : Moves p a p') :
    p.threads.length ≤ p'.threads.length := by
  cases h with
  | @run i o l r new t t' s' hl hix ht =>
      rw [hl]
      simp only [List.length_append, List.length_cons]
      omega
  | call k =>
      rw [List.length_append]
      exact Nat.le_add_right ..
  | _ => exact le_rfl

/-- **Every subscription belongs to a call that was made.** -/
theorem Allocated.step {p p' : State} {a : Action} (hi : Allocated p) (h : Moves p a p') :
    Allocated p' := by
  have hle := h.length_le
  refine ⟨(hi.subs.step h fun t ht sub hf => hi.calls t ht _ hf.looksFor).mono
    fun sub hs => hs.trans_le hle, ?_⟩
  have hcalls : ∀ t ∈ p.threads, ∀ id, t.looksFor id = true → id < p'.threads.length :=
    fun t ht id hid => (hi.calls t ht id hid).trans_le hle
  cases h with
  | @run i o l r new t t' s' hl hix ht =>
      refine forall_focus (hl ▸ hcalls) (fun u _ hu => hu) (fun id hid => ?_) fun u hu id hid => ?_
      · rw [(ht.looksFor id).1] at hid
        cases hid
      · rw [(ht.looksFor id).2 u hu] at hid
        cases hid
  | call k =>
      refine List.forall_mem_append.2 ⟨hcalls, List.forall_mem_singleton.2 fun id hid => ?_⟩
      rw [Call.looksFor_thread hid, List.length_append]
      exact Nat.lt_succ_self _
  | drop hc ho => exact hcalls
  | cancel id => exact hcalls

end LynxRabbit
