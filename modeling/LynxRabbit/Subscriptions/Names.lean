/-
# The names in the channel maps

Only a registration puts a name into one of the two maps, only for an entry of a
set-up, and a set-up is made from the enabled entries of the configuration.  So in
every run every name in a map is the name of an enabled entry, and so is the
consumer name of every subscription, which its `Subscribe` call found there:
whatever happens to the map later, the next complete rebuild registers that name
again.
-/

import LynxRabbit.Setup.Run
import LynxRabbit.Subscriptions.Calls

namespace LynxRabbit

open Runs

/-- The steps left of a set-up the goroutine is in. -/
def Callback.todo : Callback → List SetupStep
  | .rebuild _ todo => todo
  | _ => []

def StartupWithContext.todo : StartupWithContext → List SetupStep
  | .producers todo => todo
  | .consumers todo => todo
  | _ => []

def Thread.todo : Thread → List SetupStep
  | .watcher (.callback _ cb) => cb.todo
  | .force (.callback cb) => cb.todo
  | .startup pc => pc.todo
  | _ => []

/-! ### What is left of a set-up -/

/-- A property of set-up steps that holds of the entries of a configuration, and of what an
entry leaves behind once its channel is open. -/
structure Inherited (P : SetupStep → Prop) (cfg : RabbitMQ) : Prop where
  producers : ∀ i ∈ cfg.initializeProducers, P i
  consumers : ∀ i ∈ cfg.initializeConsumers, P i
  body : ∀ i, P i → ∀ ch, ∀ j ∈ i.body ch, P j

section
variable {P : SetupStep → Prop}

theorem SetupStep.exec_todo {s s' : Client} {o : Choice} {i : SetupStep}
    {rest todo : List SetupStep} (hP : Inherited P s.config) (h : i.exec s o = .next s' todo)
    (hi : ∀ j ∈ i :: rest, P j) : ∀ j ∈ todo ++ rest, P j := by
  obtain ⟨hself, hrest⟩ := List.forall_mem_cons.1 hi
  refine List.forall_mem_append.2 ⟨?_, hrest⟩
  rcases SetupStep.exec_next h with ⟨c, -, -, -, ⟨p, rfl, rfl⟩ | ⟨k, rfl, rfl⟩⟩ |
    ⟨r, ch, -, -, rfl⟩ | ⟨name, ch, -, -, rfl⟩ | ⟨name, ch, -, -, rfl⟩
  · exact hP.body _ hself _
  · exact hP.body _ hself _
  all_goals exact List.forall_mem_nil _

theorem Callback.Moves.todo {s s' : Client} {o : Choice} {cb : Callback}
    {q : Callback ⊕ ConnId} {new : List Spawn} (h : cb.Moves s o s' q new)
    (hP : Inherited P s.config) (hi : ∀ i ∈ cb.todo, P i) :
    ∀ i ∈ q.elim Callback.todo fun _ => [], P i := by
  cases h with
  | clearConsumers c => exact List.forall_mem_append.2 ⟨hP.producers, hP.consumers⟩
  | setup c hx => exact SetupStep.exec_todo hP hx hi
  | _ => exact List.forall_mem_nil _

theorem StartupWithContext.Moves.todo {s s' : Client} {o : Choice}
    {pc pc' : StartupWithContext} {new : List Spawn} (h : pc.Moves s o s' pc' new)
    (hP : Inherited P s.config) (hi : ∀ i ∈ pc.todo, P i) : ∀ i ∈ pc'.todo, P i := by
  cases h with
  | afterConnect => exact hP.producers
  | afterProducers => exact hP.consumers
  | producer hx => exact SetupStep.exec_todo hP hx hi
  | consumer hx => exact SetupStep.exec_todo hP hx hi
  | _ => exact List.forall_mem_nil _

/-- **A step leaves of a set-up what the configuration has put there.** -/
theorem Thread.Moves.todo {s s' : Client} {t t' : Thread} {o : Choice} {new : List Thread}
    (h : t.Moves s o s' t' new) (hP : Inherited P s.config) (hi : ∀ i ∈ t.todo, P i) :
    ∀ i ∈ t'.todo, P i := by
  cases h with
  | watcher h =>
      cases h with
      | callback ms hm => exact hm.todo hP hi
      | success ms hm => exact hm.todo hP hi
      | _ => exact List.forall_mem_nil _
  | force h =>
      cases h with
      | callback hm => exact hm.todo hP hi
      | success hm => exact hm.todo hP hi
      | _ => exact List.forall_mem_nil _
  | startup h => exact h.todo hP hi
  | _ => exact List.forall_mem_nil _

theorem Spawn.thread_todo (x : Spawn) : x.thread.todo = [] := by cases x <;> rfl

theorem Call.thread_todo (k : Call) (id : ℕ) : (k.thread id).todo = [] := by cases k <;> rfl

/-- So it is for every goroutine after a step of the system. -/
theorem Moves.todo {p p' : State} {a : Action} (h : LynxRabbit.Moves p a p')
    (hP : Inherited P p.shared.config) (hi : ∀ t ∈ p.threads, ∀ i ∈ t.todo, P i) :
    ∀ t ∈ p'.threads, ∀ i ∈ t.todo, P i := by
  cases h with
  | @run i o l r new t t' s' hl hix ht =>
      refine forall_focus (hl ▸ hi) (fun u _ hu => hu)
        (ht.todo hP (hi t (hl ▸ mem_focus_self l r t))) fun u hu => ?_
      obtain ⟨x, rfl⟩ := ht.spawned u hu
      rw [x.thread_todo]
      exact List.forall_mem_nil _
  | drop hc ho => exact hi
  | call k =>
      refine List.forall_mem_append.2 ⟨hi, List.forall_mem_singleton.2 ?_⟩
      rw [k.thread_todo]
      exact List.forall_mem_nil _
  | cancel id => exact hi

/-- **What is left of a set-up in any run** is what the configuration has put there. -/
theorem todo_of_run {cfg : RabbitMQ} (hP : Inherited P cfg) {g : State → Action → Bool} {p : State}
    (hr : Run step g (fresh cfg) p) : ∀ t ∈ p.threads, ∀ i ∈ t.todo, P i := by
  refine (hr.invariant (I := fun p => p.shared.config = cfg ∧ ∀ t ∈ p.threads, ∀ i ∈ t.todo, P i)
    ⟨rfl, List.forall_mem_nil _⟩ fun p a p' hi _ h => ?_).2
  have hm := (moves_of_step h).2
  exact ⟨hm.config.trans hi.1, hm.todo (hi.1 ▸ hP) hi.2⟩

end

/-! ### The names -/

/-- The steps are for enabled entries. -/
def Enabled (cfg : RabbitMQ) (todo : List SetupStep) : Prop :=
  ∀ i ∈ todo, ∀ e, i.entry? = some e → e ∈ cfg.entries

/-- Every name in the consumers map is the name of an enabled consumer. -/
def NamedMap (s : Client) : Prop :=
  ∀ name v, s.consumers.lookup name = some v → .consumer name ∈ s.config.entries

/-- Every name of the kind `K` in the maps is the name of an enabled entry. -/
def NamedOn (K : Entry → Prop) (s : Client) : Prop :=
  ∀ e v, K e → s.entry e = some v → e ∈ s.config.entries

theorem namedMap_iff {s : Client} : NamedMap s ↔ NamedOn (fun e => ∃ n, e = .consumer n) s := by
  constructor
  · rintro h e v ⟨n, rfl⟩ hv
    exact h n v hv
  · intro h n v hv
    exact h _ v ⟨n, rfl⟩ hv

section
variable {K : Entry → Prop}

/-- A step that at most clears the maps. -/
theorem NamedOn.shrink {s s' : Client} (h : NamedOn K s) (hcfg : s'.config = s.config)
    (hp : s'.producers = s.producers ∨ s'.producers = ∅)
    (hc : s'.consumers = s.consumers ∨ s'.consumers = ∅) : NamedOn K s' := by
  intro e v hk hv
  rw [hcfg]
  cases e with
  | producer n =>
      rcases hp with hp | hp <;> rw [Client.entry, hp] at hv
      · exact h (.producer n) v hk hv
      · cases hv
  | consumer n =>
      rcases hc with hc | hc <;> rw [Client.entry, hc] at hv
      · exact h (.consumer n) v hk hv
      · cases hv

/-- A registration of an enabled entry. -/
theorem NamedOn.register {s s' : Client} {e : Entry} (h : NamedOn K s) (ch : Channel)
    (hcfg : s'.config = s.config) (hmem : e ∈ s.config.entries)
    (hentry : ∀ e', s'.entry e' = if e' = e then some (some ch) else s.entry e') :
    NamedOn K s' := by
  intro e' v hk hv
  rw [hentry] at hv
  rw [hcfg]
  split_ifs at hv with he
  · exact he ▸ hmem
  · exact h e' v hk hv

/-- What a set-up step leaves behind is for its own entry. -/
theorem Producer.entry_of_mem_onChannel {p : Producer} {ch : Channel} {i : SetupStep}
    (hi : i ∈ p.onChannel ch) {e : Entry} (he : i.entry? = some e) : e = .producer p.name := by
  rcases Producer.mem_onChannel hi with ⟨r, rfl⟩ | rfl
  · cases he
  · exact (Option.some.inj he).symm

theorem Consumer.entry_of_mem_onChannel {k : Consumer} {ch : Channel} {i : SetupStep}
    (hi : i ∈ k.onChannel ch) {e : Entry} (he : i.entry? = some e) : e = .consumer k.name := by
  rcases Consumer.mem_onChannel hi with ⟨r, rfl⟩ | rfl
  · cases he
  · exact (Option.some.inj he).symm

/-- Set-ups are made from enabled entries. -/
theorem inherited_enabled (cfg : RabbitMQ) :
    Inherited (fun i => ∀ e, i.entry? = some e → e ∈ cfg.entries) cfg where
  producers := by
    intro i hi e he
    obtain ⟨p, hp, rfl⟩ := List.mem_map.1 hi
    obtain rfl := Option.some.inj he
    exact List.mem_append_left _ (List.mem_map_of_mem hp)
  consumers := by
    intro i hi e he
    obtain ⟨k, hk, rfl⟩ := List.mem_map.1 hi
    obtain rfl := Option.some.inj he
    exact List.mem_append_right _ (List.mem_map_of_mem hk)
  body := by
    intro i hi ch j hj e he
    cases i with
    | createProducer p =>
        rw [Producer.entry_of_mem_onChannel hj he]
        exact hi _ rfl
    | createConsumer k =>
        rw [Consumer.entry_of_mem_onChannel hj he]
        exact hi _ rfl
    | _ => cases hj

/-- **A set-up step** registers enabled entries only. -/
theorem SetupStep.exec_named {s s' : Client} {o : Choice} {i : SetupStep}
    {rest todo : List SetupStep} (h : i.exec s o = .next s' todo) (hn : NamedOn K s)
    (he : Enabled s.config (i :: rest)) : NamedOn K s' := by
  have hself := he i (List.mem_cons_self ..)
  rcases SetupStep.exec_next h with ⟨c, -, -, rfl, -⟩ | ⟨r, ch, rfl, rfl, -⟩ |
    ⟨name, ch, rfl, rfl, -⟩ | ⟨name, ch, rfl, rfl, -⟩
  · exact hn
  · exact hn
  · refine hn.register ch rfl (hself _ rfl) fun e => ?_
    cases e <;> simp [Client.entry, lookup_insert_ite]
  · refine hn.register ch rfl (hself _ rfl) fun e => ?_
    cases e <;> simp [Client.entry, lookup_insert_ite]

theorem Callback.Moves.named {s s' : Client} {o : Choice} {cb : Callback}
    {q : Callback ⊕ ConnId} {new : List Spawn} (h : cb.Moves s o s' q new) (hn : NamedOn K s)
    (he : Enabled s.config cb.todo) : NamedOn K s' := by
  cases h with
  | clearProducers c => exact hn.shrink rfl (.inr rfl) (.inl rfl)
  | clearConsumers c => exact hn.shrink rfl (.inl rfl) (.inr rfl)
  | setup c hi => exact SetupStep.exec_named hi hn he
  | dispatch c started pending hd =>
      obtain ⟨⟨n, rfl⟩, -⟩ := DispatchStep.exec_inl hd
      exact hn
  | start c started pending hd =>
      obtain ⟨rfl, -⟩ := DispatchStep.exec_inr hd
      exact hn
  | _ => exact hn

theorem StartupWithContext.Moves.named {s s' : Client} {o : Choice}
    {pc pc' : StartupWithContext} {new : List Spawn} (h : pc.Moves s o s' pc' new)
    (hn : NamedOn K s) (he : Enabled s.config pc.todo) : NamedOn K s' := by
  cases h with
  | producer hi => exact SetupStep.exec_named hi hn he
  | consumer hi => exact SetupStep.exec_named hi hn he
  | _ => exact hn

/-- **No step puts another name into a map.** -/
theorem Thread.Moves.named {s s' : Client} {t t' : Thread} {o : Choice} {new : List Thread}
    (h : t.Moves s o s' t' new) (hn : NamedOn K s) (he : Enabled s.config t.todo) :
    NamedOn K s' := by
  cases h with
  | watcher h =>
      cases h with
      | callback ms hm => exact hm.named hn he
      | success ms hm => exact hm.named hn he
      | _ => exact hn
  | force h =>
      cases h with
      | callback hm => exact hm.named hn he
      | success hm => exact hm.named hn he
      | _ => exact hn
  | startup h => exact h.named hn he
  | cleanup h =>
      cases h with
      | closeConsumers => exact hn.shrink rfl (.inl rfl) (.inr rfl)
      | closeProducers => exact hn.shrink rfl (.inr rfl) (.inl rfl)
      | _ => exact hn
  | subscribe id h =>
      have hs := h.sameCore.1
      exact hn.shrink hs.config (.inl hs.producers) (.inl hs.consumers)
  | loop l h =>
      have hs := h.sameCore
      exact hn.shrink hs.config (.inl hs.producers) (.inl hs.consumers)
  | health h =>
      have hs := HealthRun.step_sameCore h
      exact hn.shrink hs.config (.inl hs.producers) (.inl hs.consumers)

/-- The maps and the set-ups name enabled entries only. -/
def OnlyEnabled (K : Entry → Prop) (p : State) : Prop :=
  NamedOn K p.shared ∧ ∀ t ∈ p.threads, Enabled p.shared.config t.todo

theorem onlyEnabled_fresh (K : Entry → Prop) (cfg : RabbitMQ) : OnlyEnabled K (fresh cfg) := by
  refine ⟨fun e v _ hv => ?_, fun t ht => (by cases ht)⟩
  cases e <;> cases hv

theorem OnlyEnabled.step {p p' : State} {a : Action} (hi : OnlyEnabled K p) (h : Moves p a p') :
    OnlyEnabled K p' := by
  obtain ⟨hmap, htodo⟩ := hi
  refine ⟨?_, ?_⟩
  · cases h with
    | run hl hix ht => exact ht.named hmap (htodo _ (hl ▸ mem_focus_self _ _ _))
    | _ => exact hmap
  · rw [h.config]
    exact h.todo (inherited_enabled _) htodo

end

/-- The map, the set-ups and the subscriptions name enabled consumers only. -/
structure Named (p : State) : Prop where
  map : NamedMap p.shared
  todo : ∀ t ∈ p.threads, Enabled p.shared.config t.todo
  subs : Within (fun sub => .consumer sub.consumerName ∈ p.shared.config.entries) p

theorem named_fresh (cfg : RabbitMQ) : Named (fresh cfg) := by
  obtain ⟨hmap, htodo⟩ := onlyEnabled_fresh (fun e => ∃ n, e = .consumer n) cfg
  exact ⟨namedMap_iff.2 hmap, htodo, within_fresh _ cfg⟩

/-- **Every name is the name of an enabled consumer**, in every run. -/
theorem Named.step {p p' : State} {a : Action} (hi : Named p) (h : Moves p a p') : Named p' := by
  have hfinds : ∀ t ∈ p.threads, ∀ sub, Finds p.shared t sub →
      .consumer sub.consumerName ∈ p.shared.config.entries := by
    rintro t ht sub ⟨pc, -, -, hready⟩
    obtain ⟨ch, hch⟩ := Client.isConsumerReady_iff.1 hready
    exact hi.map _ _ hch
  have hsubs := hi.subs.step h hfinds
  rw [← h.config] at hsubs
  obtain ⟨hmap, htodo⟩ := OnlyEnabled.step ⟨namedMap_iff.1 hi.map, hi.todo⟩ h
  exact ⟨namedMap_iff.2 hmap, htodo, hsubs⟩

end LynxRabbit
