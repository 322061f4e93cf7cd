/-
# What the system declares over whole runs

Every set-up declares the exchanges of the enabled producers and the queues of the
enabled consumers (`createProducer` and `createConsumer`, `client.go`): the one of a
startup, and that of every reconnect, since nobody knows what the broker still has.
Set-ups run beside one another, stop anywhere, and are begun again.

`declarations` lists what a schedule of the whole system has declared, in order, and
`declarationsOf` what one goroutine of it has.  From the start of a set-up to its end its
goroutine declares the whole `plan` of the configuration itself (`Awaited`, kept along by
`Thread.Declares`), and nothing but entries of the plan that passed their checks is ever
declared by anybody (`Vetted`).  So whatever is declared later, by whichever set-up,
repeats a declaration that was made before (`setup_declares_plan`).
-/

import LynxRabbit.Runs.Trace
import LynxRabbit.Setup.Topology
import LynxRabbit.Subscriptions.Names

namespace LynxRabbit

open Amqp Runs

/-! ### What is declared in a schedule -/

/-- What a set-up step declares, when the broker accepts it. -/
def SetupStep.declared (s : Client) (o : Choice) (i : SetupStep) : Option Declaration :=
  match i.exec s o with
  | .next _ _ => i.declaration
  | _ => none

/-- What a goroutine declares in its next step. -/
def Thread.declared (s : Client) (o : Choice) (t : Thread) : Option Declaration :=
  t.todo.head?.bind (SetupStep.declared s o)

/-- What a step of the system declares. -/
def declared (p : State) : Action → Option Declaration
  | .run i o => p.threads[i]?.bind (Thread.declared p.shared o)
  | _ => none

/-- What a schedule declares. -/
def declarations : State → List Action → List Declaration := trace step declared

/-- What a step declares, if it is one of goroutine `i`. -/
def declaredBy (i : ℕ) (p : State) : Action → Option Declaration
  | .run j o => if j = i then declared p (.run j o) else none
  | _ => none

/-- What goroutine `i` declares in a schedule. -/
def declarationsOf (i : ℕ) : State → List Action → List Declaration := trace step (declaredBy i)

/-! ### The plan -/

/-- The exchange of a producer, when it names one. -/
def Producer.planned (p : Producer) : List Declaration :=
  if p.exchange ≠ "" then [p.declaration] else []

/-- The queue of a consumer, when it names one. -/
def Consumer.planned (c : Consumer) : List Declaration :=
  if c.queue ≠ "" then [c.declaration] else []

/-- Everything the enabled entries of a configuration declare. -/
def RabbitMQ.plan (cfg : RabbitMQ) : List Declaration :=
  cfg.getEnabledProducers.flatMap Producer.planned ++
    cfg.getEnabledConsumers.flatMap Consumer.planned

/-- What a set-up step that is still to be taken will declare, itself or in what it leaves
behind. -/
def SetupStep.planned : SetupStep → List Declaration
  | .createProducer p => p.planned
  | .createConsumer c => c.planned
  | i => i.declaration.toList

/-- Everything of the plan was declared, or is still to be by `todo`. -/
def Awaited (cfg : RabbitMQ) (ds : List Declaration) (todo : List SetupStep) : Prop :=
  ∀ d ∈ cfg.plan, d ∈ ds ∨ d ∈ todo.flatMap SetupStep.planned

section
variable {cfg : RabbitMQ} {ds : List Declaration} {todo rest : List SetupStep}

theorem awaited_initialize (cfg : RabbitMQ) (ds : List Declaration) :
    Awaited cfg ds (cfg.initializeProducers ++ cfg.initializeConsumers) := by
  intro d hd
  refine .inr ?_
  simpa only [RabbitMQ.plan, RabbitMQ.initializeProducers, RabbitMQ.initializeConsumers,
    List.flatMap_append, List.flatMap_map, SetupStep.planned] using hd

theorem Awaited.mono (h : Awaited cfg ds todo) (new : List Declaration) :
    Awaited cfg (ds ++ new) todo :=
  fun d hd => (h d hd).imp_left fun hm => List.mem_append_left _ hm

/-- What `createProducer` leaves behind declares what it was to declare. -/
theorem Producer.planned_onChannel (p : Producer) (ch : Channel) :
    (p.onChannel ch).flatMap SetupStep.planned = p.planned := by
  unfold Producer.onChannel Producer.planned
  split_ifs <;> rfl

theorem Consumer.planned_onChannel (c : Consumer) (ch : Channel) :
    (c.onChannel ch).flatMap SetupStep.planned = c.planned := by
  unfold Consumer.onChannel Consumer.planned
  split_ifs <;> rfl

/-- **One step of a set-up**: what it was to declare it has declared, or leaves to what
comes next. -/
theorem Awaited.exec {s s' : Client} {o : Choice} {i : SetupStep}
    (h : Awaited cfg ds (i :: rest)) (he : i.exec s o = .next s' todo) :
    Awaited cfg (ds ++ (i.declared s o).toList) (todo ++ rest) := by
  have hdecl : i.declared s o = i.declaration := by rw [SetupStep.declared, he]
  have hplanned : ∀ d ∈ i.planned, d ∈ i.declaration.toList ∨
      d ∈ todo.flatMap SetupStep.planned := by
    intro d hd
    rcases SetupStep.exec_next he with ⟨c, -, -, -, ⟨p, rfl, rfl⟩ | ⟨k, rfl, rfl⟩⟩ |
      ⟨r, ch, rfl, -, -⟩ | ⟨name, ch, rfl, -, -⟩ | ⟨name, ch, rfl, -, -⟩
    · exact .inr (by rwa [Producer.planned_onChannel])
    · exact .inr (by rwa [Consumer.planned_onChannel])
    all_goals exact .inl hd
  intro d hd
  rw [List.flatMap_append, hdecl]
  simp only [List.mem_append]
  rcases h d hd with hm | hm
  · exact .inl (.inl hm)
  · rw [List.flatMap_cons, List.mem_append] at hm
    rcases hm with hm | hm
    · rcases hplanned d hm with hm | hm
      · exact .inl (.inr hm)
      · exact .inr (.inl hm)
    · exact .inr (.inr hm)

end

/-! ### Goroutines in a set-up -/

/-- What the callback has declared since its start, with what it is still to declare, is
the plan. -/
def Callback.Declares (cfg : RabbitMQ) (ds : List Declaration) : Callback → Prop
  | .rebuild _ todo => Awaited cfg ds todo
  | .restart _ _ _ => Awaited cfg ds []
  | .dispatch _ _ _ _ _ => Awaited cfg ds []
  | _ => True

def StartupWithContext.Declares (cfg : RabbitMQ) (ds : List Declaration) :
    StartupWithContext → Prop
  | .producers todo => Awaited cfg ds (todo ++ cfg.initializeConsumers)
  | .afterProducers => Awaited cfg ds cfg.initializeConsumers
  | .consumers todo => Awaited cfg ds todo
  | .startHealth => Awaited cfg ds []
  | .startManager => Awaited cfg ds []
  | .registerShared => Awaited cfg ds []
  | .checkHealth _ => Awaited cfg ds []
  | .publishReady => Awaited cfg ds []
  | .returned none => Awaited cfg ds []
  | _ => True

def Thread.Declares (cfg : RabbitMQ) (ds : List Declaration) : Thread → Prop
  | .watcher (.callback _ cb) => cb.Declares cfg ds
  | .watcher (.established _) => Awaited cfg ds []
  | .watcher (.renotify _) => Awaited cfg ds []
  | .watcher (.handover _) => Awaited cfg ds []
  | .force (.callback cb) => cb.Declares cfg ds
  | .force .raise => Awaited cfg ds []
  | .startup pc => pc.Declares cfg ds
  | _ => True

/-- The goroutine is not in a set-up and has none behind it. -/
def Thread.undeclared : Thread → Bool
  | .watcher (.waiting _) => true
  | .watcher .disconnected => true
  | .watcher (.check _) => true
  | .watcher (.backoff _) => true
  | .watcher (.callback _ .dial) => true
  | .force .enter => true
  | .force .lower => true
  | .force (.callback .dial) => true
  | .startup .enter => true
  | .startup .publish => true
  | .startup .dial => true
  | _ => false

/-- The goroutine has come to the end of a set-up: a startup that got past it, a watcher
or a forced reconnect whose callback has succeeded. -/
def Thread.setUp : Thread → Bool
  | .startup .startHealth => true
  | .startup .startManager => true
  | .startup .registerShared => true
  | .startup (.checkHealth _) => true
  | .startup .publishReady => true
  | .startup (.returned none) => true
  | .watcher (.established _) => true
  | .watcher (.renotify _) => true
  | .watcher (.handover _) => true
  | .force .raise => true
  | _ => false

section
variable {cfg : RabbitMQ} {ds : List Declaration} {s s' : Client} {o : Choice}

theorem Callback.Declares.mono {cb : Callback} (h : cb.Declares cfg ds)
    (new : List Declaration) : cb.Declares cfg (ds ++ new) := by
  cases cb <;> first | exact Awaited.mono h new | trivial

theorem StartupWithContext.Declares.mono {pc : StartupWithContext} (h : pc.Declares cfg ds)
    (new : List Declaration) : pc.Declares cfg (ds ++ new) := by
  cases pc with
  | returned err => cases err <;> first | exact Awaited.mono h new | trivial
  | _ => first | exact Awaited.mono h new | trivial

theorem Thread.Declares.mono {t : Thread} (h : t.Declares cfg ds) (new : List Declaration) :
    t.Declares cfg (ds ++ new) := by
  cases t with
  | watcher pc =>
      cases pc with
      | callback ms cb => exact Callback.Declares.mono h new
      | _ => first | exact Awaited.mono h new | trivial
  | force pc =>
      cases pc with
      | callback cb => exact Callback.Declares.mono h new
      | _ => first | exact Awaited.mono h new | trivial
  | startup pc => exact StartupWithContext.Declares.mono h new
  | _ => trivial

theorem Thread.declares_of_undeclared {t : Thread} (h : t.undeclared = true) :
    t.Declares cfg ds := by
  unfold Thread.undeclared at h
  split at h <;> trivial

theorem Thread.Declares.plan {t : Thread} (h : t.Declares cfg ds) (hs : t.setUp = true) :
    ∀ d ∈ cfg.plan, d ∈ ds := by
  have hall : Awaited cfg ds [] := by
    unfold Thread.setUp at hs
    split at hs <;> first | exact h | cases hs
  intro d hd
  rcases hall d hd with hm | hm
  · exact hm
  · cases hm

/-- **A step of the callback** keeps count of the plan. -/
theorem Callback.Moves.declares {cb : Callback} {q : Callback ⊕ ConnId} {new : List Spawn}
    (h : cb.Moves s o s' q new) (hcfg : s.config = cfg) (hd : cb.Declares cfg ds) :
    q.elim (Callback.Declares cfg (ds ++ (cb.todo.head?.bind (SetupStep.declared s o)).toList))
      fun _ => Awaited cfg (ds ++ (cb.todo.head?.bind (SetupStep.declared s o)).toList) [] := by
  cases h with
  | clearConsumers c => exact hcfg ▸ awaited_initialize s.config _
  | setup c hi => exact Awaited.exec hd hi
  | snapshot c => exact Awaited.mono hd _
  | found c started hl => exact Awaited.mono hd _
  | skip c started hl => exact Awaited.mono hd _
  | dispatch c started pending hx => exact Awaited.mono hd _
  | start c started pending hx => exact Awaited.mono hd _
  | finish c started => exact Awaited.mono hd _
  | _ => trivial

theorem StartupWithContext.Moves.declares {pc pc' : StartupWithContext} {new : List Spawn}
    (h : pc.Moves s o s' pc' new) (hcfg : s.config = cfg) (halive : s'.panicked = false)
    (hd : pc.Declares cfg ds) :
    pc'.Declares cfg (ds ++ (pc.todo.head?.bind (SetupStep.declared s o)).toList) := by
  cases h with
  | afterConnect => exact hcfg ▸ awaited_initialize s.config _
  | afterProducers =>
      subst hcfg
      exact Awaited.mono hd _
  | producer hi =>
      show Awaited cfg _ _
      rw [List.append_assoc]
      exact Awaited.exec hd hi
  | consumer hi => exact Awaited.exec hd hi
  | panicProducer rest hi hc => cases halive
  | panicConsumer rest hi hc => cases halive
  | unhealthy parts e => trivial
  | unregistered e => trivial
  | _ => first | trivial | exact Awaited.mono hd _

/-- **A step of a goroutine** keeps count of the plan. -/
theorem Thread.Moves.declares {t t' : Thread} {new : List Thread} (h : t.Moves s o s' t' new)
    (hcfg : s.config = cfg) (halive : s'.panicked = false) (hd : t.Declares cfg ds) :
    t'.Declares cfg (ds ++ (t.declared s o).toList) := by
  cases h with
  | watcher h =>
      cases h with
      | callback ms hm => exact hm.declares hcfg hd
      | success ms hm => exact hm.declares hcfg hd
      | raise c => exact Awaited.mono hd _
      | renotify c => exact Awaited.mono hd _
      | _ => trivial
  | force h =>
      cases h with
      | callback hm => exact hm.declares hcfg hd
      | success hm => exact hm.declares hcfg hd
      | _ => trivial
  | startup h => exact h.declares hcfg halive hd
  | _ => trivial

end

/-! ### What reaches the broker -/

/-- **Where the steps left of a set-up come from**: they were left before, they are the
entries of the configuration, or a step that was taken has left them behind. -/
def TodoFrom (s : Client) (o : Choice) (old : List SetupStep) (i : SetupStep) : Prop :=
  i ∈ old ∨ i ∈ s.config.initializeProducers ++ s.config.initializeConsumers ∨
    ∃ j ∈ old, ∃ s' todo, j.exec s o = .next s' todo ∧ i ∈ todo

section
variable {s s' : Client} {o : Choice}

theorem TodoFrom.exec {i j : SetupStep} {rest todo : List SetupStep}
    (h : j.exec s o = .next s' todo) (hi : i ∈ todo ++ rest) : TodoFrom s o (j :: rest) i := by
  rcases List.mem_append.1 hi with hi | hi
  · exact .inr (.inr ⟨j, List.mem_cons_self, s', todo, h, hi⟩)
  · exact .inl (List.mem_cons_of_mem _ hi)

theorem Callback.Moves.todoFrom {cb : Callback} {q : Callback ⊕ ConnId} {new : List Spawn}
    (h : cb.Moves s o s' q new) :
    ∀ i ∈ q.elim Callback.todo fun _ => [], TodoFrom s o cb.todo i := by
  intro i hi
  cases h with
  | clearConsumers c => exact .inr (.inl hi)
  | setup c hx => exact .exec hx hi
  | _ => cases hi

theorem Thread.Moves.todoFrom {t t' : Thread} {new : List Thread} (h : t.Moves s o s' t' new) :
    ∀ i ∈ t'.todo, TodoFrom s o t.todo i := by
  intro i hi
  cases h with
  | watcher h =>
      cases h with
      | callback ms hm => exact hm.todoFrom i hi
      | success ms hm => cases hi
      | _ => cases hi
  | force h =>
      cases h with
      | callback hm => exact hm.todoFrom i hi
      | _ => cases hi
  | startup h =>
      cases h with
      | afterConnect => exact .inr (.inl (List.mem_append_left _ hi))
      | afterProducers => exact .inr (.inl (List.mem_append_right _ hi))
      | producer hx => exact .exec hx hi
      | consumer hx => exact .exec hx hi
      | _ => cases hi
  | _ => cases hi

end

/-- An enabled producer whose exchange `createProducer` accepts. -/
structure RabbitMQ.Declarable (cfg : RabbitMQ) (p : Producer) : Prop where
  enabled : p ∈ cfg.getEnabledProducers
  named : p.exchange ≠ ""
  exchange : validateExchange p.exchange = none
  exchangeType : validateExchangeType p.exchangeType = none

/-- An enabled consumer whose queue `createConsumer` accepts. -/
structure RabbitMQ.Consumable (cfg : RabbitMQ) (c : Consumer) : Prop where
  enabled : c ∈ cfg.getEnabledConsumers
  named : c.queue ≠ ""
  queue : validateQueue c.queue = none

/-- The declaration of an enabled entry that its check has accepted. -/
def Vetted (cfg : RabbitMQ) (d : Declaration) : Prop :=
  (∃ p, cfg.Declarable p ∧ d = p.declaration) ∨ ∃ c, cfg.Consumable c ∧ d = c.declaration

/-- A set-up step that will declare nothing else. -/
def SetupStep.Vetted (cfg : RabbitMQ) : SetupStep → Prop
  | .createProducer p => p ∈ cfg.getEnabledProducers
  | .createConsumer c => c ∈ cfg.getEnabledConsumers
  | .request (.exchangeDeclare p) _ => cfg.Declarable p
  | .request (.queueDeclare c) _ => cfg.Consumable c
  | _ => True

section
variable {cfg : RabbitMQ} {s s' : Client} {o : Choice}

theorem Producer.check_eq_none {p : Producer} (h : p.check = none) (hx : p.exchange ≠ "") :
    validateExchange p.exchange = none ∧ validateExchangeType p.exchangeType = none := by
  rw [Producer.check, if_pos hx, Option.map_eq_none_iff] at h
  exact Option.or_eq_none_iff.1 h

theorem Consumer.check_eq_none {c : Consumer} (h : c.check = none) (hq : c.queue ≠ "") :
    validateQueue c.queue = none := by
  rw [Consumer.check, if_pos hq, Option.map_eq_none_iff] at h
  exact (Option.or_eq_none_iff.1 h).1

theorem Client.openChannel_check {check : Option GoError} {failure : GoError → GoError}
    {body : Channel → List SetupStep} {todo : List SetupStep}
    (h : s.openChannel o check failure body = .next s' todo) : check = none := by
  unfold Client.openChannel at h
  split at h
  · cases h
  · rfl

/-- **A step that goes on leaves vetted steps behind**: its own check has passed. -/
theorem SetupStep.Vetted.exec {i : SetupStep} {todo : List SetupStep} (h : i.Vetted cfg)
    (he : i.exec s o = .next s' todo) : ∀ j ∈ todo, j.Vetted cfg := by
  intro j hj
  rcases SetupStep.exec_next he with ⟨c, -, -, -, ⟨p, rfl, rfl⟩ | ⟨k, rfl, rfl⟩⟩ |
    ⟨r, ch, -, -, rfl⟩ | ⟨name, ch, -, -, rfl⟩ | ⟨name, ch, -, -, rfl⟩
  · have hcheck := Client.openChannel_check he
    unfold Producer.onChannel at hj
    split_ifs at hj with hx
    · obtain ⟨hname, htype⟩ := Producer.check_eq_none hcheck hx
      simp only [List.mem_append, List.mem_cons, List.not_mem_nil, or_false] at hj
      rcases hj with (rfl | rfl) | rfl
      · exact ⟨h, hx, hname, htype⟩
      · trivial
      · trivial
    · obtain rfl := List.mem_singleton.1 hj
      trivial
  · have hcheck := Client.openChannel_check he
    rw [Consumer.onChannel, List.mem_append, List.mem_append, List.mem_singleton] at hj
    rcases hj with (hj | hj) | rfl
    · split_ifs at hj
      · obtain rfl := List.mem_singleton.1 hj
        trivial
      · cases hj
    · split_ifs at hj with hq
      · obtain rfl := List.mem_singleton.1 hj
        exact ⟨h, hq, Consumer.check_eq_none hcheck hq⟩
      · cases hj
    · trivial
  all_goals cases hj

theorem SetupStep.vetted_initialize (cfg : RabbitMQ) :
    ∀ i ∈ cfg.initializeProducers ++ cfg.initializeConsumers, i.Vetted cfg := by
  intro i hi
  rcases List.mem_append.1 hi with hi | hi
  · obtain ⟨p, hp, rfl⟩ := List.mem_map.1 hi
    exact hp
  · obtain ⟨c, hc, rfl⟩ := List.mem_map.1 hi
    exact hc

theorem Thread.Moves.vetted {t t' : Thread} {new : List Thread} (h : t.Moves s o s' t' new)
    (hcfg : s.config = cfg) (ht : ∀ i ∈ t.todo, i.Vetted cfg) : ∀ i ∈ t'.todo, i.Vetted cfg := by
  intro i hi
  rcases h.todoFrom i hi with hold | hentry | ⟨j, hj, s₁, todo, hx, hi⟩
  · exact ht i hold
  · exact SetupStep.vetted_initialize cfg i (hcfg ▸ hentry)
  · exact (ht j hj).exec hx i hi

theorem Thread.vetted_declared {t : Thread} {d : Declaration}
    (ht : ∀ i ∈ t.todo, i.Vetted cfg) (h : t.declared s o = some d) : LynxRabbit.Vetted cfg d := by
  obtain ⟨i, hi, hd⟩ := Option.bind_eq_some_iff.1 h
  have hv := ht i (List.mem_of_mem_head? hi)
  unfold SetupStep.declared at hd
  split at hd
  · cases i with
    | request r ch =>
        cases r with
        | exchangeDeclare p => exact .inl ⟨p, hv, (Option.some.inj hd).symm⟩
        | queueDeclare c => exact .inr ⟨c, hv, (Option.some.inj hd).symm⟩
        | _ => cases hd
    | _ => cases hd
  · cases hd

/-- What is vetted is in the plan. -/
theorem Vetted.mem_plan {d : Declaration} (h : Vetted cfg d) : d ∈ cfg.plan := by
  rcases h with ⟨p, hp, rfl⟩ | ⟨c, hc, rfl⟩
  · refine List.mem_append_left _ (List.mem_flatMap.2 ⟨p, hp.enabled, ?_⟩)
    rw [Producer.planned, if_pos hp.named]
    exact List.mem_singleton_self _
  · refine List.mem_append_right _ (List.mem_flatMap.2 ⟨c, hc.enabled, ?_⟩)
    rw [Consumer.planned, if_pos hc.named]
    exact List.mem_singleton_self _

end

/-! ### Every schedule -/

/-- What was declared is vetted, and so is what is left of every set-up. -/
structure DeclaresVetted (cfg : RabbitMQ) (ds : List Declaration) (p : State) : Prop where
  config : p.shared.config = cfg
  made : ∀ d ∈ ds, Vetted cfg d
  todo : ∀ t ∈ p.threads, ∀ i ∈ t.todo, i.Vetted cfg

theorem DeclaresVetted.step {cfg : RabbitMQ} {ds : List Declaration} {p q : State} {a : Action}
    (h : DeclaresVetted cfg ds p) (hs : step p a = some q) :
    DeclaresVetted cfg (ds ++ (declared p a).toList) q := by
  have hm := (moves_of_step hs).2
  have hds : ∀ d ∈ ds ++ (declared p a).toList, Vetted cfg d := by
    refine List.forall_mem_append.2 ⟨h.made, fun d hd => ?_⟩
    rw [Option.mem_toList] at hd
    cases a with
    | run i o =>
        obtain ⟨t, ht, hd⟩ := Option.bind_eq_some_iff.1 hd
        exact Thread.vetted_declared (h.todo t (List.mem_of_getElem? ht)) hd
    | _ => cases hd
  refine ⟨hm.config.trans h.config, hds, ?_⟩
  cases hm with
  | @run i o l r new t t' s' hl hix ht =>
      refine forall_focus (hl ▸ h.todo) (fun u _ hu => hu)
        (ht.vetted h.config (h.todo t (hl ▸ mem_focus_self l r t))) fun u hu => ?_
      obtain ⟨x, rfl⟩ := ht.spawned u hu
      rw [x.thread_todo]
      exact List.forall_mem_nil _
  | drop hc ho => exact h.todo
  | call k =>
      refine List.forall_mem_append.2 ⟨h.todo, List.forall_mem_singleton.2 ?_⟩
      rw [k.thread_todo]
      exact List.forall_mem_nil _
  | cancel id => exact h.todo

theorem declaresVetted_of_run {cfg : RabbitMQ} {g : State → Action → Bool} {p : State}
    (hr : Run step g (fresh cfg) p) : DeclaresVetted cfg [] p := by
  refine hr.invariant (I := DeclaresVetted cfg []) ⟨rfl, List.forall_mem_nil _,
    List.forall_mem_nil _⟩ fun p a q hi _ hs => ?_
  have hnext := hi.step hs
  exact ⟨hnext.config, List.forall_mem_nil _, hnext.todo⟩

/-- Goroutine `i` keeps count of the plan, as long as the process is there. -/
def Counts (cfg : RabbitMQ) (i : ℕ) (ds : List Declaration) (p : State) : Prop :=
  p.shared.config = cfg ∧
    (p.shared.panicked = false → ∀ u, p.threads[i]? = some u → u.Declares cfg ds)

theorem Counts.step {cfg : RabbitMQ} {i : ℕ} {ds : List Declaration} {p q : State} {a : Action}
    (h : Counts cfg i ds p) (hs : step p a = some q) :
    Counts cfg i (ds ++ (declaredBy i p a).toList) q := by
  obtain ⟨halive, hm⟩ := moves_of_step hs
  obtain ⟨hcfg, hcount⟩ := h
  refine ⟨hm.config.trans hcfg, fun halive' u hu => ?_⟩
  have hi := hcount halive
  cases hm with
  | @run j o l r new t t' s' hl hix ht hlen =>
      rcases getElem?_focus_cases hu t with ⟨rfl, rfl⟩ | ⟨-, hold⟩ | ⟨-, hnew⟩
      · have hself : p.threads[l.length]? = some t := hlen ▸ hix
        have hdecl : declaredBy l.length p (.run j o) = t.declared p.shared o := by
          rw [declaredBy, if_pos hlen.symm, declared, hix, Option.bind_some]
        rw [hdecl]
        exact ht.declares hcfg halive' (hi t hself)
      · exact (hi u (hl ▸ hold)).mono _
      · obtain ⟨x, rfl⟩ := ht.spawned u hnew
        cases x <;> trivial
  | drop hc ho => exact (hi u hu).mono _
  | call k =>
      rcases getElem?_snoc_cases hu with hold | rfl
      · exact (hi u hold).mono _
      · cases k <;> trivial
  | cancel id => exact (hi u hu).mono _

/-- **A set-up that comes to its end has declared the whole plan, and nothing new comes
after it.**  Let a goroutine that was in no set-up have come to the end of one in a schedule
of the system: a startup past its set-up, or a watcher or a forced reconnect whose callback
has succeeded.  Whatever else has run meanwhile, this goroutine itself has declared every
exchange and queue of the enabled entries; and all that the whole system has declared, or
declares in any continuation, are enabled entries that passed their checks, so that each of
them repeats a declaration of this goroutine. -/
theorem setup_declares_plan (cfg : RabbitMQ) (p q : State) (bs : List Action)
    (i : ℕ) (u : Thread) (hp : Run step always (fresh cfg) p)
    (hq : replay step always p bs = some q)
    (hbefore : ∀ t, p.threads[i]? = some t → t.undeclared = true)
    (hu : q.threads[i]? = some u) (hdone : u.setUp = true) (halive : q.shared.panicked = false) :
    (∀ d ∈ cfg.plan, d ∈ declarationsOf i p bs) ∧
    ∀ cs, ∀ d ∈ declarations p (bs ++ cs), Vetted cfg d ∧ d ∈ declarationsOf i p bs := by
  have hvet := declaresVetted_of_run hp
  have hcounts : Counts cfg i [] p :=
    ⟨hvet.config, fun _ t ht => Thread.declares_of_undeclared (hbefore t ht)⟩
  have hcount := trace_invariant step (declaredBy i) (I := Counts cfg i)
    (fun _ _ _ _ hi hs => hi.step hs) bs hcounts
  rw [ending_of_replay hq, List.nil_append] at hcount
  have hplan : ∀ d ∈ cfg.plan, d ∈ declarationsOf i p bs := (hcount.2 halive u hu).plan hdone
  refine ⟨hplan, fun cs d hd => ?_⟩
  have hall := trace_invariant step declared (I := DeclaresVetted cfg)
    (fun _ _ _ _ hi hs => hi.step hs) (bs ++ cs) hvet
  have hd' := hall.made d hd
  exact ⟨hd', hplan d hd'.mem_plan⟩

/-- A dropped connection: the watcher of the first one comes to the end of a set-up. -/
theorem setup_declares_plan_reconnect :
    ∃ p q : State, Run step always (fresh defaultRabbitMQConfig) p ∧
      p.threads[2]? = some (.watcher (.waiting 0)) ∧
      q.threads[2]? = some (.watcher (.established 1)) ∧
      ∀ d ∈ defaultRabbitMQConfig.plan, d ∈ declarationsOf 2 p (.drop 0 :: solo 2 17) := by
  obtain ⟨p, hr, hp⟩ := exists_run_of_replay step always (fresh defaultRabbitMQConfig)
    (fun p => p.threads[2]? == some (.watcher (.waiting 0)) &&
      (replay step always p (.drop 0 :: solo 2 17)).any fun q =>
        q.threads[2]? == some (.watcher (.established 1)) && !q.shared.panicked) boot (by decide)
  simp only [Bool.and_eq_true, Option.any_eq_true, beq_iff_eq, Bool.not_eq_true'] at hp
  obtain ⟨hwait, q, hq, hdone, halive⟩ := hp
  refine ⟨p, q, hr, hwait, hdone, ?_⟩
  have hbefore : ∀ t, p.threads[2]? = some t → t.undeclared = true := by
    intro t ht
    cases hwait.symm.trans ht
    rfl
  exact (setup_declares_plan _ p q _ 2 _ hr hq hbefore hdone rfl halive).1

end LynxRabbit
