/-
# Producers that are ready

`IsProducerReady` looks at the producers map, and `CheckHealth` at the connection, the
manager, the health checker and the maps.  Neither looks at the channels.  A reconnect
replaces the channels of a dead connection, but a channel can die alone: the broker
closes it for a publish to an exchange that does not exist, and the map keeps it.

As long as the broker spares the producers' channels, nothing else closes one: the
client's own calls close what they own, and a registered channel has no other owner
(`Separate`).  Then a producer that is ready in a healthy state has an open channel.
-/

import LynxRabbit.Publishing.Service
import LynxRabbit.Reconnection.Health
import LynxRabbit.Setup.Ownership

namespace LynxRabbit

open Runs

/-- The goroutine is about to register channel `id` under a producer's name. -/
def Thread.readies (id : ℕ) (t : Thread) : Bool :=
  t.todo.any fun
    | .registerProducer _ ch => ch.id == id
    | _ => false

/-- One startup, publish calls, whatever the broker does, and the reconnects of the
watcher. -/
def selfHealing (q : Service) : ServiceAction → Bool
  | .system a => automatic q.shared.system a
  | _ => true

/-- The broker closes no channel of a producer, registered or about to be. -/
def sparesProducers (q : Service) : ServiceAction → Bool
  | .closeChannel ch =>
    !q.client.registers ch.id && q.shared.system.threads.all fun t => !t.readies ch.id
  | _ => true

/-! ### The producers' channels -/

/-- The channels of the producers, registered or about to be, were not closed, nor was
any that is still to be opened. -/
structure Intact (p : State) : Prop where
  unopened : ∀ id, p.shared.amqp.channels ≤ id → p.shared.amqp.chanClosed id = false
  registered : ∀ id, p.shared.registers id = true → p.shared.amqp.chanClosed id = false
  pending : ∀ t ∈ p.threads, ∀ name ch, .registerProducer name ch ∈ t.todo →
    p.shared.amqp.chanClosed ch.id = false

theorem intact_fresh (cfg : RabbitMQ) : Intact (fresh cfg) :=
  ⟨fun _ _ => rfl, fun _ _ => rfl, fun t ht => (by cases ht)⟩

/-- A channel is closed that is neither registered nor about to be. -/
theorem Intact.close {s : Client} {ts : List Thread} (hi : Intact ⟨s, ts⟩) (ch : Channel)
    (hlt : ch.id < s.amqp.channels) (hreg : s.registers ch.id = false)
    (hpend : ∀ t ∈ ts, ∀ name ch', .registerProducer name ch' ∈ t.todo → ch'.id ≠ ch.id) :
    Intact ⟨{ s with amqp := s.amqp.closeChannel ch }, ts⟩ := by
  have hkeep : ∀ id, id ≠ ch.id → s.amqp.chanClosed id = false →
      (s.amqp.closeChannel ch).chanClosed id = false := by
    intro id hne hid
    exact (Function.update_of_ne hne _ _).trans hid
  refine ⟨fun id hid => hkeep id ?_ (hi.unopened id hid), fun id hid => hkeep id ?_
    (hi.registered id hid), fun t ht name ch' hm => hkeep _ (hpend t ht name ch' hm)
    (hi.pending t ht name ch' hm)⟩
  · exact (hlt.trans_le hid).ne'
  · rintro rfl
    have hreg' : s.registers ch.id = true := hid
    rw [hreg] at hreg'
    cases hreg'

/-- What is registered after a step was registered, or about to be. -/
theorem Transfer.registers {s s' : Client} {t t' : Thread} {new : List Thread}
    (h : Transfer s s' t t' new) {id : ℕ} (hid : s'.registers id = true) :
    s.registers id = true ∨ ∃ name ch, .registerProducer name ch ∈ t.todo ∧ ch.id = id := by
  cases h with
  | keep ho hn hp hch =>
      rcases hp with hp | hp
      · exact .inl (Client.registers_congr hp id ▸ hid)
      · rw [Client.registers, hp] at hid
        cases hid
  | opened c ho hp hch => exact .inl (Client.registers_congr hp id ▸ hid)
  | started l ho ho' hp hch => exact .inl (Client.registers_congr hp id ▸ hid)
  | registered name ch ho hm ho' hp hch =>
      rcases Client.registers_insert hp hid with he | hold
      · exact .inr ⟨name, ch, hm, he⟩
      · exact .inl hold

/-- A goroutine owns the channel it is about to register. -/
theorem Thread.own_of_pending {t : Thread} (hT : Tidy t.todo) {name : String} {ch : Channel}
    (hm : .registerProducer name ch ∈ t.todo) : t.own? = some ch := by
  have hown := hT.own_of_mem hm
  cases t with
  | watcher pc =>
      cases pc with
      | callback ms cb =>
          cases cb with
          | rebuild c todo => exact hown
          | _ => cases hm
      | _ => cases hm
  | force pc =>
      cases pc with
      | callback cb =>
          cases cb with
          | rebuild c todo => exact hown
          | _ => cases hm
      | _ => cases hm
  | startup pc => exact hown
  | _ => cases hm

/-- After a step of a mover that is out of any set-up then, set-up steps are left only to
the others. -/
theorem mem_others_of_todo {l r new : List Thread} {t' u : Thread} {i : SetupStep}
    (htodo : t'.todo = []) (hnew : ∀ u ∈ new, u.todo = []) (hu : u ∈ l ++ t' :: r ++ new)
    (hi : i ∈ u.todo) : u ∈ l ++ r := by
  rcases mem_focus hu with hu | rfl | hu
  · exact hu
  · rw [htodo] at hi
    cases hi
  · rw [hnew u hu] at hi
    cases hi

section
variable {p : State} {l r new : List Thread} {t t' : Thread} {s' : Client}

/-- A step that closes nothing. -/
theorem Intact.keep (hi : Intact p) (hl : p.threads = l ++ t :: r)
    (hpass : Passes p.shared s' t t' new) (hnew : ∀ u ∈ new, u.todo = [])
    (hcl : s'.amqp.chanClosed = p.shared.amqp.chanClosed) : Intact ⟨s', l ++ t' :: r ++ new⟩ := by
  have hmem : t ∈ p.threads := hl ▸ mem_focus_self l r t
  have hpend := hi.pending
  rw [← hcl] at hpend
  constructor
  · intro id hid
    exact (congrFun hcl id).trans (hi.unopened id (hpass.transfer.channels_le.trans hid))
  · intro id hid
    rcases hpass.transfer.registers hid with hold | ⟨name, ch, hreg, rfl⟩
    · exact (congrFun hcl id).trans (hi.registered id hold)
    · exact hpend t hmem name ch hreg
  · refine forall_focus (hl ▸ hpend) (fun u _ hu => hu) (fun name ch hreg => ?_)
      fun u hu name ch hreg => ?_
    · rcases hpass.pending name ch hreg with hreg | hid
      · exact hpend t hmem name ch hreg
      · rw [hid]
        exact (congrFun hcl _).trans (hi.unopened _ le_rfl)
    · rw [hnew u hu] at hreg
      cases hreg

/-- **A step of a goroutine closes no producer's channel.** -/
theorem Intact.run {o : Choice} (hi : Intact p) (hsep : Separate p) (hk : t.isCleanup = false)
    (hl : p.threads = l ++ t :: r) (ht : t.step p.shared o = some (s', t', new)) :
    Intact ⟨s', l ++ t' :: r ++ new⟩ := by
  have hm := Thread.moves_of_step ht
  have hmem : t ∈ p.threads := hl ▸ mem_focus_self l r t
  have hpass := hm.passes (hsep.tidy t hmem)
  have hnew : ∀ u ∈ new, u.todo = [] := by
    intro u hu
    obtain ⟨x, rfl⟩ := hm.spawned u hu
    exact x.thread_todo
  -- whoever else is about to register a channel, owns it
  have hothers : t'.todo = [] → ∀ u ∈ l ++ t' :: r ++ new, ∀ name ch,
      .registerProducer name ch ∈ u.todo →
        u ∈ l ++ r ∧ u.own? = some ch ∧ ch.id < p.shared.amqp.channels ∧
          p.shared.amqp.chanClosed ch.id = false := by
    intro htodo u hu name ch hreg
    have hlr := mem_others_of_todo htodo hnew hu hreg
    have hup : u ∈ p.threads := hl ▸ mem_of_mem_others hlr t
    have hown := Thread.own_of_pending (hsep.tidy u hup) hreg
    exact ⟨hlr, hown, hsep.lt_of_own hup hown, hi.pending u hup name ch hreg⟩
  cases Thread.step_closes ht hk with
  | nothing hcl => exact hi.keep hl hpass hnew hcl
  | own ch hch htodo hs =>
      subst hs
      have hrest : Intact ⟨p.shared, l ++ t' :: r ++ new⟩ :=
        ⟨hi.unopened, hi.registered, fun u hu name ch hreg =>
          (hothers htodo u hu name ch hreg).2.2.2⟩
      refine hrest.close ch (hsep.lt_of_own hmem hch) (hsep.not_registers_of_own hmem hch)
        fun u hu name ch' hreg => ?_
      obtain ⟨hlr, hown, -⟩ := hothers htodo u hu name ch' hreg
      exact hsep.id_ne_of_others hl hch hlr hown
  | probe c htodo hs =>
      subst hs
      have hrest : Intact ⟨{ p.shared with amqp :=
          { p.shared.amqp with channels := p.shared.amqp.channels + 1 } }, l ++ t' :: r ++ new⟩ :=
        ⟨fun id hid => hi.unopened id (Nat.le_of_succ_le hid), hi.registered,
          fun u hu name ch hreg => (hothers htodo u hu name ch hreg).2.2.2⟩
      refine hrest.close ⟨p.shared.amqp.channels, c⟩ (Nat.lt_succ_self _) ?_
        fun u hu name ch hreg => (hothers htodo u hu name ch hreg).2.2.1.ne
      cases hreg : p.shared.registers p.shared.amqp.channels with
      | false => exact hreg
      | true => exact absurd (hsep.lt_of_registers hreg) (Nat.lt_irrefl _)

end

theorem Intact.step {p p' : State} {a : Action} (hi : Intact p) (hsep : Separate p)
    (hk : ∀ t ∈ p.threads, t.isCleanup = false) (h : step p a = some p') : Intact p' := by
  cases a with
  | run i o =>
      obtain ⟨l, t, r, s', t', new, hl, -, -, ht, rfl⟩ := step_run_focus h
      exact hi.run hsep (hk t (hl ▸ mem_focus_self l r t)) hl ht
  | drop c => cases (moves_of_step h).2; exact ⟨hi.unopened, hi.registered, hi.pending⟩
  | call k =>
      cases (moves_of_step h).2
      refine ⟨hi.unopened, hi.registered, List.forall_mem_append.2 ⟨hi.pending,
        List.forall_mem_singleton.2 fun name ch hreg => ?_⟩⟩
      rw [k.thread_todo] at hreg
      cases hreg
  | cancel id => cases (moves_of_step h).2; exact ⟨hi.unopened, hi.registered, hi.pending⟩

/-! ### The runs -/

theorem Thread.readies_of_mem {t : Thread} {name : String} {ch : Channel}
    (h : .registerProducer name ch ∈ t.todo) : t.readies ch.id = true :=
  List.any_eq_true.2 ⟨_, h, beq_self_eq_true _⟩

theorem Intact.closeChannel {q : Service} {ch : Channel} (hi : Intact q.shared.system)
    (hlt : ch.id < q.client.amqp.channels) (hg : sparesProducers q (.closeChannel ch) = true) :
    Intact ⟨{ q.client with amqp := q.client.amqp.closeChannel ch },
      q.shared.system.threads⟩ := by
  rw [sparesProducers, Bool.and_eq_true, Bool.not_eq_true', List.all_eq_true] at hg
  obtain ⟨hreg, hpend⟩ := hg
  refine hi.close ch hlt hreg fun t ht name ch' hm heq => ?_
  have hno := hpend t ht
  rw [← heq, Thread.readies_of_mem hm] at hno
  cases hno

/-- The invariant of the runs. -/
structure ReadyInv (p : State) : Prop where
  health : HealthInv p
  separate : Separate p
  intact : Intact p

theorem HealthInv.touched {p : State} (hi : HealthInv p) (m : Metrics) (f : ℕ → Bool) :
    HealthInv (touched p m f) :=
  ⟨⟨hi.one.single, hi.one.exclusive, hi.one.idle⟩, hi.kinds, hi.down,
    hi.up.congr rfl rfl rfl (Client.entry_congr rfl rfl),
    fun t ht => (hi.own t ht).congr rfl rfl rfl (Client.entry_congr rfl rfl)⟩

theorem ReadyInv.step {q q' : Service} {a : ServiceAction} (hi : ReadyInv q.shared.system)
    (hg : both selfHealing sparesProducers q a = true) (h : serviceStep q a = some q') :
    ReadyInv q'.shared.system := by
  obtain ⟨hrun, hspare⟩ := both_iff.1 hg
  obtain ⟨hhealth, hsep, hint⟩ := hi
  cases (serviceMoves_of_step h).2 with
  | system hs =>
      have hm := (moves_of_step hs).2
      exact ⟨hhealth.step hrun hm, hsep.step hm,
        hint.step hsep (fun t ht => (hhealth.kinds t ht).2) hs⟩
  | closeChannel hlt ho =>
      exact ⟨hhealth.touched _ _, ⟨hsep.tidy, hsep.below, hsep.once⟩, hint.closeChannel hlt hspare⟩
  | @advance env l r t t' s' frames hl hm =>
      have hs : s' = { q.client with metrics := s'.metrics } := hm.frame
      rw [hs]
      exact ⟨hhealth.touched _ _, ⟨hsep.tidy, hsep.below, hsep.once⟩,
        ⟨hint.unopened, hint.registered, hint.pending⟩⟩
  | _ => exact ⟨hhealth, hsep, hint⟩

/-- **A producer that is ready in a healthy state has an open channel**, as long as the
broker closes no producer's channel: in every state of every run of one startup, publish
calls, channel closures, disconnects and reconnects.  A publish on it can then fail only
by what the broker answers. -/
theorem ready_channel_open (cfg : RabbitMQ) (q : Service)
    (hr : Run serviceStep (both selfHealing sparesProducers) (service cfg) q) (name : String)
    (hready : q.client.isProducerReady name = true) (hnil : q.client.checkHealth = none) :
    ∃ ch, q.client.producers.lookup name = some (some ch) ∧ q.client.amqp.chanOpen ch = true ∧
      ∀ o, q.client.amqp.callErr ch o = o.err := by
  have hi : ReadyInv q.shared.system :=
    hr.invariant (I := fun q => ReadyInv q.shared.system)
      ⟨healthInv_fresh cfg, separate_fresh cfg, intact_fresh cfg⟩ fun _ _ _ hi hg h => hi.step hg h
  obtain ⟨hcfg, hnamed, -⟩ := NamedBy.of_run hr (namedBy_service cfg)
  obtain ⟨⟨c, hc, ho⟩, hup, -⟩ := (Client.checkHealth_eq_none_iff q.client).1 hnil
  obtain ⟨c', hc', hcomp⟩ := hi.health.up hup
  obtain rfl : c = c' := Option.some.inj (hc.symm.trans hc')
  obtain ⟨ch, hch⟩ := Client.isProducerReady_iff.1 hready
  obtain ⟨ch', hch', hconn⟩ := hcomp (.producer name) (hnamed (.producer name) _ trivial hch)
  obtain rfl : ch = ch' := Option.some.inj (Option.some.inj (hch.symm.trans hch'))
  have hclosed : q.client.amqp.chanClosed ch.id = false :=
    hi.intact.registered ch.id (Client.registers_iff.2 ⟨name, ch, hch, rfl⟩)
  have hopen : q.client.amqp.chanOpen ch = true := by
    rw [Broker.chanOpen, hconn, ho, hclosed]
    rfl
  exact ⟨ch, hch, hopen, fun o => by rw [Broker.callErr, if_pos hopen]⟩

/-- What the call has returned, once it has. -/
def Caller.result (t : Caller) : Option (Option GoError) :=
  match t.pc with
  | .returned _ err => some err
  | _ => none

/-- The default client has published, the broker has closed the consumer's channel and
then the connection, and the client has reconnected. -/
theorem ready_channel_open_reconnected :
    ∃ q ch, Run serviceStep (both selfHealing sparesProducers) (service defaultRabbitMQConfig) q ∧
      q.client.isProducerReady "default-producer" = true ∧ q.client.checkHealth = none ∧
      q.client.connection = some 1 ∧
      q.client.producers.lookup "default-producer" = some (some ch) ∧
      q.client.amqp.chanOpen ch = true := by
  obtain ⟨q, hr, hq⟩ := exists_run_of_replay serviceStep (both selfHealing sparesProducers)
    (service defaultRabbitMQConfig)
    (fun q => q.client.isProducerReady "default-producer" && q.client.checkHealth.isNone &&
      q.client.connection == some 1)
    (serviceBoot ++ [.publish (greeting "lynx.exchange"), .advance 0 {}, .advance 0 {},
      .advance 0 {}, .closeChannel ⟨1, 0⟩] ++ (.drop 0 :: solo 2 18).map .system) (by decide)
  simp only [Bool.and_eq_true, Option.isNone_iff_eq_none, beq_iff_eq] at hq
  obtain ⟨⟨hready, hnil⟩, hconn⟩ := hq
  obtain ⟨ch, hch, hopen, -⟩ :=
    ready_channel_open defaultRabbitMQConfig q hr "default-producer" hready hnil
  exact ⟨q, ch, hr, hready, hnil, hconn, hch, hopen⟩

/-- The default client publishes to an exchange that does not exist, the broker closes
the channel, and the client publishes again: the producer is ready, the client is
healthy, and the channel is closed. -/
theorem ready_channel_closed :
    ∃ q, Run serviceStep selfHealing (service defaultRabbitMQConfig) q ∧
      started q.shared.system = true ∧
      q.client.isProducerReady "default-producer" = true ∧ q.client.checkHealth = none ∧
      q.client.producers.lookup "default-producer" = some (some ⟨0, 0⟩) ∧
      q.client.amqp.chanOpen ⟨0, 0⟩ = false ∧
      q.threads.map Caller.result = [some none, some (some (publishFailure Broker.errClosed))] := by
  obtain ⟨q, hr, hq⟩ := exists_run_of_replay serviceStep selfHealing
    (service defaultRabbitMQConfig)
    (fun q => decide (started q.shared.system = true ∧
      q.client.isProducerReady "default-producer" = true ∧ q.client.checkHealth = none ∧
      q.client.producers.lookup "default-producer" = some (some ⟨0, 0⟩) ∧
      q.client.amqp.chanOpen ⟨0, 0⟩ = false ∧
      q.threads.map Caller.result = [some none, some (some (publishFailure Broker.errClosed))]))
    (serviceBoot ++ [.publish (greeting "missing"), .advance 0 {}, .advance 0 {}, .advance 0 {},
      .closeChannel ⟨0, 0⟩, .publish (greeting "missing"), .advance 1 {}, .advance 1 {},
      .advance 1 {}]) (by decide)
  exact ⟨q, hr, of_decide_eq_true hq⟩

end LynxRabbit
