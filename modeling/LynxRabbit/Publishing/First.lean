/-
# The entry an unnamed operation uses

`PublishMessage` and `Subscribe` are documented to use the first enabled entry.  What
they use is the entry a `range` over the map meets first, and Go leaves that order
open.  With one enabled producer and one enabled consumer there is nothing to choose:
then every order gives the first enabled entry, and runs that differ only in the
orders are the same.  With two of a kind the choice is the runtime's.
-/

import LynxRabbit.Publishing.Service
import LynxRabbit.Subscriptions.Settings

namespace LynxRabbit

open Runs

/-- The unnamed operations use the first enabled entry, whatever order a `range` has. -/
structure UsesFirst (s : Client) : Prop where
  /-- `PublishMessage` publishes on the channel of the first enabled producer. -/
  publishes : ∀ (range : MapOrder) (m : Message) (ch : Channel),
    s.findProducer range (.publishMessage m) = .ok ch ↔
      ∃ p, s.config.getEnabledProducers.head? = some p ∧
        s.producers.lookup p.name = some (some ch)
  /-- `Subscribe` goes on with the name of the first enabled consumer. -/
  subscribes : ∀ (queue : String) (handler : Handler) (id : ℕ) (sub : Subscription),
    (∃ o s' new, (SubscribeCall.lookup queue handler).step s o id = some (s', .record sub, new)) ↔
      ∃ c, s.config.getEnabledConsumers.head? = some c ∧ s.isConsumerReady c.name = true ∧
        sub = ⟨id, c.name, queue, handler⟩
  /-- And with its settings. -/
  settings : ∀ c, s.config.getEnabledConsumers.head? = some c →
    s.config.dispatchSettings c.name = c.settings

/-- Two actions that differ in the order of a `range` at most. -/
inductive ServiceAction.Alike : ServiceAction → ServiceAction → Prop
  | same (a : ServiceAction) : Alike a a
  | subscribe (i : ℕ) (n n' : String) :
      Alike (.system (.run i (.pick n))) (.system (.run i (.pick n')))
  | publish (j : ℕ) (env : PublishEnv) (range : MapOrder) :
      Alike (.advance j env) (.advance j { env with range := range })

/-! ### Maps with one name -/

/-- The maps hold the first enabled entries and no other. -/
structure OnlyFirst (s : Client) : Prop where
  producers : ∀ n v, s.producers.lookup n = some v →
    ∃ p, s.config.getEnabledProducers.head? = some p ∧ p.name = n
  consumers : ∀ n v, s.consumers.lookup n = some v →
    ∃ c, s.config.getEnabledConsumers.head? = some c ∧ c.name = n

theorem head?_of_mem {α : Type*} {l : List α} {x : α} (hl : l.length ≤ 1) (hx : x ∈ l) :
    l.head? = some x := by
  match l, hl with
  | [y], _ => rw [List.mem_singleton.1 hx]; rfl

theorem onlyFirst_of_named {s : Client} (hp : s.config.getEnabledProducers.length ≤ 1)
    (hc : s.config.getEnabledConsumers.length ≤ 1) (h : NamedOn (fun _ => True) s) :
    OnlyFirst s := by
  constructor
  · intro n v hv
    rcases List.mem_append.1 (h (.producer n) v trivial hv) with hm | hm
    · obtain ⟨p, hpm, hpn⟩ := List.mem_map.1 hm
      exact ⟨p, head?_of_mem hp hpm, Entry.producer.inj hpn⟩
    · obtain ⟨c, -, hcn⟩ := List.mem_map.1 hm
      cases hcn
  · intro n v hv
    rcases List.mem_append.1 (h (.consumer n) v trivial hv) with hm | hm
    · obtain ⟨p, -, hpn⟩ := List.mem_map.1 hm
      cases hpn
    · obtain ⟨c, hcm, hcn⟩ := List.mem_map.1 hm
      exact ⟨c, head?_of_mem hc hcm, Entry.consumer.inj hcn⟩

/-- What `PublishMessage` finds is what its `range` meets first. -/
theorem Client.findProducer_ok_iff {s : Client} {range : MapOrder} {m : Message} {ch : Channel} :
    s.findProducer range (.publishMessage m) = .ok ch ↔
      ∃ n, range.first s.producers = some ⟨n, some ch⟩ := by
  rw [Client.findProducer]
  constructor
  · intro h
    split at h
    · rename_i n ch' hf
      obtain rfl := Except.ok.inj h
      exact ⟨n, hf⟩
    · cases h
  · rintro ⟨n, hn⟩
    rw [hn]

/-- In a map with one name, every `range` meets that name first. -/
theorem MapOrder.first_of_lookup {m : ChannelMap} {n : String} {v : Option Channel}
    (hone : ∀ x w, m.lookup x = some w → x = n) (hv : m.lookup n = some v) (r : MapOrder) :
    r.first m = some ⟨n, v⟩ := by
  cases hf : r.first m with
  | none =>
      have hentries := MapOrder.first_eq_none.1 hf
      have hmem : (⟨n, v⟩ : ChannelEntry) ∈ m.entries := AList.mem_lookup_iff.1 hv
      rw [hentries] at hmem
      cases hmem
  | some e =>
      have hlook := MapOrder.lookup_of_first hf
      have hname := hone _ _ hlook
      obtain ⟨x, w⟩ := e
      obtain rfl : x = n := hname
      rw [hv] at hlook
      rw [Option.some.inj hlook]

theorem OnlyFirst.findProducer_iff {s : Client} (h : OnlyFirst s) (range : MapOrder) (m : Message)
    (ch : Channel) : s.findProducer range (.publishMessage m) = .ok ch ↔
      ∃ p, s.config.getEnabledProducers.head? = some p ∧
        s.producers.lookup p.name = some (some ch) := by
  rw [Client.findProducer_ok_iff]
  constructor
  · rintro ⟨n, hn⟩
    have hlook := MapOrder.lookup_of_first hn
    obtain ⟨p, hp, rfl⟩ := h.producers n _ hlook
    exact ⟨p, hp, hlook⟩
  · rintro ⟨p, hp, hlook⟩
    refine ⟨p.name, MapOrder.first_of_lookup (fun x w hx => ?_) hlook range⟩
    obtain ⟨p', hp', rfl⟩ := h.producers x w hx
    rw [hp] at hp'
    rw [Option.some.inj hp']

/-- `Subscribe` may go on with any consumer that is ready. -/
theorem SubscribeCall.lookup_pick {s : Client} {n : String} (h : s.isConsumerReady n = true)
    (queue : String) (handler : Handler) (id : ℕ) :
    (SubscribeCall.lookup queue handler).step s (.pick n) id =
      some (s, .record ⟨id, n, queue, handler⟩, []) := by
  obtain ⟨ch, hch⟩ := Client.isConsumerReady_iff.1 h
  simp [SubscribeCall.step, Choice.first, hch]

theorem OnlyFirst.lookup_iff {s : Client} (h : OnlyFirst s) (queue : String) (handler : Handler)
    (id : ℕ) (sub : Subscription) :
    (∃ o s' new, (SubscribeCall.lookup queue handler).step s o id = some (s', .record sub, new)) ↔
      ∃ c, s.config.getEnabledConsumers.head? = some c ∧ s.isConsumerReady c.name = true ∧
        sub = ⟨id, c.name, queue, handler⟩ := by
  constructor
  · rintro ⟨o, s', new, ho⟩
    rw [SubscribeCall.step] at ho
    split at ho
    · rename_i n hn
      split at ho
      · cases ho
      · cases ho
      · rename_i ch hch
        obtain ⟨c, hc, rfl⟩ := h.consumers n _ hch
        cases ho
        exact ⟨c, hc, Client.isConsumerReady_iff.2 ⟨ch, hch⟩, rfl⟩
    · split_ifs at ho
      cases ho
  · rintro ⟨c, -, hready, rfl⟩
    exact ⟨.pick c.name, s, [], SubscribeCall.lookup_pick hready queue handler id⟩

/-- **Where the first entry is used there is nothing to choose**: every consumer that is ready
is the first enabled one. -/
theorem UsesFirst.head?_of_ready {s : Client} (h : UsesFirst s) {n : String}
    (hn : s.isConsumerReady n = true) :
    ∃ c, s.config.getEnabledConsumers.head? = some c ∧ c.name = n := by
  obtain ⟨c, hc, -, hsub⟩ :=
    (h.subscribes "" 0 0 _).1 ⟨.pick n, s, [], SubscribeCall.lookup_pick hn "" 0 0⟩
  exact ⟨c, hc, (congrArg Subscription.consumerName hsub).symm⟩

/-- An only enabled consumer has the settings the loop looks up, when every enabled one
has. -/
theorem dispatchSettings_of_single {cfg : RabbitMQ} {c : Consumer}
    (hc : cfg.getEnabledConsumers.length ≤ 1) (hs : cfg.firstLikeLast = true)
    (h : cfg.getEnabledConsumers.head? = some c) : cfg.dispatchSettings c.name = c.settings := by
  have hmem := List.mem_of_head? h
  obtain ⟨l, hl, hname, hlast, b, hb⟩ := exists_last hmem
  obtain rfl : l = c := Option.some.inj ((head?_of_mem hc hl).symm.trans h)
  have hsame := of_decide_eq_true (List.all_eq_true.1 hs l hmem)
  rw [hb, hlast] at hsame
  rw [dispatchSettings_of_find hb]
  exact Option.some.inj hsame

/-! ### Runs that differ in the orders -/

/-- Nothing but the lookup of `Subscribe` looks at where a `range` starts. -/
theorem Thread.step_pick {s : Client} {t : Thread} (n n' : String)
    (h : ∀ id queue handler, t ≠ .subscribe id (.lookup queue handler)) :
    t.step s (.pick n) = t.step s (.pick n') := by
  cases t with
  | subscribe id pc =>
      cases pc with
      | lookup queue handler => exact absurd rfl (h id queue handler)
      | _ => rfl
  | _ => rfl

theorem OnlyFirst.step_pick {s : Client} (h : OnlyFirst s) {t : Thread} {n n' : String}
    {x y : Client × Thread × List Thread} (hx : t.step s (.pick n) = some x)
    (hy : t.step s (.pick n') = some y) : x = y := by
  by_cases hl : ∃ id queue handler, t = .subscribe id (.lookup queue handler)
  · obtain ⟨id, queue, handler, rfl⟩ := hl
    have hin : ∀ {k z}, Thread.step s (.subscribe id (.lookup queue handler)) (.pick k) = some z →
        ∃ c, s.config.getEnabledConsumers.head? = some c ∧ c.name = k := by
      intro k z hz
      obtain ⟨q, hq, -⟩ := Option.map_eq_some_iff.1 hz
      cases hlook : s.consumers.lookup k with
      | none => simp [SubscribeCall.step, Choice.first, hlook] at hq
      | some v => exact h.consumers k v hlook
    obtain ⟨c, hc, rfl⟩ := hin hx
    obtain ⟨c', hc', rfl⟩ := hin hy
    obtain rfl := Option.some.inj (hc.symm.trans hc')
    exact Option.some.inj (hx.symm.trans hy)
  · have heq := Thread.step_pick (s := s) n n' fun id queue handler ht =>
      hl ⟨id, queue, handler, ht⟩
    exact Option.some.inj ((hx.symm.trans heq).trans hy)

theorem OnlyFirst.findProducer_eq {s : Client} (h : OnlyFirst s) (range range' : MapOrder)
    (k : PublishRequest) : s.findProducer range k = s.findProducer range' k := by
  cases k with
  | publishMessageWith name m => rfl
  | publishMessage m =>
      have hiff (ch : Channel) :=
        (h.findProducer_iff range m ch).trans (h.findProducer_iff range' m ch).symm
      have herr : ∀ (r : MapOrder) e, s.findProducer r (.publishMessage m) = .error e →
          e = .var .producerNotReady := by
        intro r e he
        rw [Client.findProducer] at he
        split at he <;> cases he
        rfl
      cases hx : s.findProducer range (.publishMessage m) with
      | ok ch => exact ((hiff ch).1 hx).symm
      | error e =>
          cases hy : s.findProducer range' (.publishMessage m) with
          | ok ch => rw [(hiff ch).2 hy] at hx; cases hx
          | error e' => rw [herr range e hx, herr range' e' hy]

theorem OnlyFirst.callerStep_eq {w : Wire} (h : OnlyFirst w.system.shared) (t : Caller)
    (env : PublishEnv) (range : MapOrder) :
    t.step w { env with range := range } = t.step w env := by
  obtain ⟨pc, frame, seen⟩ := t
  cases pc with
  | find k =>
      simp only [Caller.step, PublishCall.step]
      rw [h.findProducer_eq range env.range]
  | _ => rfl

/-- **A step with another order is the same step.** -/
theorem OnlyFirst.serviceStep_alike {q x y : Service} {a b : ServiceAction}
    (h : OnlyFirst q.client) (hab : a.Alike b) (hx : serviceStep q a = some x)
    (hy : serviceStep q b = some y) : x = y := by
  have halive := (serviceMoves_of_step hx).1
  have halive' : q.shared.system.shared.panicked = false := halive
  cases hab with
  | same a => exact Option.some.inj (hx.symm.trans hy)
  | subscribe i n n' =>
      simp only [serviceStep, step, halive, halive', Bool.false_eq_true, if_false] at hx hy
      obtain ⟨p, hp, rfl⟩ := Option.map_eq_some_iff.1 hx
      obtain ⟨p', hp', rfl⟩ := Option.map_eq_some_iff.1 hy
      rw [Pool.step_unique (fun t u v => h.step_pick) hp hp']
  | publish j env range =>
      simp only [serviceStep, halive, Bool.false_eq_true, if_false] at hx hy
      refine Pool.step_unique (fun t u v hu hv => ?_) hx hy
      rw [h.callerStep_eq t env range] at hv
      exact Option.some.inj (hu.symm.trans hv)

/-! ### The runs -/

theorem NamedBy.onlyFirst {cfg : RabbitMQ} {p : State} (hi : NamedBy cfg p)
    (hp : cfg.getEnabledProducers.length ≤ 1) (hc : cfg.getEnabledConsumers.length ≤ 1) :
    OnlyFirst p.shared := by
  obtain ⟨rfl, hnamed, -⟩ := hi
  exact onlyFirst_of_named hp hc hnamed

/-- **With one entry of each kind the unnamed operations use the first.**  For every
configuration with at most one enabled producer and at most one enabled consumer, whose
settings no entry of the same name overrides: in every reachable state and for every
order of the maps; and two schedules that differ in the orders only, end in the same
state. -/
theorem first_entries_used (cfg : RabbitMQ) (hp : cfg.getEnabledProducers.length ≤ 1)
    (hc : cfg.getEnabledConsumers.length ≤ 1) (hs : cfg.firstLikeLast = true) :
    (∀ q, Run serviceStep always (service cfg) q → UsesFirst q.client) ∧
      ∀ as bs x y, List.Forall₂ ServiceAction.Alike as bs →
        replay serviceStep always (service cfg) as = some x →
          replay serviceStep always (service cfg) bs = some y → x = y := by
  constructor
  · intro q hr
    have hi := NamedBy.of_run hr (namedBy_service cfg)
    have hfirst := hi.onlyFirst hp hc
    have hcfg : q.client.config = cfg := hi.1
    refine ⟨hfirst.findProducer_iff, hfirst.lookup_iff, fun c hhead => ?_⟩
    rw [hcfg] at hhead ⊢
    exact dispatchSettings_of_single hc hs hhead
  · intro as bs x y hab hx hy
    have hsame : ∀ q a b t u, NamedBy cfg q.shared.system → ServiceAction.Alike a b →
        serviceStep q a = some t → serviceStep q b = some u → t = u :=
      fun _ _ _ _ _ hi => OnlyFirst.serviceStep_alike (hi.onlyFirst hp hc)
    exact replay_unique (I := fun q => NamedBy cfg q.shared.system)
      (fun _ _ _ hi h => .of_run (g := always) (.tail .refl rfl h) hi) hsame hab
      (namedBy_service cfg) hx hy

/-- The default configuration has one entry of each kind. -/
theorem first_entries_used_default :
    ∃ q ch, Run serviceStep always (service defaultRabbitMQConfig) q ∧
      started q.shared.system = true ∧ UsesFirst q.client ∧
      q.client.findProducer .reversed (greeting "") = .ok ch ∧
      ∀ as bs x y, List.Forall₂ ServiceAction.Alike as bs →
        replay serviceStep always (service defaultRabbitMQConfig) as = some x →
          replay serviceStep always (service defaultRabbitMQConfig) bs = some y → x = y := by
  obtain ⟨q, hr, hq⟩ := exists_run_of_replay serviceStep always (service defaultRabbitMQConfig)
    (fun q => started q.shared.system &&
      decide (q.client.producers.lookup "default-producer" = some (some ⟨0, 0⟩) ∧
        q.client.config.getEnabledProducers.head?.map (·.name) = some "default-producer"))
    serviceBoot (by decide)
  obtain ⟨hstarted, hlook⟩ := Bool.and_eq_true_iff.1 hq
  obtain ⟨hlook, hhead⟩ := of_decide_eq_true hlook
  obtain ⟨p, hp, hname⟩ := Option.map_eq_some_iff.1 hhead
  obtain ⟨hfirst, hsame⟩ :=
    first_entries_used defaultRabbitMQConfig (by decide) (by decide) (by decide)
  refine ⟨q, ⟨0, 0⟩, hr, hstarted, hfirst q hr, ?_, hsame⟩
  exact ((hfirst q hr).publishes _ _ _).2 ⟨p, hp, hname ▸ hlook⟩

/-- Two enabled producers and two enabled consumers, each under a name of its own. -/
def twoOfEach : RabbitMQ :=
  { twoConsumers with
    producers := [
      { name := "orders", enabled := true, exchange := "ex.orders", exchangeType := "direct",
        publishTimeout := some (3 * second), maxRetries := 3,
        retryBackoff := some (100 * millisecond) },
      { name := "audit", enabled := true, exchange := "ex.audit", exchangeType := "fanout",
        publishTimeout := some (3 * second), maxRetries := 3,
        retryBackoff := some (100 * millisecond) }] }

/-- The startup of this client, one publish and one subscription, with the `range` of
each resolved as given. -/
def publishAndSubscribe (range : MapOrder) (n : String) : List ServiceAction :=
  (.call .startup :: solo 0 37).map .system ++
    [.publish (greeting ""), .advance 0 { range := range },
      .advance 0 {}, .system (.call (.subscribe "q.orders" 0)),
      .system (.run 3 (.pick n)), .system (.run 3 .ok)]

/-- The two orders of the same run: the message goes out on the channel of `orders` or on
that of `audit`, and the subscription is for `orders`, with acks, or for `audit`,
without. -/
theorem unnamed_operations_differ :
    normalizeRabbitMQConfig (some twoOfEach.scanned) = .ok twoOfEach ∧
      (twoOfEach.getEnabledProducers.map (·.name)).Nodup ∧
      (twoOfEach.getEnabledConsumers.map (·.name)).Nodup ∧
      List.Forall₂ ServiceAction.Alike (publishAndSubscribe .reversed "orders")
        (publishAndSubscribe .stored "audit") ∧
      ∃ x y,
        replay serviceStep always (service twoOfEach) (publishAndSubscribe .reversed "orders") =
          some x ∧
        replay serviceStep always (service twoOfEach) (publishAndSubscribe .stored "audit") =
          some y ∧
        x.shared.frames.map (·.invocation.channel) = [⟨0, 0⟩] ∧
        y.shared.frames.map (·.invocation.channel) = [⟨1, 0⟩] ∧
        x.client.subscriptions.map (twoOfEach.dispatchSettings ·.consumerName) = [(false, 1)] ∧
        y.client.subscriptions.map (twoOfEach.dispatchSettings ·.consumerName) = [(true, 8)] ∧
        started y.shared.system = true ∧ ¬ UsesFirst y.client := by
  refine ⟨rfl, by decide, by decide, ?_, _, _, rfl, rfl, rfl, rfl, rfl, rfl, rfl, fun h => ?_⟩
  · exact List.rel_append (List.forall₂_same.2 fun a _ => .same a)
      (.cons (.same _) (.cons (.publish 0 _ _) (.cons (.same _) (.cons (.same _)
        (.cons (.subscribe 3 _ _) (.cons (.same _) .nil))))))
  · obtain ⟨c, hc, hname⟩ := h.head?_of_ready (n := "audit") rfl
    cases hc
    exact absurd hname (by decide)

end LynxRabbit
