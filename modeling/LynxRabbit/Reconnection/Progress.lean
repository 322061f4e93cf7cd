/-
# How far a set-up has come

`initializeProducers` and `initializeConsumers` register one channel under the
name of every enabled entry, one after the other, and may stop anywhere.  An
entry of the configuration is registered on connection `c` when its map holds,
under its name, a channel that was opened on `c`; it is pending when the steps
left to do will still put one there.  While `r.connection` stays `c`, every step
of a set-up keeps every entry registered or pending (`Covered.exec`), so that a
set-up that has nothing left to do is complete (`Covered.complete`).
-/

import LynxRabbit.Client.Frames

namespace LynxRabbit

/-- A name in one of the two channel maps. -/
inductive Entry
  | producer (name : String)
  | consumer (name : String)
deriving DecidableEq, Repr

/-- The names the configuration wants registered. -/
def RabbitMQ.entries (cfg : RabbitMQ) : List Entry :=
  cfg.getEnabledProducers.map (fun p => .producer p.name) ++
    cfg.getEnabledConsumers.map (fun k => .consumer k.name)

/-- What the map of the entry holds under its name. -/
def Client.entry (s : Client) : Entry → Option (Option Channel)
  | .producer name => s.producers.lookup name
  | .consumer name => s.consumers.lookup name

/-- The entry's map holds a channel of connection `c` under its name. -/
def Registered (s : Client) (c : ConnId) (e : Entry) : Prop :=
  ∃ ch, s.entry e = some (some ch) ∧ ch.conn = c

/-- Every enabled producer and consumer has a channel of connection `c`. -/
def Complete (s : Client) (c : ConnId) : Prop := ∀ e ∈ s.config.entries, Registered s c e

/-- The entry a set-up step will register, or registers. -/
def SetupStep.entry? : SetupStep → Option Entry
  | .createProducer p => some (.producer p.name)
  | .createConsumer k => some (.consumer k.name)
  | .request _ _ => none
  | .registerProducer name _ => some (.producer name)
  | .registerConsumer name _ => some (.consumer name)

/-- The channel a step registers, once it is known. -/
def SetupStep.channel? : SetupStep → Option Channel
  | .registerProducer _ ch => some ch
  | .registerConsumer _ ch => some ch
  | _ => none

/-- A step of `todo` is for the entry. -/
def Pending (todo : List SetupStep) (e : Entry) : Prop := ∃ i ∈ todo, i.entry? = some e

/-- Every entry of the configuration is registered on `c` or pending, and the
channels still to register are channels of `c`. -/
structure Covered (s : Client) (c : ConnId) (todo : List SetupStep) : Prop where
  own : ∀ i ∈ todo, ∀ ch, i.channel? = some ch → ch.conn = c
  entry : ∀ e ∈ s.config.entries, Registered s c e ∨ Pending todo e

theorem Client.entry_congr {s s' : Client} (hp : s'.producers = s.producers)
    (hc : s'.consumers = s.consumers) (e : Entry) : s'.entry e = s.entry e := by
  cases e <;> simp only [Client.entry, hp, hc]

theorem Registered.congr {s s' : Client} {c : ConnId} {e : Entry} (h : Registered s c e)
    (he : s'.entry e = s.entry e) : Registered s' c e := by
  obtain ⟨ch, hch, hcc⟩ := h
  exact ⟨ch, he.trans hch, hcc⟩

theorem Complete.congr {s s' : Client} {c : ConnId} (h : Complete s c)
    (hcfg : s'.config = s.config) (he : ∀ e, s'.entry e = s.entry e) : Complete s' c := by
  intro e hm
  rw [hcfg] at hm
  exact (h e hm).congr (he e)

theorem Covered.congr {s s' : Client} {c : ConnId} {todo : List SetupStep} (h : Covered s c todo)
    (hcfg : s'.config = s.config) (he : ∀ e, s'.entry e = s.entry e) : Covered s' c todo := by
  refine ⟨h.own, fun e hm => ?_⟩
  rw [hcfg] at hm
  exact (h.entry e hm).imp_left fun hr => hr.congr (he e)

/-- A set-up with nothing left to do is complete. -/
theorem Covered.complete {s : Client} {c : ConnId} (h : Covered s c []) : Complete s c := by
  intro e hm
  rcases h.entry e hm with hr | ⟨i, hi, -⟩
  · exact hr
  · cases hi

/-- A whole set-up still to do covers every entry. -/
theorem covered_initialize (s : Client) (c : ConnId) :
    Covered s c (s.config.initializeProducers ++ s.config.initializeConsumers) := by
  refine ⟨fun i hi ch hch => ?_, fun e hm => .inr ?_⟩
  · rcases List.mem_append.1 hi with hi | hi <;> obtain ⟨_, -, rfl⟩ := List.mem_map.1 hi <;>
      cases hch
  · rcases List.mem_append.1 hm with hm | hm
    · obtain ⟨p, hp, rfl⟩ := List.mem_map.1 hm
      exact ⟨.createProducer p, List.mem_append_left _ (List.mem_map_of_mem hp), rfl⟩
    · obtain ⟨k, hk, rfl⟩ := List.mem_map.1 hm
      exact ⟨.createConsumer k, List.mem_append_right _ (List.mem_map_of_mem hk), rfl⟩

/-- What `createProducer` leaves behind: requests on its channel, and the registration
of that channel. -/
theorem Producer.mem_onChannel {p : Producer} {ch : Channel} {i : SetupStep}
    (hi : i ∈ p.onChannel ch) : (∃ r, i = .request r ch) ∨ i = .registerProducer p.name ch := by
  unfold Producer.onChannel at hi
  rcases List.mem_append.1 hi with hi | hi
  · split_ifs at hi
    · rcases List.mem_pair.1 hi with rfl | rfl <;> exact .inl ⟨_, rfl⟩
    · cases hi
  · exact .inr (List.mem_singleton.1 hi)

theorem Consumer.mem_onChannel {k : Consumer} {ch : Channel} {i : SetupStep}
    (hi : i ∈ k.onChannel ch) : (∃ r, i = .request r ch) ∨ i = .registerConsumer k.name ch := by
  unfold Consumer.onChannel at hi
  rcases List.mem_append.1 hi with hi | hi
  · rcases List.mem_append.1 hi with hi | hi
    · split_ifs at hi
      · exact .inl ⟨_, List.mem_singleton.1 hi⟩
      · cases hi
    · split_ifs at hi
      · exact .inl ⟨_, List.mem_singleton.1 hi⟩
      · cases hi
  · exact .inr (List.mem_singleton.1 hi)

/-- It leaves the registration of the entry, and no other channel. -/
theorem Producer.onChannel_spec (p : Producer) (ch : Channel) :
    Pending (p.onChannel ch) (.producer p.name) ∧
      ∀ i ∈ p.onChannel ch, ∀ ch', i.channel? = some ch' → ch' = ch := by
  refine ⟨⟨.registerProducer p.name ch, List.mem_append_right _ (List.mem_singleton_self _), rfl⟩,
    fun i hi ch' hch => ?_⟩
  rcases Producer.mem_onChannel hi with ⟨r, rfl⟩ | rfl
  · cases hch
  · exact (Option.some.inj hch).symm

theorem Consumer.onChannel_spec (k : Consumer) (ch : Channel) :
    Pending (k.onChannel ch) (.consumer k.name) ∧
      ∀ i ∈ k.onChannel ch, ∀ ch', i.channel? = some ch' → ch' = ch := by
  refine ⟨⟨.registerConsumer k.name ch, List.mem_append_right _ (List.mem_singleton_self _), rfl⟩,
    fun i hi ch' hch => ?_⟩
  rcases Consumer.mem_onChannel hi with ⟨r, rfl⟩ | rfl
  · cases hch
  · exact (Option.some.inj hch).symm

theorem lookup_insert_ite (m : ChannelMap) (name n : String) (v : Option Channel) :
    (m.insert name v).lookup n = if n = name then some v else m.lookup n := by
  split_ifs with h
  · rw [h, AList.lookup_insert]
  · rw [AList.lookup_insert_ne h]

/-- **A set-up step, seen from the maps.**  It opens a channel on the stored
connection for an entry and leaves its registration pending, or asks something
of a channel, or registers a channel under an entry's name. -/
theorem SetupStep.exec_entry {s s' : Client} {o : Choice} {i : SetupStep} {todo : List SetupStep}
    (h : i.exec s o = .next s' todo) :
    s'.config = s.config ∧ s'.connection = s.connection ∧
      ((∃ c e, s.connection = some c ∧ i.entry? = some e ∧ i.channel? = none ∧ Pending todo e ∧
          (∀ j ∈ todo, ∀ ch, j.channel? = some ch → ch.conn = c) ∧
          ∀ e', s'.entry e' = s.entry e') ∨
        (i.entry? = none ∧ i.channel? = none ∧ todo = [] ∧ ∀ e', s'.entry e' = s.entry e') ∨
        ∃ e ch, i.entry? = some e ∧ i.channel? = some ch ∧ todo = [] ∧
          ∀ e', s'.entry e' = if e' = e then some (some ch) else s.entry e') := by
  rcases SetupStep.exec_next h with ⟨c, hc, -, rfl, hi⟩ | ⟨r, ch, rfl, rfl, rfl⟩ |
    ⟨name, ch, rfl, rfl, rfl⟩ | ⟨name, ch, rfl, rfl, rfl⟩
  · refine ⟨rfl, rfl, .inl ?_⟩
    rcases hi with ⟨p, rfl, rfl⟩ | ⟨k, rfl, rfl⟩
    · obtain ⟨hp, hch⟩ := p.onChannel_spec ⟨s.amqp.channels, c⟩
      exact ⟨c, _, hc, rfl, rfl, hp, fun j hj ch h => by rw [hch j hj ch h],
        Client.entry_congr rfl rfl⟩
    · obtain ⟨hp, hch⟩ := k.onChannel_spec ⟨s.amqp.channels, c⟩
      exact ⟨c, _, hc, rfl, rfl, hp, fun j hj ch h => by rw [hch j hj ch h],
        Client.entry_congr rfl rfl⟩
  · exact ⟨rfl, rfl, .inr (.inl ⟨rfl, rfl, rfl, fun _ => rfl⟩)⟩
  · refine ⟨rfl, rfl, .inr (.inr ⟨.producer name, ch, rfl, rfl, rfl, fun e => ?_⟩)⟩
    cases e <;> simp [Client.entry, lookup_insert_ite]
  · refine ⟨rfl, rfl, .inr (.inr ⟨.consumer name, ch, rfl, rfl, rfl, fun e => ?_⟩)⟩
    cases e <;> simp [Client.entry, lookup_insert_ite]

/-- **One step of a set-up** on the stored connection keeps every entry
registered on it or pending. -/
theorem Covered.exec {s s' : Client} {o : Choice} {c : ConnId} {i : SetupStep}
    {rest todo : List SetupStep} (hc : s.connection = some c) (h : Covered s c (i :: rest))
    (he : i.exec s o = .next s' todo) : Covered s' c (todo ++ rest) := by
  obtain ⟨hcfg, -, hcase⟩ := SetupStep.exec_entry he
  have hown : ∀ j ∈ rest, ∀ ch, j.channel? = some ch → ch.conn = c := fun j hj =>
    h.own j (List.mem_cons_of_mem _ hj)
  have hpend : ∀ {e}, Pending (i :: rest) e → i.entry? ≠ some e → Pending (todo ++ rest) e := by
    rintro e ⟨j, hj, hje⟩ hne
    rcases List.mem_cons.1 hj with rfl | hj
    · exact absurd hje hne
    · exact ⟨j, List.mem_append_right _ hj, hje⟩
  constructor
  · intro j hj
    rcases List.mem_append.1 hj with hj | hj
    · rcases hcase with ⟨c', _, hc', -, -, -, htodo, -⟩ | ⟨-, -, rfl, -⟩ | ⟨_, _, -, -, rfl, -⟩
      · obtain rfl : c = c' := Option.some.inj (hc.symm.trans hc')
        exact htodo j hj
      · cases hj
      · cases hj
    · exact hown j hj
  · intro e hm
    rw [hcfg] at hm
    rcases hcase with ⟨_, e', -, hi, -, hp, -, hs⟩ | ⟨hi, -, -, hs⟩ | ⟨e', ch, hi, hch, -, hs⟩
    · by_cases hee : e' = e
      · obtain ⟨j, hj, hje⟩ := hp
        exact .inr ⟨j, List.mem_append_left _ hj, hee ▸ hje⟩
      · rcases h.entry e hm with hr | hp
        · exact .inl (hr.congr (hs e))
        · exact .inr (hpend hp fun h => hee (Option.some.inj (hi.symm.trans h)))
    · rcases h.entry e hm with hr | hp
      · exact .inl (hr.congr (hs e))
      · exact .inr (hpend hp fun h => by rw [hi] at h; cases h)
    · by_cases hee : e = e'
      · refine .inl ⟨ch, ?_, h.own i (List.mem_cons_self ..) ch hch⟩
        rw [hs, if_pos hee]
      · rcases h.entry e hm with hr | hp
        · exact .inl (hr.congr (by rw [hs, if_neg hee]))
        · exact .inr (hpend hp fun h => hee (Option.some.inj (h.symm.trans hi)))

/-! ### The callback and the startup on their way -/

/-- What holds of the maps while the callback is the only writer: from its store
on `r.connection` is the connection it dialled, every entry is registered on it
or pending, and from the snapshot on the maps are complete. -/
def Callback.OnTrack (s : Client) : Callback → Prop
  | .dial => True
  | .store _ => True
  | .clearProducers c => s.connection = some c
  | .clearConsumers c => s.connection = some c
  | .rebuild c todo => s.connection = some c ∧ Covered s c todo
  | .restart c _ _ => s.connection = some c ∧ Complete s c
  | .dispatch c _ _ _ _ => s.connection = some c ∧ Complete s c

theorem Callback.OnTrack.congr {s s' : Client} {cb : Callback} (ht : cb.OnTrack s)
    (hcfg : s'.config = s.config) (hc : s'.connection = s.connection)
    (he : ∀ e, s'.entry e = s.entry e) : cb.OnTrack s' := by
  cases cb with
  | dial => trivial
  | store c => trivial
  | clearProducers c => exact hc.trans ht
  | clearConsumers c => exact hc.trans ht
  | rebuild c todo => exact ⟨hc.trans ht.1, ht.2.congr hcfg he⟩
  | restart c started pending => exact ⟨hc.trans ht.1, ht.2.congr hcfg he⟩
  | dispatch c started sub pending d => exact ⟨hc.trans ht.1, ht.2.congr hcfg he⟩

/-- **The callback stays on track**, and where it returns its connection, that
connection is the stored one and the maps are complete on it. -/
theorem Callback.OnTrack.step {s s' : Client} {o : Choice} {cb : Callback}
    {q : Callback ⊕ ConnId} {new : List Spawn} (ht : cb.OnTrack s) (h : cb.Moves s o s' q new) :
    match q with
    | .inl cb' => cb'.OnTrack s'
    | .inr c => s'.connection = some c ∧ Complete s' c := by
  cases h with
  | dial => trivial
  | store c => exact (rfl : _ = some c)
  | clearProducers c => exact (ht : s.connection = some c)
  | clearConsumers c => exact ⟨ht, covered_initialize _ c⟩
  | setup c hi =>
      obtain ⟨hc, hcov⟩ := ht
      exact ⟨(SetupStep.exec_entry hi).2.1.trans hc, hcov.exec hc hi⟩
  | snapshot c => exact ⟨ht.1, ht.2.complete⟩
  | found c started hl => exact ht
  | skip c started hl => exact ht
  | dispatch c started pending hd =>
      obtain ⟨⟨n, rfl⟩, -⟩ := DispatchStep.exec_inl hd
      exact ⟨ht.1, ht.2.congr rfl (Client.entry_congr rfl rfl)⟩
  | start c started pending hd =>
      obtain ⟨rfl, -⟩ := DispatchStep.exec_inr hd
      exact ⟨ht.1, ht.2.congr rfl (Client.entry_congr rfl rfl)⟩
  | finish c started => exact ht

/-- The same for a startup, up to `Start`. -/
def StartupWithContext.OnTrack (s : Client) : StartupWithContext → Prop
  | .setReconnectFunc c => s.connection = some c
  | .notifyClose c => s.connection = some c
  | .setConnectionNotify _ => ∃ c, s.connection = some c
  | .afterConnect => ∃ c, s.connection = some c
  | .producers todo =>
    ∃ c, s.connection = some c ∧ Covered s c (todo ++ s.config.initializeConsumers)
  | .afterProducers => ∃ c, s.connection = some c ∧ Covered s c s.config.initializeConsumers
  | .consumers todo => ∃ c, s.connection = some c ∧ Covered s c todo
  | .startHealth => ∃ c, s.connection = some c ∧ Complete s c
  | .startManager => ∃ c, s.connection = some c ∧ Complete s c
  | _ => True

theorem StartupWithContext.OnTrack.congr {s s' : Client} {pc : StartupWithContext}
    (ht : pc.OnTrack s) (hcfg : s'.config = s.config) (hc : s'.connection = s.connection)
    (he : ∀ e, s'.entry e = s.entry e) : pc.OnTrack s' := by
  cases pc <;> try trivial
  case setReconnectFunc c => exact hc.trans ht
  case notifyClose c => exact hc.trans ht
  case setConnectionNotify n =>
    obtain ⟨c, hcc⟩ := ht
    exact ⟨c, hc.trans hcc⟩
  case afterConnect =>
    obtain ⟨c, hcc⟩ := ht
    exact ⟨c, hc.trans hcc⟩
  case producers todo =>
    obtain ⟨c, hcc, hcov⟩ := ht
    exact ⟨c, hc.trans hcc, hcfg ▸ hcov.congr hcfg he⟩
  case afterProducers =>
    obtain ⟨c, hcc, hcov⟩ := ht
    exact ⟨c, hc.trans hcc, hcfg ▸ hcov.congr hcfg he⟩
  case consumers todo =>
    obtain ⟨c, hcc, hcov⟩ := ht
    exact ⟨c, hc.trans hcc, hcov.congr hcfg he⟩
  case startHealth =>
    obtain ⟨c, hcc, hcomp⟩ := ht
    exact ⟨c, hc.trans hcc, hcomp.congr hcfg he⟩
  case startManager =>
    obtain ⟨c, hcc, hcomp⟩ := ht
    exact ⟨c, hc.trans hcc, hcomp.congr hcfg he⟩

/-- **A startup stays on track** and leaves the `connected` flag alone, until
`Start` raises it over complete maps. -/
theorem StartupWithContext.OnTrack.step {s s' : Client} {o : Choice}
    {pc pc' : StartupWithContext} {new : List Spawn} (ht : pc.OnTrack s)
    (hu : pc.settingUp = true) (h : pc.Moves s o s' pc' new) :
    (s'.manager.connected = s.manager.connected ∧ pc'.OnTrack s') ∨
      (pc' = .registerShared ∧ ∃ c, s'.connection = some c ∧ Complete s' c) := by
  cases h with
  | store c => exact .inl ⟨rfl, rfl⟩
  | setReconnectFunc c => exact .inl ⟨rfl, ht⟩
  | notifyClose c => exact .inl ⟨rfl, c, ht⟩
  | setConnectionNotify n => exact .inl ⟨rfl, ht⟩
  | afterConnect =>
      obtain ⟨c, hc⟩ := ht
      exact .inl ⟨rfl, c, hc, covered_initialize s c⟩
  | producer hi =>
      obtain ⟨c, hc, hcov⟩ := ht
      rw [List.cons_append] at hcov
      have hcov' := hcov.exec hc hi
      rw [← List.append_assoc] at hcov'
      obtain ⟨n, P, K, rfl⟩ := SetupStep.exec_frame hi
      exact .inl ⟨rfl, c, hc, hcov'⟩
  | producersDone => exact .inl ⟨rfl, ht⟩
  | afterProducers => exact .inl ⟨rfl, ht⟩
  | consumer hi =>
      obtain ⟨c, hc, hcov⟩ := ht
      have hcov' := hcov.exec hc hi
      obtain ⟨n, P, K, rfl⟩ := SetupStep.exec_frame hi
      exact .inl ⟨rfl, c, hc, hcov'⟩
  | consumersDone =>
      obtain ⟨c, hc, hcov⟩ := ht
      exact .inl ⟨rfl, c, hc, hcov.complete⟩
  | startHealth => exact .inl ⟨rfl, ht⟩
  | startManager =>
      obtain ⟨c, hc, hcomp⟩ := ht
      exact .inr ⟨rfl, c, hc, hcomp.congr rfl (Client.entry_congr rfl rfl)⟩
  | _ => exact .inl ⟨rfl, trivial⟩

end LynxRabbit
