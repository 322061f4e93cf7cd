/-
# Which entry a consumer name stands for

Two paths of `client.go` resolve a consumer name to an entry of the configuration.
`initializeConsumers` ranges over the enabled entries and registers each one's
channel under its name, so the last enabled entry of a name wins.
`startDispatchLoop` reads `AutoAck` and `PrefetchCount` from the first entry of the
full list with that name, enabled or not.

`runSetup_createConsumers` says what a set-up of consumers that succeeds leaves
behind: a fresh channel for each enabled entry, its queue declared on it, and the
channels registered in order.
-/

import LynxRabbit.Conf.Normalize
import LynxRabbit.Setup.Run

namespace LynxRabbit

/-- The queue a step declares, and the channel it does so on. -/
def SetupStep.declares : SetupStep → Option (Consumer × Channel)
  | .request (.queueDeclare c) ch => some (c, ch)
  | _ => none

/-- The queues a set-up has declared, in order. -/
def SetupRun.declared (r : SetupRun) : List (Consumer × Channel) :=
  r.taken.filterMap SetupStep.declares

/-- The channels of the entries, in order. -/
def register (m : ChannelMap) (es : List (Consumer × Channel)) : ChannelMap :=
  es.foldl (fun m e => m.insert e.1.name (some e.2)) m

/-- On its channel, a consumer with a queue declares that queue and nothing else. -/
theorem Consumer.declares_onChannel {c : Consumer} (hq : c.queue ≠ "") (ch : Channel) :
    (c.onChannel ch).filterMap SetupStep.declares = [(c, ch)] := by
  unfold Consumer.onChannel
  rw [if_pos hq]
  split_ifs <;> rfl

/-- The registrations of consumers fill their map alone. -/
theorem putAll_consumers (s : Client) (D : List (Consumer × Channel)) :
    (s.putAll (D.map fun e => (.consumer e.1.name, e.2))).consumers = register s.consumers D ∧
      (s.putAll (D.map fun e => (.consumer e.1.name, e.2))).config = s.config := by
  induction D generalizing s with
  | nil => exact ⟨rfl, rfl⟩
  | cons e D ih => exact ih (s.put (.consumer e.1.name) e.2)

/-- The queues declared by the entries that are done, and their registrations. -/
theorem declared_of_done {cs : List Consumer} {done : List (SetupStep × Channel)}
    (hdone : done.map (·.1) = cs.map .createConsumer) (hq : ∀ c ∈ cs, c.queue ≠ "") :
    ∃ D : List (Consumer × Channel), D.map (·.1) = cs ∧ D.map (·.2.id) = done.map (·.2.id) ∧
      (done.flatMap fun d => d.1 :: d.1.body d.2).filterMap SetupStep.declares = D ∧
      (done.filterMap fun d => Option.map (·, d.2) <| SetupStep.entry? d.1) =
        D.map fun e => (.consumer e.1.name, e.2) := by
  induction cs generalizing done with
  | nil =>
      obtain rfl := List.map_eq_nil_iff.1 hdone
      exact ⟨[], rfl, rfl, rfl, rfl⟩
  | cons c cs ih =>
      obtain ⟨⟨st, ch⟩, done, rfl, rfl, hrest⟩ := List.map_eq_cons_iff.1 hdone
      obtain ⟨hc, hcs⟩ := List.forall_mem_cons.1 hq
      obtain ⟨D, hfst, hids, hdecl, hreg⟩ := ih hrest hcs
      refine ⟨(c, ch) :: D, ?_, ?_, ?_, ?_⟩
      · rw [List.map_cons, hfst]
      · rw [List.map_cons, List.map_cons, hids]
      · rw [List.flatMap_cons, List.filterMap_append, hdecl, List.filterMap_cons]
        have hbody := Consumer.declares_onChannel hc ch
        simp only [SetupStep.declares, SetupStep.body, hbody]
        rfl
      · rw [List.filterMap_cons, hreg]
        rfl

/-- **What `initializeConsumers` leaves behind.**  Each entry's queue was declared
on a channel of its own, and the channels were registered in the order of the
entries. -/
theorem runSetup_createConsumers {cs : List Consumer} {s s' : Client} {taken : List SetupStep}
    {os : List Choice} (hq : ∀ c ∈ cs, c.queue ≠ "")
    (h : runSetup s (cs.map .createConsumer) os = some ⟨s', none, taken⟩) :
    (taken.filterMap SetupStep.declares).map (·.1) = cs ∧
      (taken.filterMap SetupStep.declares).map (·.2.id) =
        List.range' s.amqp.channels cs.length ∧
      s'.config = s.config ∧
      s'.consumers = register s.consumers (taken.filterMap SetupStep.declares) := by
  have hopens : ∀ st ∈ cs.map SetupStep.createConsumer, st.opens = true := by
    intro st hst
    obtain ⟨c, -, rfl⟩ := List.mem_map.1 hst
    rfl
  obtain ⟨done, hd⟩ := runSetup_creates hopens h
  have hall : done.map (·.1) = cs.map .createConsumer := hd.all rfl
  obtain ⟨D, hfst, hids, hdecl, hreg⟩ := declared_of_done hall hq
  obtain ⟨tail, htaken, -, hnil⟩ := hd.taken
  obtain ⟨b, -, hclient⟩ := hd.client
  have htaken' : taken.filterMap SetupStep.declares = D := by
    rw [show taken = _ from htaken, hnil rfl, List.append_nil, hdecl]
  have hlen : done.length = cs.length := by simpa using congrArg List.length hall
  obtain ⟨hmap, hcfg⟩ := putAll_consumers s D
  rw [hd.names, hreg] at hclient
  refine ⟨?_, ?_, ?_, ?_⟩
  · rw [htaken', hfst]
  · rw [htaken', hids, hd.ids, hlen]
  · rw [show s' = _ from hclient]
    exact hcfg
  · rw [show s' = _ from hclient, htaken']
    exact hmap

/-! ### Last writer wins -/

/-- What a name stands for after a list of registrations. -/
theorem lookup_register (name : String) : ∀ (es : List (Consumer × Channel)) (m : ChannelMap),
    (register m es).lookup name =
      match es.reverse.find? (·.1.name == name) with
      | some e => some (some e.2)
      | none => m.lookup name
  | [], m => rfl
  | e :: es, m => by
      have hcons : register m (e :: es) = register (m.insert e.1.name (some e.2)) es := rfl
      rw [hcons, lookup_register name es, List.reverse_cons, List.find?_append]
      cases hf : es.reverse.find? (·.1.name == name) with
      | some d => rfl
      | none =>
          by_cases hn : e.1.name = name
          · subst hn
            simp
          · simp [hn, AList.lookup_insert_ne (Ne.symm hn)]

/-- An entry found under its name in a list of pairs is the one found in the list
of entries. -/
theorem find?_map_fst (name : String) : ∀ es : List (Consumer × Channel),
    (es.find? (·.1.name == name)).map (·.1) = (es.map (·.1)).find? (·.name == name)
  | [] => rfl
  | e :: es => by
      rw [List.map_cons, List.find?_cons, List.find?_cons]
      cases h : e.1.name == name
      · exact find?_map_fst name es
      · rfl

/-! ### The two resolutions -/

/-- The settings `startDispatchLoop` takes from an entry. -/
def Consumer.settings (c : Consumer) : Bool × ℤ := (c.autoAck, c.prefetchCount)

/-- For every name of an enabled entry, the first entry of that name in the full
list has the settings of the last enabled one. -/
def RabbitMQ.firstLikeLast (cfg : RabbitMQ) : Bool :=
  cfg.getEnabledConsumers.all fun c =>
    decide ((cfg.consumers.find? (·.name == c.name)).map Consumer.settings =
      (cfg.getEnabledConsumers.reverse.find? (·.name == c.name)).map Consumer.settings)

/-- Under every registered name `startDispatchLoop` uses the settings of the
enabled entry of that name whose queue was declared on the registered channel. -/
def AckModeAgrees (r : SetupRun) : Prop :=
  ∀ name ch, r.client.consumers.lookup name = some ch →
    ∃ c ∈ r.client.config.getEnabledConsumers, ∃ ch', c.name = name ∧ ch = some ch' ∧
      .request (.queueDeclare c) ch' ∈ r.taken ∧
      r.client.config.dispatchSettings name = c.settings

theorem mem_declared {r : SetupRun} {c : Consumer} {ch : Channel} :
    (c, ch) ∈ r.declared ↔ .request (.queueDeclare c) ch ∈ r.taken := by
  unfold SetupRun.declared
  rw [List.mem_filterMap]
  constructor
  · rintro ⟨st, hst, hd⟩
    unfold SetupStep.declares at hd
    split at hd <;> cases hd
    exact hst
  · exact fun h => ⟨_, h, rfl⟩

theorem dispatchSettings_of_find {cfg : RabbitMQ} {name : String} {b : Consumer}
    (h : cfg.consumers.find? (·.name == name) = some b) :
    cfg.dispatchSettings name = b.settings := by
  unfold RabbitMQ.dispatchSettings
  rw [h]
  rfl

/-- The entry that wins a name: the last enabled one. -/
theorem exists_last {cfg : RabbitMQ} {c : Consumer} (hc : c ∈ cfg.getEnabledConsumers) :
    ∃ l ∈ cfg.getEnabledConsumers, l.name = c.name ∧
      cfg.getEnabledConsumers.reverse.find? (·.name == c.name) = some l ∧
      ∃ b, cfg.consumers.find? (·.name == c.name) = some b := by
  have hsome : (cfg.getEnabledConsumers.reverse.find? (·.name == c.name)).isSome = true :=
    List.find?_isSome.2 ⟨c, List.mem_reverse.2 hc, beq_self_eq_true _⟩
  have hfirst : (cfg.consumers.find? (·.name == c.name)).isSome = true :=
    List.find?_isSome.2 ⟨c, List.mem_of_mem_filter hc, beq_self_eq_true _⟩
  obtain ⟨l, hl⟩ := Option.isSome_iff_exists.1 hsome
  obtain ⟨b, hb⟩ := Option.isSome_iff_exists.1 hfirst
  have hname : (l.name == c.name) = true :=
    List.find?_some (p := fun d : Consumer => d.name == c.name) hl
  exact ⟨l, List.mem_reverse.1 (List.mem_of_find?_eq_some hl), beq_iff_eq.1 hname, hl, b, hb⟩

/-- The channel registered under a name is the one the queue of the last enabled
entry was declared on. -/
theorem lookup_of_last {cfg : RabbitMQ} {m : ChannelMap} {D : List (Consumer × Channel)}
    (hfst : D.map (·.1) = cfg.getEnabledConsumers) {name : String} {l : Consumer}
    (hl : cfg.getEnabledConsumers.reverse.find? (·.name == name) = some l) :
    ∃ ch, (l, ch) ∈ D ∧ (register m D).lookup name = some (some ch) := by
  have hfind := find?_map_fst name D.reverse
  rw [List.map_reverse, hfst, hl] at hfind
  obtain ⟨⟨l', ch⟩, he, heq⟩ := Option.map_eq_some_iff.1 hfind
  obtain rfl : l' = l := heq
  refine ⟨ch, List.mem_reverse.1 (List.mem_of_find?_eq_some he), ?_⟩
  rw [lookup_register, he]

/-- Every registered name is that of an enabled entry. -/
theorem exists_enabled_of_lookup {cfg : RabbitMQ} {m : ChannelMap} {D : List (Consumer × Channel)}
    (hfst : D.map (·.1) = cfg.getEnabledConsumers)
    (hold : ∀ name ∈ m, ∃ c ∈ cfg.getEnabledConsumers, c.name = name) {name : String}
    {ch : Option Channel} (h : (register m D).lookup name = some ch) :
    ∃ c ∈ cfg.getEnabledConsumers, c.name = name := by
  rw [lookup_register] at h
  split at h
  · rename_i e he
    have hname : (e.1.name == name) = true :=
      List.find?_some (p := fun d : Consumer × Channel => d.1.name == name) he
    refine ⟨e.1, ?_, beq_iff_eq.1 hname⟩
    rw [← hfst]
    exact List.mem_map_of_mem (List.mem_reverse.1 (List.mem_of_find?_eq_some he))
  · exact hold name (AList.lookup_isSome.1 (by rw [h]; rfl))

/-- **The acknowledgement mode is that of the consumer that was set up** if and
only if, for every name of an enabled entry, the first entry of the name in the
full list, enabled or not, and the last enabled one have the same settings.  The
map may hold earlier registrations of enabled entries. -/
theorem ack_mode_agrees_iff (raw : Option ScannedRabbitMQ) (s s' : Client) (os : List Choice)
    (taken : List SetupStep) (hcfg : normalizeRabbitMQConfig raw = .ok s.config)
    (hold : ∀ name ∈ s.consumers, ∃ c ∈ s.config.getEnabledConsumers, c.name = name)
    (hrun : runSetup s s.config.initializeConsumers os = some ⟨s', none, taken⟩) :
    AckModeAgrees ⟨s', none, taken⟩ ↔ s.config.firstLikeLast = true := by
  have hqueue : ∀ c ∈ s.config.getEnabledConsumers, c.queue ≠ "" := fun c hc =>
    ((normal_of_normalize hcfg).consumers c (List.mem_of_mem_filter hc)).queue
  obtain ⟨hfst, hids, hconf, hmap⟩ := runSetup_createConsumers hqueue hrun
  have hnodup : ((SetupRun.declared ⟨s', none, taken⟩).map (·.2.id)).Nodup := by
    rw [show (SetupRun.declared ⟨s', none, taken⟩).map (·.2.id) = _ from hids]
    exact List.nodup_range'
  simp only [AckModeAgrees, hmap, hconf, RabbitMQ.firstLikeLast, List.all_eq_true,
    decide_eq_true_eq]
  constructor
  · intro hagree c hc
    obtain ⟨l, -, -, hl, b, hb⟩ := exists_last hc
    obtain ⟨ch, hmem, hlook⟩ := lookup_of_last (m := s.consumers) hfst hl
    obtain ⟨c', -, ch', -, hch, htaken, hset⟩ := hagree c.name (some ch) hlook
    obtain rfl := Option.some.inj hch
    -- the channel is fresh, so only one queue was declared on it
    have heq : (c', ch) = (l, ch) :=
      List.inj_on_of_nodup_map hnodup (mem_declared.2 htaken) hmem rfl
    rw [hb, hl, Option.map_some, Option.map_some, ← dispatchSettings_of_find hb, hset,
      (Prod.mk.inj heq).1]
  · intro hfirst name ch hlook
    obtain ⟨c, hc, rfl⟩ := exists_enabled_of_lookup hfst hold hlook
    obtain ⟨l, hlmem, hname, hl, b, hb⟩ := exists_last hc
    obtain ⟨ch', hmem, hlook'⟩ := lookup_of_last (m := s.consumers) hfst hl
    have hsettings := hfirst c hc
    rw [hb, hl, Option.map_some, Option.map_some] at hsettings
    refine ⟨l, hlmem, ch', hname, Option.some.inj (hlook.symm.trans hlook'),
      (mem_declared (r := ⟨s', none, taken⟩)).1 hmem, ?_⟩
    rw [dispatchSettings_of_find hb, Option.some.inj hsettings]

/-- Two consumers, each under a name of its own. -/
def twoConsumers : RabbitMQ :=
  { defaultRabbitMQConfig with
    consumers := [
      { name := "orders", enabled := true, queue := "q.orders", consumerTag := defaultConsumer,
        maxConcurrency := 1, prefetchCount := 1 },
      { name := "audit", enabled := true, queue := "q.audit", consumerTag := defaultConsumer,
        maxConcurrency := 1, prefetchCount := 8, autoAck := true }] }

/-- A client with this configuration and one open connection. -/
def connectedClient (cfg : RabbitMQ) : Client where
  config := cfg
  connection := some 0
  amqp := { dialled := 1 }

theorem ack_mode_agrees_two_consumers :
    ∃ (s' : Client) (taken : List SetupStep),
      normalizeRabbitMQConfig (some twoConsumers.scanned) = .ok twoConsumers ∧
      runSetup (connectedClient twoConsumers) twoConsumers.initializeConsumers
        (List.replicate 8 .ok) = some ⟨s', none, taken⟩ ∧ AckModeAgrees ⟨s', none, taken⟩ := by
  refine ⟨_, _, rfl, rfl, ?_⟩
  exact (ack_mode_agrees_iff (some twoConsumers.scanned) (connectedClient twoConsumers) _
    (List.replicate 8 .ok) _ rfl (fun name hn => absurd hn (AList.notMem_empty name)) rfl).2
    (by decide)

/-- A disabled entry in front of the enabled one of the same name. -/
def shadowedConsumer : RabbitMQ :=
  { defaultRabbitMQConfig with
    consumers := [
      { name := "orders", enabled := false, queue := "q.old", consumerTag := defaultConsumer,
        maxConcurrency := 1, prefetchCount := 8, autoAck := true },
      { name := "orders", enabled := true, queue := "q.orders", consumerTag := defaultConsumer,
        maxConcurrency := 1, prefetchCount := 1 }] }

theorem ack_mode_of_disabled_entry :
    ∃ (s' : Client) (taken : List SetupStep),
      normalizeRabbitMQConfig (some shadowedConsumer.scanned) = .ok shadowedConsumer ∧
      runSetup (connectedClient shadowedConsumer) shadowedConsumer.initializeConsumers
        (List.replicate 4 .ok) = some ⟨s', none, taken⟩ ∧
      s'.consumers.lookup "orders" = some (some ⟨0, 0⟩) ∧
      (taken.filterMap SetupStep.declares).map (fun e => (e.1.queue, e.1.settings, e.2)) =
        [("q.orders", (false, 1), ⟨0, 0⟩)] ∧
      s'.config.dispatchSettings "orders" = (true, 8) ∧ ¬ AckModeAgrees ⟨s', none, taken⟩ := by
  refine ⟨_, _, rfl, rfl, by decide, by decide, by decide, fun hagree => ?_⟩
  have henabled : ∀ c ∈ shadowedConsumer.getEnabledConsumers, c.settings = (false, 1) := by decide
  obtain ⟨c, hc, ch', -, -, -, hset⟩ := hagree "orders" (some ⟨0, 0⟩) (by decide)
  have hread : shadowedConsumer.dispatchSettings "orders" = (true, 8) := by decide
  exact absurd (hread.symm.trans (hset.trans (henabled c hc))) (by decide)

end LynxRabbit
