/-
# The channels of a set-up

`createProducer` and `createConsumer` close their channel on every error behind
`Channel()`, and register it as their last act.  Registering is an assignment to a
map under the entry's name, and two enabled entries may have the same name: the
second assignment then drops the first channel, which stays open on the broker with
nobody left to close it.

`nothing_dropped_iff` says that this is the only way to lose one.  The set-up runs
alone on an empty map, under any answers of the broker, and may end at any entry.
-/

import LynxRabbit.Setup.Run
import LynxRabbit.Subscriptions.Settings

namespace LynxRabbit

/-- Which of the two set-ups is meant. -/
inductive Role
  | producers
  | consumers
deriving DecidableEq, Repr

namespace Role

/-- The map the set-up fills. -/
def map (s : Client) : Role → ChannelMap
  | .producers => s.producers
  | .consumers => s.consumers

/-- `initializeProducers` or `initializeConsumers`. -/
def setup (cfg : RabbitMQ) : Role → List SetupStep
  | .producers => cfg.initializeProducers
  | .consumers => cfg.initializeConsumers

/-- The names of the enabled entries, in the order of the configuration. -/
def names (cfg : RabbitMQ) : Role → List String
  | .producers => cfg.getEnabledProducers.map (·.name)
  | .consumers => cfg.getEnabledConsumers.map (·.name)

def entry : Role → String → Entry
  | .producers, name => .producer name
  | .consumers, name => .consumer name

theorem lookup_map (R : Role) (s : Client) (name : String) :
    (R.map s).lookup name = s.entry (R.entry name) := by
  cases R <;> rfl

theorem entry_injective (R : Role) : Function.Injective R.entry := by
  intro a b h
  cases R <;> simpa [entry] using h

theorem opens_setup (R : Role) (cfg : RabbitMQ) : ∀ st ∈ R.setup cfg, st.opens = true := by
  intro st hst
  cases R <;> obtain ⟨k, -, rfl⟩ := List.mem_map.1 hst <;> rfl

theorem entries_setup (R : Role) (cfg : RabbitMQ) :
    (R.setup cfg).filterMap SetupStep.entry? = (R.names cfg).map R.entry := by
  cases R with
  | producers =>
      simp only [setup, names, RabbitMQ.initializeProducers, List.filterMap_map, List.map_map]
      exact congrFun List.filterMap_eq_map _
  | consumers =>
      simp only [setup, names, RabbitMQ.initializeConsumers, List.filterMap_map, List.map_map]
      exact congrFun List.filterMap_eq_map _

end Role

/-- Every channel the set-up has opened is closed or registered; and when it
succeeds, there are as many registered channels as enabled entries, and each entry
has one of its own under its name. -/
structure NothingDropped (R : Role) (s : Client) (r : SetupRun) : Prop where
  kept : ∀ id, s.amqp.channels ≤ id → id < r.client.amqp.channels →
    r.client.amqp.chanClosed id = true ∨
      ∃ name ch, (R.map r.client).lookup name = some (some ch) ∧ ch.id = id
  owned : r.err = none →
    (R.map r.client).entries.length = (R.names s.config).length ∧
      ∃ chs : List Channel, (chs.map (·.id)).Nodup ∧
        List.Forall₂ (fun name ch => (R.map r.client).lookup name = some (some ch))
          (R.names s.config) chs

/-! ### What was opened -/

/-- **A channel the set-up has opened** is one it has registered, or the last one, and
then it is closed; and the registered ones are as the set-up found them. -/
theorem SetupDone.opened {s : Client} {sts : List SetupStep} {r : SetupRun}
    {done : List (SetupStep × Channel)} (hd : SetupDone s sts r done) :
    (∀ id, s.amqp.channels ≤ id → id < r.client.amqp.channels →
      id < s.amqp.channels + done.length ∨ r.client.amqp.chanClosed id = true) ∧
      s.amqp.channels + done.length ≤ r.client.amqp.channels ∧
      ∀ id, id < s.amqp.channels + done.length →
        r.client.amqp.chanClosed id = s.amqp.chanClosed id := by
  obtain ⟨b, hb, hclient⟩ := hd.client
  have hamqp : r.client.amqp = b := by rw [hclient]
  rw [hamqp]
  rcases hb with rfl | ⟨-, c, rfl⟩
  · exact ⟨fun id _ hlt => .inl hlt, Nat.le_refl _, fun id _ => rfl⟩
  · refine ⟨fun id hle hlt => ?_, Nat.le_succ _, fun id hlt => ?_⟩
    · by_cases hid : id = s.amqp.channels + done.length
      · refine .inr ?_
        subst hid
        exact Function.update_self ..
      · have hlt' : id < s.amqp.channels + done.length + 1 := hlt
        exact .inl (by omega)
    · have hne : id ≠ s.amqp.channels + done.length := by omega
      exact Function.update_of_ne hne ..

/-- The channels of a list of registrations, entry by entry. -/
theorem forall₂_of_registered {R : Role} {s : Client} {names : List String}
    {es : List (Entry × Channel)} (hnames : es.map (·.1) = names.map R.entry)
    (h : ∀ e ∈ es, s.entry e.1 = some (some e.2)) :
    List.Forall₂ (fun name ch => (R.map s).lookup name = some (some ch)) names (es.map (·.2)) := by
  induction names generalizing es with
  | nil =>
      obtain rfl := List.map_eq_nil_iff.1 hnames
      exact .nil
  | cons name names ih =>
      obtain ⟨e, es, rfl, he, hrest⟩ := List.map_eq_cons_iff.1 hnames
      obtain ⟨hhead, htail⟩ := List.forall_mem_cons.1 h
      rw [List.map_cons]
      refine .cons ?_ (ih hrest htail)
      rw [R.lookup_map, ← he]
      exact hhead

/-- A map whose names are those of a list without repetition has as many entries. -/
theorem length_entries_of_keys {m : ChannelMap} {names : List String} (hnodup : names.Nodup)
    (h : ∀ name, name ∈ m ↔ name ∈ names) : m.entries.length = names.length := by
  have hperm : m.keys.Perm names :=
    (List.perm_ext_iff_of_nodup m.keys_nodup hnodup).2 fun name =>
      (AList.mem_keys).symm.trans (h name)
  have hlen := hperm.length_eq
  rwa [AList.keys, List.keys, List.length_map] at hlen

/-! ### The statement -/

section

variable {R : Role} {s : Client} {r : SetupRun} {done : List (SetupStep × Channel)}

theorem SetupDone.entry (hd : SetupDone s (R.setup s.config) r done) (e : Entry) :
    r.client.entry e = (s.putAll r.registered).entry e := by
  obtain ⟨b, -, hclient⟩ := hd.client
  rw [hclient]
  exact Client.entry_congr rfl rfl e

/-- **Distinct names lose nothing.** -/
theorem SetupDone.nothingDropped (hd : SetupDone s (R.setup s.config) r done)
    (hempty : R.map s = ∅) (hnodup : (r.registered.map (·.1)).Nodup) : NothingDropped R s r := by
  obtain ⟨-, hall, hids, hlen⟩ := hd.registered (R.opens_setup s.config)
  rw [R.entries_setup] at hall
  have hhold : ∀ e ∈ r.registered, r.client.entry e.1 = some (some e.2) := fun e he =>
    (hd.entry e.1).trans (Client.entry_putAll_of_mem hnodup he)
  refine ⟨fun id hle hlt => ?_, fun herr => ⟨?_, r.registered.map (·.2), ?_, ?_⟩⟩
  · rcases hd.opened.1 id hle hlt with hreg | hclosed
    · have hmem : id ∈ r.registered.map (·.2.id) := by
        rw [hids, List.mem_range'_1]
        omega
      obtain ⟨e, he, rfl⟩ := List.mem_map.1 hmem
      have hname : e.1 ∈ (R.names s.config).map R.entry := by
        have hpre := (hd.registered (R.opens_setup s.config)).1
        rw [R.entries_setup] at hpre
        exact hpre.subset (List.mem_map_of_mem he)
      obtain ⟨name, -, hn⟩ := List.mem_map.1 hname
      refine .inr ⟨name, e.2, ?_, rfl⟩
      rw [R.lookup_map, hn]
      exact hhold e he
    · exact .inl hclosed
  · rw [hall herr] at hnodup
    refine length_entries_of_keys (hnodup.of_map _) fun name => ?_
    rw [← AList.lookup_isSome, R.lookup_map, hd.entry]
    constructor
    · intro hsome
      by_contra hno
      have hnot : R.entry name ∉ r.registered.map (·.1) := by
        rw [hall herr, List.mem_map]
        rintro ⟨n, hn, he⟩
        exact hno (R.entry_injective he ▸ hn)
      rw [Client.entry_putAll_of_notMem hnot, ← R.lookup_map, hempty] at hsome
      cases hsome
    · intro hmem
      have hin : R.entry name ∈ r.registered.map (·.1) := by
        rw [hall herr]
        exact List.mem_map_of_mem hmem
      obtain ⟨e, he, hn⟩ := List.mem_map.1 hin
      rw [← hn, ← hd.entry, hhold e he]
      rfl
  · rw [List.map_map]
    have hnd : (r.registered.map (·.2.id)).Nodup := by
      rw [hids]
      exact List.nodup_range'
    exact hnd
  · exact forall₂_of_registered (hall herr) hhold

/-- **What loses nothing has distinct names.**  Every channel that was registered is
still open, so it must still be in the map; two entries of one name cannot both be. -/
theorem SetupDone.nodup_of_kept (hd : SetupDone s (R.setup s.config) r done)
    (hempty : R.map s = ∅) (hfresh : ∀ id, s.amqp.channels ≤ id → s.amqp.chanClosed id = false)
    (h : NothingDropped R s r) : (r.registered.map (·.1)).Nodup := by
  obtain ⟨-, -, hids, hlen⟩ := hd.registered (R.opens_setup s.config)
  have hnd : (r.registered.map (·.2.id)).Nodup := by
    rw [hids]
    exact List.nodup_range'
  have hhold : ∀ e ∈ r.registered, (s.putAll r.registered).entry e.1 = some (some e.2) := by
    intro e he
    have hrange : e.2.id ∈ List.range' s.amqp.channels r.registered.length := by
      rw [← hids]
      exact List.mem_map_of_mem he
    rw [List.mem_range'_1, hlen] at hrange
    have hopen : r.client.amqp.chanClosed e.2.id = false :=
      (hd.opened.2.2 _ hrange.2).trans (hfresh _ hrange.1)
    rcases h.kept e.2.id hrange.1 (hrange.2.trans_le hd.opened.2.1) with hc | ⟨name, ch, hl, hid⟩
    · rw [hopen] at hc
      cases hc
    · rw [R.lookup_map, hd.entry] at hl
      rcases Client.mem_of_entry_putAll hl with hs | hmem
      · rw [← R.lookup_map, hempty] at hs
        cases hs
      · have heq : (R.entry name, ch) = e := List.inj_on_of_nodup_map hnd hmem he hid
        rw [← heq]
        exact hl
  refine List.Nodup.map_on (fun a ha b hb hab => ?_) (hnd.of_map _)
  have hch : a.2 = b.2 := by
    have := (hhold a ha).symm.trans (hab ▸ hhold b hb)
    simpa using this
  exact Prod.ext hab hch

end

/-- **No channel is dropped exactly when the registered names are distinct.**  For
both set-ups, on any client whose map is empty, under any answers of the broker: the
set-up has registered the first few enabled entries, all of them when it succeeds;
and every channel it has opened is closed or registered, with one for each enabled
entry in the end, if and only if no two of these first entries have the same name. -/
theorem nothing_dropped_iff (R : Role) (s : Client) (os : List Choice) (r : SetupRun)
    (hempty : R.map s = ∅) (hfresh : ∀ id, s.amqp.channels ≤ id → s.amqp.chanClosed id = false)
    (hrun : runSetup s (R.setup s.config) os = some r) :
    r.registered.map (·.1) = ((R.names s.config).take r.registered.length).map R.entry ∧
      (r.err = none → r.registered.length = (R.names s.config).length) ∧
      (NothingDropped R s r ↔ ((R.names s.config).take r.registered.length).Nodup) := by
  obtain ⟨done, hd⟩ := runSetup_creates (R.opens_setup s.config) hrun
  obtain ⟨hpre, hall, -, -⟩ := hd.registered (R.opens_setup s.config)
  rw [R.entries_setup] at hpre hall
  have hfirst : r.registered.map (·.1) =
      ((R.names s.config).take r.registered.length).map R.entry := by
    rw [List.map_take, List.prefix_iff_eq_take.1 hpre, List.length_map]
  refine ⟨hfirst, fun herr => ?_, ?_⟩
  · have hlen := congrArg List.length (hall herr)
    rwa [List.length_map, List.length_map] at hlen
  · rw [← List.nodup_map_iff R.entry_injective, ← hfirst]
    exact ⟨hd.nodup_of_kept hempty hfresh, hd.nothingDropped hempty⟩

/-- Two consumers under names of their own. -/
theorem nothing_dropped_two_consumers :
    ∃ r, normalizeRabbitMQConfig (some twoConsumers.scanned) = .ok twoConsumers ∧
      runSetup (connectedClient twoConsumers) twoConsumers.initializeConsumers
        (List.replicate 8 .ok) = some r ∧ r.err = none ∧
      NothingDropped .consumers (connectedClient twoConsumers) r := by
  refine ⟨_, rfl, rfl, rfl, ?_⟩
  exact (nothing_dropped_iff .consumers (connectedClient twoConsumers) (List.replicate 8 .ok) _
    rfl (fun _ _ => rfl) rfl).2.2.2 (by decide)

/-- Two enabled producers of one name. -/
def sameName : RabbitMQ :=
  { defaultRabbitMQConfig with
    producers := [
      { name := "orders", enabled := true, exchange := "ex.orders", exchangeType := "direct",
        publishTimeout := some (3 * second), maxRetries := 3,
        retryBackoff := some (100 * millisecond) },
      { name := "orders", enabled := true, exchange := "ex.audit", exchangeType := "fanout",
        publishTimeout := some (3 * second), maxRetries := 3,
        retryBackoff := some (100 * millisecond) }] }

/-- **A channel nobody will close.**  The set-up succeeds; channel 0 is open and under
no name. -/
theorem channel_dropped :
    ∃ r, normalizeRabbitMQConfig (some sameName.scanned) = .ok sameName ∧
      runSetup (connectedClient sameName) sameName.initializeProducers
        (List.replicate 8 .ok) = some r ∧ r.err = none ∧
      r.client.amqp.channels = 2 ∧ r.client.amqp.chanClosed 0 = false ∧
      r.client.producers.entries = [⟨"orders", some ⟨1, 0⟩⟩] ∧
      ¬ NothingDropped .producers (connectedClient sameName) r := by
  refine ⟨_, rfl, rfl, rfl, by decide, by decide, by decide, fun h => ?_⟩
  have hlen := (h.owned rfl).1
  exact absurd hlen (by decide)

end LynxRabbit
