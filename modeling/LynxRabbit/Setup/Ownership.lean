/-
# Who owns a channel

Every channel the client opens has one owner.  `createProducer`, `createConsumer` and
`startDispatchLoop` own the channel they have opened until they close it on an error or
hand it on: to the producers map, to the consumers map, or to the dispatch loop they
start.  So a goroutine owns at most one channel, and a channel is owned by one goroutine
or registered in the producers map, never both (`Separate`).

`Transfer` lists what a step can do to the ownership; the count of owners follows from
it once for all routines.  `Thread.step_closes` says whose channels a step closes: the
mover's own.
-/

import LynxRabbit.Setup.Run
import LynxRabbit.Subscriptions.Names

namespace LynxRabbit

open Runs

/-- The channel a set-up step works on. -/
def SetupStep.own? : SetupStep → Option Channel
  | .request _ ch => some ch
  | .registerProducer _ ch => some ch
  | .registerConsumer _ ch => some ch
  | _ => none

/-- The channel of the entry a set-up is at. -/
def headOwn (todo : List SetupStep) : Option Channel := todo.head?.bind SetupStep.own?

/-- The channel a `startDispatchLoop` has opened. -/
def DispatchStep.own? : DispatchStep → Option Channel
  | .qos ch => some ch
  | .consume ch => some ch
  | .start ch => some ch
  | _ => none

def Callback.own? : Callback → Option Channel
  | .rebuild _ todo => headOwn todo
  | .dispatch _ _ _ _ d => d.own?
  | _ => none

def SubscribeCall.own? : SubscribeCall → Option Channel
  | .dispatch _ d => d.own?
  | _ => none

/-- The channel a goroutine owns. -/
def Thread.own? : Thread → Option Channel
  | .watcher (.callback _ cb) => cb.own?
  | .force (.callback cb) => cb.own?
  | .startup pc => headOwn pc.todo
  | .subscribe _ pc => pc.own?
  | .loop l _ => some l.channel
  | _ => none

def Thread.ownsId (id : ℕ) (t : Thread) : Bool := t.own?.any (·.id == id)

/-- The channel is registered under a producer's name. -/
def Client.registers (s : Client) (id : ℕ) : Bool :=
  s.producers.entries.any fun e => e.2.any (·.id == id)

/-- How often channel `id` is owned. -/
def owners (p : State) (id : ℕ) : ℕ :=
  p.threads.countP (Thread.ownsId id) + (p.shared.registers id).toNat

/-- A list of set-up steps: entries to open, behind what is left of at most one that is
open. -/
inductive Tidy : List SetupStep → Prop
  | closed {todo : List SetupStep} : (∀ i ∈ todo, i.opens = true) → Tidy todo
  | on (rs : List Request) (e : Entry) (ch : Channel) {rest : List SetupStep} :
      (∀ i ∈ rest, i.opens = true) →
        Tidy (List.map (fun r => .request r ch) rs ++ e.register ch :: rest)

/-- What a step can do to the ownership of channels. -/
inductive Transfer (s s' : Client) (t t' : Thread) : List Thread → Prop
  | keep {new : List Thread} : t'.own? = t.own? ∨ t'.own? = none → (∀ u ∈ new, u.own? = none) →
      s'.producers = s.producers ∨ s'.producers = ∅ → s.amqp.channels ≤ s'.amqp.channels →
        Transfer s s' t t' new
  | opened (c : ConnId) : t'.own? = some ⟨s.amqp.channels, c⟩ → s'.producers = s.producers →
      s'.amqp.channels = s.amqp.channels + 1 → Transfer s s' t t' []
  | started (l : Loop) : t.own? = some l.channel → t'.own? = none → s'.producers = s.producers →
      s'.amqp.channels = s.amqp.channels → Transfer s s' t t' [.loop l .select]
  | registered (name : String) (ch : Channel) : t.own? = some ch →
      .registerProducer name ch ∈ t.todo → t'.own? = none →
        s'.producers = s.producers.insert name (some ch) →
          s'.amqp.channels = s.amqp.channels → Transfer s s' t t' []

/-! ### Set-ups -/

theorem headOwn_of_opens {todo : List SetupStep} (h : ∀ i ∈ todo, i.opens = true) :
    headOwn todo = none := by
  cases todo with
  | nil => rfl
  | cons i rest =>
      have hi := h i (List.mem_cons_self ..)
      cases i <;> first | rfl | cases hi

theorem headOwn_on (rs : List Request) (e : Entry) (ch : Channel) (rest : List SetupStep) :
    headOwn (List.map (fun r => .request r ch) rs ++ e.register ch :: rest) = some ch := by
  cases rs with
  | nil => cases e <;> rfl
  | cons r rs => rfl

theorem opens_setups (cfg : RabbitMQ) :
    (∀ i ∈ cfg.initializeProducers, i.opens = true) ∧
      ∀ i ∈ cfg.initializeConsumers, i.opens = true := by
  constructor <;>
  · intro i hi
    obtain ⟨k, -, rfl⟩ := List.mem_map.1 hi
    rfl

theorem opens_of_nil {todo : List SetupStep} (h : todo = []) : ∀ i ∈ todo, i.opens = true := by
  rintro i hi
  rw [h] at hi
  cases hi

/-- The channel a set-up is going to register is the one it owns. -/
theorem Tidy.own_of_mem {todo : List SetupStep} (h : Tidy todo) {name : String} {ch : Channel}
    (hm : .registerProducer name ch ∈ todo) : headOwn todo = some ch := by
  cases h with
  | closed ho => cases ho _ hm
  | on rs e ch' ho =>
      rw [headOwn_on]
      rcases List.mem_append.1 hm with hm | hm
      · obtain ⟨r, -, hr⟩ := List.mem_map.1 hm
        cases hr
      · rcases List.mem_cons.1 hm with he | hm
        · cases e <;> cases he
          rfl
        · cases ho _ hm

/-- A step passes ownership on as `Transfer` says, leaves a tidy list, and adds to the
channels to be registered at most the one it has just opened. -/
structure Passes (s s' : Client) (t t' : Thread) (new : List Thread) : Prop where
  tidy : Tidy t'.todo
  transfer : Transfer s s' t t' new
  pending : ∀ name ch, .registerProducer name ch ∈ t'.todo →
    .registerProducer name ch ∈ t.todo ∨ ch.id = s.amqp.channels

/-- A step that opens and registers nothing, leaves entries to open at most, and starts
goroutines that own nothing. -/
theorem Passes.spawn {s s' : Client} {t t' : Thread} {new : List Thread}
    (htodo : ∀ i ∈ t'.todo, i.opens = true) (hown : t'.own? = t.own? ∨ t'.own? = none)
    (hnew : ∀ u ∈ new, u.own? = none) (hp : s'.producers = s.producers ∨ s'.producers = ∅)
    (hch : s.amqp.channels ≤ s'.amqp.channels) : Passes s s' t t' new :=
  ⟨.closed htodo, .keep hown hnew hp hch, fun name ch hm => by cases htodo _ hm⟩

/-- The same with nothing started. -/
theorem Passes.still {s s' : Client} {t t' : Thread} (htodo : ∀ i ∈ t'.todo, i.opens = true)
    (hown : t'.own? = t.own? ∨ t'.own? = none)
    (hp : s'.producers = s.producers ∨ s'.producers = ∅)
    (hch : s.amqp.channels ≤ s'.amqp.channels) : Passes s s' t t' [] :=
  .spawn htodo hown (List.forall_mem_nil _) hp hch

/-- The same for one that owns nothing afterwards and touches neither the producers map
nor the channels. -/
theorem Passes.idle {s s' : Client} {t t' : Thread} (htodo : t'.todo = []) (hown : t'.own? = none)
    (hp : s'.producers = s.producers) (hch : s'.amqp.channels = s.amqp.channels) :
    Passes s s' t t' [] :=
  .still (opens_of_nil htodo) (.inr hown) (.inl hp) hch.ge

/-- **A set-up step that goes on**: it opens the channel of the next entry, makes a
request on it, or registers it. -/
theorem Tidy.exec {s s' : Client} {o : Choice} {i : SetupStep} {rest todo : List SetupStep}
    (h : Tidy (i :: rest)) (he : i.exec s o = .next s' todo) {t t' : Thread}
    (ht : t.own? = headOwn (i :: rest)) (htodo : t.todo = i :: rest)
    (ht' : t'.own? = headOwn (todo ++ rest)) (htodo' : t'.todo = todo ++ rest) :
    Passes s s' t t' [] := by
  generalize hlist : i :: rest = list at h ht htodo
  cases h with
  | closed ho =>
      subst hlist
      obtain ⟨hi, hrest⟩ := List.forall_mem_cons.1 ho
      rcases SetupStep.exec_create hi with ⟨c, hx⟩ | ⟨e, hx⟩ | hx <;> rw [he] at hx <;> cases hx
      obtain ⟨e, rs, -, hbody⟩ := SetupStep.body_eq hi
      rw [hbody, List.append_assoc, List.singleton_append] at ht' htodo'
      have htidy := Tidy.on rs e ⟨s.amqp.channels, c⟩ hrest
      rw [headOwn_on] at ht'
      refine ⟨htodo' ▸ htidy, .opened c ht' rfl rfl, fun name ch hm => .inr ?_⟩
      have hown := htidy.own_of_mem (htodo' ▸ hm)
      rw [headOwn_on] at hown
      exact Option.some.inj hown ▸ rfl
  | on rs e ch ho =>
      cases rs with
      | nil =>
          cases hlist
          rw [exec_register] at he
          cases he
          rw [List.nil_append] at ht' htodo'
          rw [headOwn_of_opens ho] at ht'
          refine ⟨htodo' ▸ .closed ho, ?_, fun name ch' hm => ?_⟩
          · cases e with
            | producer name =>
                exact .registered name ch ht (htodo ▸ List.mem_cons_self ..) ht' rfl rfl
            | consumer name => exact .keep (.inr ht') (List.forall_mem_nil _) (.inl rfl) le_rfl
          · cases ho _ (htodo' ▸ hm)
      | cons q rs =>
          cases hlist
          obtain ⟨rfl, rfl⟩ := exec_request he
          have hsame := ht'.trans (headOwn_on rs e ch _)
          refine ⟨htodo' ▸ .on rs e ch ho, ?_, fun name ch' hm => .inl ?_⟩
          · exact .keep (.inl (hsame.trans (ht.trans (headOwn_on (q :: rs) e ch _)).symm))
              (List.forall_mem_nil _) (.inl rfl) le_rfl
          · rw [htodo]
            rw [htodo'] at hm
            exact List.mem_cons_of_mem _ hm

/-! ### Dispatch loops and callbacks -/

/-- A step inside `startDispatchLoop` keeps its channel, or opens it. -/
theorem DispatchStep.exec_passes {s s' : Client} {o : Choice} {ctx : Option ℕ}
    {rb : Option ConnId} {sub : Subscription} {d d' : DispatchStep}
    (h : d.exec s o ctx rb sub = .next s' (.inl d')) {t t' : Thread} (ht : t.own? = d.own?)
    (ht' : t'.own? = d'.own?) (htodo' : t'.todo = []) : Passes s s' t t' [] := by
  have hnil := opens_of_nil htodo'
  have hsame : d'.own? = d.own? → s'.producers = s.producers → s'.amqp.channels = s.amqp.channels →
      Passes s s' t t' [] := fun hd hp hch =>
    .still hnil (.inl ((ht'.trans hd).trans ht.symm)) (.inl hp) hch.ge
  cases DispatchStep.executes_of_exec h with
  | live hc ho => exact hsame rfl rfl rfl
  | @opened c ho he =>
      refine ⟨.closed hnil, .opened c (ht'.trans ?_) rfl rfl, fun name ch hm => ?_⟩
      · split_ifs <;> rfl
      · cases hnil _ hm
  | qos hok => exact hsame rfl rfl rfl
  | consume hok => exact hsame rfl rfl rfl

/-- The last one hands the channel to the loop. -/
theorem DispatchStep.exec_started {s s' : Client} {o : Choice} {ctx : Option ℕ}
    {rb : Option ConnId} {sub : Subscription} {d : DispatchStep} {l : Loop}
    (h : d.exec s o ctx rb sub = .next s' (.inr l)) {t t' : Thread} (ht : t.own? = d.own?)
    (ht' : t'.own? = none) (htodo' : t'.todo = []) : Passes s s' t t' [.loop l .select] := by
  obtain ⟨rfl, rfl, -⟩ := DispatchStep.exec_inr h
  have hnil := opens_of_nil htodo'
  exact ⟨.closed hnil, .started l ht ht' rfl rfl, fun name ch hm => by cases hnil _ hm⟩

theorem Callback.Moves.passes {s s' : Client} {o : Choice} {cb : Callback}
    {q : Callback ⊕ ConnId} {new : List Spawn} (h : cb.Moves s o s' q new) (hT : Tidy cb.todo)
    {t t' : Thread} (ht : t.own? = cb.own?) (htodo : t.todo = cb.todo)
    (ht' : t'.own? = q.elim Callback.own? fun _ => none)
    (htodo' : t'.todo = q.elim Callback.todo fun _ => []) :
    Passes s s' t t' (new.map Spawn.thread) := by
  cases h with
  | clearProducers c =>
      exact .still (opens_of_nil htodo') (.inr ht') (.inr rfl) le_rfl
  | clearConsumers c =>
      have hopens := List.forall_mem_append.2 (opens_setups s.config)
      have hnone := headOwn_of_opens hopens
      refine .still ?_ (.inr (ht'.trans hnone)) (.inl rfl) le_rfl
      rw [htodo']
      exact hopens
  | setup c hi => exact hT.exec hi ht htodo ht' htodo'
  | dispatch c started pending hd => exact DispatchStep.exec_passes hd ht ht' htodo'
  | start c started pending hd => exact DispatchStep.exec_started hd ht ht' htodo'
  | _ => exact .idle htodo' ht' rfl rfl

/-! ### Goroutines -/

theorem SubscribeCall.Moves.passes {s s' : Client} {o : Choice} {id : ℕ}
    {pc pc' : SubscribeCall} {new : List Spawn} (h : pc.Moves s o id s' pc' new) :
    Passes s s' (.subscribe id pc) (.subscribe id pc') (new.map Spawn.thread) := by
  cases h with
  | dispatch hd => exact DispatchStep.exec_passes hd rfl rfl rfl
  | start hd => exact DispatchStep.exec_started hd rfl rfl rfl
  | _ => exact .idle rfl rfl rfl rfl

theorem WatchConnection.Moves.passes {s s' : Client} {o : Choice} {pc pc' : WatchConnection}
    {new : List Spawn} (h : pc.Moves s o s' pc' new) (hT : Tidy (Thread.watcher pc).todo) :
    Passes s s' (.watcher pc) (.watcher pc') (new.map Spawn.thread) := by
  cases h with
  | callback ms hm => exact hm.passes hT rfl rfl rfl rfl
  | success ms hm => exact hm.passes hT rfl rfl rfl rfl
  | handover n =>
      refine .spawn (opens_of_nil rfl) (.inr rfl) (fun u hu => ?_) (.inl rfl) le_rfl
      rw [List.mem_singleton.1 hu]
      rfl
  | _ => exact .idle rfl rfl rfl rfl

theorem ForceReconnect.Moves.passes {s s' : Client} {o : Choice} {pc pc' : ForceReconnect}
    {new : List Spawn} (h : pc.Moves s o s' pc' new) (hT : Tidy (Thread.force pc).todo) :
    Passes s s' (.force pc) (.force pc') (new.map Spawn.thread) := by
  cases h with
  | callback hm => exact hm.passes hT rfl rfl rfl rfl
  | success hm => exact hm.passes hT rfl rfl rfl rfl
  | _ => exact .idle rfl rfl rfl rfl

theorem StartupWithContext.Moves.passes {s s' : Client} {o : Choice}
    {pc pc' : StartupWithContext} {new : List Spawn} (h : pc.Moves s o s' pc' new)
    (hT : Tidy (Thread.startup pc).todo) :
    Passes s s' (.startup pc) (.startup pc') (new.map Spawn.thread) := by
  obtain ⟨hp, hc⟩ := opens_setups s.config
  cases h with
  | afterConnect =>
      exact .still hp (.inr (headOwn_of_opens hp)) (.inl rfl) le_rfl
  | afterProducers =>
      exact .still hc (.inr (headOwn_of_opens hc)) (.inl rfl) le_rfl
  | producer hi => exact hT.exec hi rfl rfl rfl rfl
  | consumer hi => exact hT.exec hi rfl rfl rfl rfl
  | startHealth =>
      refine .spawn (opens_of_nil rfl) (.inr rfl) (fun u hu => ?_) (.inl rfl) le_rfl
      rw [List.mem_singleton.1 hu]
      rfl
  | startManager =>
      refine .spawn (opens_of_nil rfl) (.inr rfl) (fun u hu => ?_) (.inl rfl) le_rfl
      split at hu
      · rw [List.mem_singleton.1 hu]
        rfl
      · cases hu
  | _ => exact .idle rfl rfl rfl rfl

/-- **Every step passes ownership on.** -/
theorem Thread.Moves.passes {s s' : Client} {t t' : Thread} {o : Choice} {new : List Thread}
    (h : t.Moves s o s' t' new) (hT : Tidy t.todo) : Passes s s' t t' new := by
  cases h with
  | watcher h => exact h.passes hT
  | force h => exact h.passes hT
  | startup h => exact h.passes hT
  | subscribe id h => exact h.passes
  | cleanup h =>
      cases h with
      | closeProducers =>
          exact .still (opens_of_nil rfl) (.inr rfl) (.inr rfl) le_rfl
      | _ => exact .idle rfl rfl rfl rfl
  | loop l h =>
      cases h <;>
        exact .still (opens_of_nil rfl) (.inl rfl) (.inl rfl) le_rfl
  | health h =>
      rcases HealthRun.step_cases h with ⟨r, rfl⟩ | ⟨c, rfl⟩
      · exact .idle rfl rfl rfl rfl
      · exact .still (opens_of_nil rfl) (.inr rfl) (.inl rfl) (Nat.le_succ _)

/-! ### One owner -/

theorem Client.registers_iff {s : Client} {id : ℕ} :
    s.registers id = true ↔ ∃ name ch, s.producers.lookup name = some (some ch) ∧ ch.id = id := by
  rw [Client.registers, List.any_eq_true]
  constructor
  · rintro ⟨⟨name, v⟩, hm, hv⟩
    obtain ⟨ch, rfl, hid⟩ := (Option.any_eq_true _ _).1 hv
    exact ⟨name, ch, AList.mem_lookup_iff.2 hm, by simpa using hid⟩
  · rintro ⟨name, ch, hl, rfl⟩
    exact ⟨⟨name, some ch⟩, AList.mem_lookup_iff.1 hl, by simp⟩

theorem Client.registers_insert {s s' : Client} {name : String} {ch : Channel} {id : ℕ}
    (hp : s'.producers = s.producers.insert name (some ch)) (h : s'.registers id = true) :
    ch.id = id ∨ s.registers id = true := by
  obtain ⟨n, ch', hl, hid⟩ := Client.registers_iff.1 h
  rw [hp, lookup_insert_ite] at hl
  split_ifs at hl
  · cases hl
    exact .inl hid
  · exact .inr (Client.registers_iff.2 ⟨n, ch', hl, hid⟩)

theorem Client.registers_congr {s s' : Client} (hp : s'.producers = s.producers) (id : ℕ) :
    s'.registers id = s.registers id := by
  rw [Client.registers, hp, Client.registers]

theorem Thread.ownsId_of_own {t : Thread} {ch : Channel} (h : t.own? = some ch) (id : ℕ) :
    t.ownsId id = (ch.id == id) := by
  rw [Thread.ownsId, h, Option.any_some]

theorem Thread.ownsId_of_none {t : Thread} (h : t.own? = none) (id : ℕ) : t.ownsId id = false := by
  rw [Thread.ownsId, h, Option.any_none]

theorem Transfer.channels_le {s s' : Client} {t t' : Thread} {new : List Thread}
    (h : Transfer s s' t t' new) : s.amqp.channels ≤ s'.amqp.channels := by
  cases h with
  | keep ho hn hp hch => exact hch
  | opened c ho hp hch => omega
  | started l ho ho' hp hch => exact hch.ge
  | registered name ch ho hm ho' hp hch => exact hch.ge

/-- **A step makes no second owner**: what the mover and what it starts own afterwards,
and what is registered then, was owned or registered before, or has just been opened. -/
theorem Transfer.count {s s' : Client} {t t' : Thread} {new : List Thread}
    (h : Transfer s s' t t' new) (id : ℕ) :
    (t'.ownsId id).toNat + new.countP (Thread.ownsId id) + (s'.registers id).toNat ≤
      (t.ownsId id).toNat + (s.registers id).toNat +
        (decide (s.amqp.channels ≤ id ∧ id < s'.amqp.channels)).toNat := by
  cases h with
  | keep ho hn hp hch =>
      have hown : (t'.ownsId id).toNat ≤ (t.ownsId id).toNat := by
        rcases ho with ho | ho
        · rw [Thread.ownsId, Thread.ownsId, ho]
        · rw [Thread.ownsId_of_none ho]
          exact Nat.zero_le _
      have hnew : new.countP (Thread.ownsId id) = 0 :=
        List.countP_eq_zero.2 fun u hu => by rw [Thread.ownsId_of_none (hn u hu)]; simp
      have hreg : (s'.registers id).toNat ≤ (s.registers id).toNat := by
        rcases hp with hp | hp
        · rw [Client.registers_congr hp]
        · rw [Client.registers, hp]
          exact Nat.zero_le _
      omega
  | opened c ho hp hch =>
      rw [Thread.ownsId_of_own ho, Client.registers_congr hp, hch, List.countP_nil]
      by_cases hid : s.amqp.channels = id
      · subst hid
        simp
        omega
      · have hne : ((⟨s.amqp.channels, c⟩ : Channel).id == id) = false := beq_eq_false_iff_ne.2 hid
        rw [hne, Bool.toNat_false]
        omega
  | started l ho ho' hp hch =>
      have hnew : [Thread.loop l .select].countP (Thread.ownsId id) =
          (l.channel.id == id).toNat := by
        rw [countP_cons_toNat, List.countP_nil, Thread.ownsId_of_own rfl, Nat.zero_add]
      rw [hnew, Thread.ownsId_of_own ho, Thread.ownsId_of_none ho', Client.registers_congr hp,
        Bool.toNat_false]
      omega
  | registered name ch ho hm ho' hp hch =>
      rw [Thread.ownsId_of_own ho, Thread.ownsId_of_none ho', List.countP_nil, Bool.toNat_false]
      cases hreg : s'.registers id with
      | false => exact Nat.zero_le _
      | true =>
          rcases Client.registers_insert hp hreg with hid | hold
          · rw [beq_iff_eq.2 hid, Bool.toNat_true]
            omega
          · rw [hold, Bool.toNat_true]
            omega

/-- **Every channel has one owner.**  The set-ups are tidy, no channel that was not
opened yet is owned, and no channel twice. -/
structure Separate (p : State) : Prop where
  tidy : ∀ t ∈ p.threads, Tidy t.todo
  below : ∀ id, p.shared.amqp.channels ≤ id → owners p id = 0
  once : ∀ id, owners p id ≤ 1

theorem separate_fresh (cfg : RabbitMQ) : Separate (fresh cfg) :=
  ⟨fun t ht => (by cases ht), fun _ _ => rfl, fun _ => Nat.zero_le 1⟩

theorem Separate.run {p : State} {l r new : List Thread} {t t' : Thread} {o : Choice}
    {s' : Client} (hi : Separate p) (hl : p.threads = l ++ t :: r)
    (ht : t.Moves p.shared o s' t' new) : Separate ⟨s', l ++ t' :: r ++ new⟩ := by
  obtain ⟨htidy, hbelow, honce⟩ := hi
  have hpass := ht.passes (htidy t (hl ▸ mem_focus_self l r t))
  have hle := hpass.transfer.channels_le
  have howners : ∀ id, owners ⟨s', l ++ t' :: r ++ new⟩ id ≤
      owners p id + (decide (p.shared.amqp.channels ≤ id ∧ id < s'.amqp.channels)).toNat := by
    intro id
    have hcount := countP_focus l r new t t' (Thread.ownsId id)
    have htransfer := hpass.transfer.count id
    simp only [owners, hl]
    omega
  refine ⟨?_, fun id hid => ?_, fun id => ?_⟩
  · refine forall_focus (hl ▸ htidy) (fun u _ hu => hu) hpass.tidy fun u hu => ?_
    obtain ⟨x, rfl⟩ := ht.spawned u hu
    rw [x.thread_todo]
    exact .closed (opens_of_nil rfl)
  · have h₀ := hbelow id (hle.trans hid)
    have h₁ := howners id
    rw [decide_eq_false (fun h => absurd h.2 (Nat.not_lt.2 hid)), Bool.toNat_false] at h₁
    omega
  · have h₁ := howners id
    by_cases hnew : p.shared.amqp.channels ≤ id
    · have h₀ := hbelow id hnew
      have := Bool.toNat_le (decide (p.shared.amqp.channels ≤ id ∧ id < s'.amqp.channels))
      omega
    · rw [decide_eq_false (fun h => hnew h.1), Bool.toNat_false] at h₁
      exact h₁.trans (honce id)

theorem Call.thread_own (k : Call) (id : ℕ) : (k.thread id).own? = none := by cases k <;> rfl

theorem Separate.step {p p' : State} {a : Action} (hi : Separate p) (h : Moves p a p') :
    Separate p' := by
  cases h with
  | run hl hix ht => exact hi.run hl ht
  | drop hc ho => exact ⟨hi.tidy, hi.below, hi.once⟩
  | call k =>
      have hsame : ∀ id, owners ⟨p.shared, p.threads ++ [k.thread p.threads.length]⟩ id =
          owners p id := by
        intro id
        simp only [owners, countP_snoc, Thread.ownsId_of_none (k.thread_own _), Bool.toNat_false,
          Nat.add_zero]
      refine ⟨List.forall_mem_append.2 ⟨hi.tidy, List.forall_mem_singleton.2 ?_⟩,
        fun id hid => (hsame id).trans (hi.below id hid),
        fun id => (hsame id).trans_le (hi.once id)⟩
      rw [k.thread_todo]
      exact .closed (opens_of_nil rfl)
  | cancel id => exact ⟨hi.tidy, hi.below, hi.once⟩

section
variable {p : State}

/-- A channel that is registered was opened. -/
theorem Separate.lt_of_registers (hi : Separate p) {id : ℕ} (h : p.shared.registers id = true) :
    id < p.shared.amqp.channels := by
  by_contra hge
  have hzero := hi.below id (Nat.le_of_not_lt hge)
  rw [owners, h, Bool.toNat_true] at hzero
  omega

theorem Separate.one_le_countP {t : Thread} {ch : Channel} (ht : t ∈ p.threads)
    (hch : t.own? = some ch) : 1 ≤ p.threads.countP (Thread.ownsId ch.id) := by
  refine List.countP_pos_iff.2 ⟨t, ht, ?_⟩
  rw [Thread.ownsId_of_own hch, beq_self_eq_true]

/-- A channel somebody owns was opened. -/
theorem Separate.lt_of_own (hi : Separate p) {t : Thread} {ch : Channel} (ht : t ∈ p.threads)
    (hch : t.own? = some ch) : ch.id < p.shared.amqp.channels := by
  by_contra hge
  have hzero := hi.below ch.id (Nat.le_of_not_lt hge)
  have hpos := Separate.one_le_countP ht hch
  rw [owners] at hzero
  omega

/-- And it is not registered. -/
theorem Separate.not_registers_of_own (hi : Separate p) {t : Thread} {ch : Channel}
    (ht : t ∈ p.threads) (hch : t.own? = some ch) : p.shared.registers ch.id = false := by
  have honce := hi.once ch.id
  have hpos := Separate.one_le_countP ht hch
  rw [owners] at honce
  cases hreg : p.shared.registers ch.id with
  | false => rfl
  | true =>
      rw [hreg, Bool.toNat_true] at honce
      omega

/-- And nobody else owns it. -/
theorem Separate.id_ne_of_others (hi : Separate p) {l r : List Thread} {t u : Thread}
    {ch ch' : Channel} (hl : p.threads = l ++ t :: r) (hch : t.own? = some ch) (hu : u ∈ l ++ r)
    (hch' : u.own? = some ch') : ch'.id ≠ ch.id := by
  intro heq
  have honce : (l ++ t :: r).countP (Thread.ownsId ch.id) ≤ 1 := by
    have := hi.once ch.id
    rw [owners, hl] at this
    omega
  have hself : t.ownsId ch.id = true := by rw [Thread.ownsId_of_own hch, beq_self_eq_true]
  have hno := not_of_countP_le_one honce hself hu
  rw [Thread.ownsId_of_own hch', beq_iff_eq.2 heq] at hno
  cases hno

end

/-! ### Whose channels are closed -/

/-- What a step closes: nothing; the mover's own channel, and then it touches nothing
else and is out of any set-up; or the temporary channel of a health probe. -/
inductive ClosesOwn (s s' : Client) (t t' : Thread) : Prop
  | nothing : s'.amqp.chanClosed = s.amqp.chanClosed → ClosesOwn s s' t t'
  | own (ch : Channel) : t.own? = some ch → t'.todo = [] →
      s' = { s with amqp := s.amqp.closeChannel ch } → ClosesOwn s s' t t'
  | probe (c : ConnId) : t'.todo = [] →
      s' = { s with amqp :=
        { s.amqp with channels := s.amqp.channels + 1 }.closeChannel ⟨s.amqp.channels, c⟩ } →
        ClosesOwn s s' t t'

theorem SetupStep.exec_fail_own {s s' : Client} {o : Choice} {i : SetupStep} {e : GoError}
    (h : i.exec s o = .fail s' e) :
    s' = s ∨ ∃ ch, i.own? = some ch ∧ s' = { s with amqp := s.amqp.closeChannel ch } := by
  cases i with
  | createProducer p => exact .inl (Client.openChannel_fail h)
  | createConsumer k => exact .inl (Client.openChannel_fail h)
  | request r ch => exact .inr ⟨ch, rfl, exec_request_fail h⟩
  | registerProducer name ch => cases h
  | registerConsumer name ch => cases h

theorem DispatchStep.exec_fail_own {s s' : Client} {o : Choice} {ctx : Option ℕ}
    {rb : Option ConnId} {sub : Subscription} {d : DispatchStep} {e : GoError}
    (h : d.exec s o ctx rb sub = .fail s' e) :
    s' = s ∨ ∃ ch, d.own? = some ch ∧ s' = { s with amqp := s.amqp.closeChannel ch } := by
  cases DispatchStep.executes_of_exec h with
  | @qosFails ch text hb => exact .inr ⟨ch, rfl, rfl⟩
  | @consumeFails ch text hb => exact .inr ⟨ch, rfl, rfl⟩
  | _ => exact .inl rfl

theorem Callback.step_fail_own {s s' : Client} {o : Choice} {cb : Callback} {e : GoError}
    (h : cb.step s o = .fail s' e) :
    s' = s ∨ ∃ ch, cb.own? = some ch ∧ s' = { s with amqp := s.amqp.closeChannel ch } := by
  cases cb with
  | dial =>
      rw [Callback.step] at h
      split at h <;> cases h
      exact .inl rfl
  | rebuild c todo =>
      cases todo with
      | nil => cases h
      | cons i rest =>
          rw [Callback.step] at h
          split at h <;> cases h
          exact SetupStep.exec_fail_own ‹_›
  | restart c started pending =>
      cases pending with
      | nil => cases h
      | cons sub pending =>
          rw [Callback.step] at h
          split at h <;> cases h
  | dispatch c started sub pending d =>
      rw [Callback.step] at h
      split at h <;> cases h
      exact DispatchStep.exec_fail_own ‹_›
  | _ => cases h

/-- A call that fails, and leaves the goroutine out of any set-up. -/
theorem ClosesOwn.of_fail {s s' : Client} {t t' : Thread} {own : Option Channel}
    (h : s' = s ∨ ∃ ch, own = some ch ∧ s' = { s with amqp := s.amqp.closeChannel ch })
    (ht : t.own? = own) (htodo : t'.todo = []) : ClosesOwn s s' t t' := by
  rcases h with rfl | ⟨ch, rfl, rfl⟩
  · exact .nothing rfl
  · exact .own ch ht htodo rfl

theorem setupStep_closes {s s' : Client} {o : Choice} {txt : String}
    {here : List SetupStep → StartupWithContext} {after pc' : StartupWithContext}
    {todo : List SetupStep} (h : setupStep s o txt here after todo = (s', pc')) {t : Thread}
    (ht : t.own? = headOwn todo) : ClosesOwn s s' t (.startup pc') := by
  cases todo with
  | nil =>
      cases h
      exact .nothing rfl
  | cons i rest =>
      rw [setupStep] at h
      split at h <;> cases h
      · obtain ⟨n, P, K, rfl⟩ := SetupStep.exec_frame ‹_›
        exact .nothing rfl
      · exact .of_fail (SetupStep.exec_fail_own ‹_›) ht rfl
      · exact .nothing rfl

theorem StartupWithContext.step_closes {s s' : Client} {o : Choice} {pc pc' : StartupWithContext}
    {new : List Spawn} (h : pc.step s o = some (s', pc', new)) :
    ClosesOwn s s' (.startup pc) (.startup pc') := by
  cases pc with
  | producers todo => exact setupStep_closes (StartupWithContext.step_producers h).1 rfl
  | consumers todo => exact setupStep_closes (StartupWithContext.step_consumers h).1 rfl
  | enter => rw [StartupWithContext.step] at h; split at h <;> cases h <;> exact .nothing rfl
  | dial =>
      rw [StartupWithContext.step] at h
      split at h <;> cases h
      · exact .nothing rfl
      · obtain ⟨-, rfl⟩ := Client.dial_ok ‹_›
        exact .nothing rfl
  | afterConnect =>
      rw [StartupWithContext.step] at h; split at h <;> cases h <;> exact .nothing rfl
  | afterProducers =>
      rw [StartupWithContext.step] at h; split at h <;> cases h <;> exact .nothing rfl
  | registerShared =>
      rw [StartupWithContext.step] at h; split at h <;> cases h <;> exact .nothing rfl
  | checkHealth parts =>
      cases parts with
      | nil => cases h; exact .nothing rfl
      | cons part parts =>
          rw [StartupWithContext.step] at h; split at h <;> cases h <;> exact .nothing rfl
  | returned err => cases h
  | _ => cases h; exact .nothing rfl

theorem WatchConnection.step_closes {s s' : Client} {o : Choice} {pc pc' : WatchConnection}
    {new : List Spawn} (h : pc.step s o = some (s', pc', new)) :
    ClosesOwn s s' (.watcher pc) (.watcher pc') := by
  cases pc with
  | callback ms cb =>
      rw [WatchConnection.step] at h
      split at h <;> cases h
      · exact .nothing (Callback.moves_of_step ‹_›).frame.chanClosed
      · exact .nothing (Callback.moves_of_step ‹_›).frame.chanClosed
      · exact .of_fail (Callback.step_fail_own ‹_›) rfl rfl
      · exact .nothing rfl
  | _ => cases WatchConnection.moves_of_step h <;> exact .nothing rfl

theorem ForceReconnect.step_closes {s s' : Client} {o : Choice} {pc pc' : ForceReconnect}
    {new : List Spawn} (h : pc.step s o = some (s', pc', new)) :
    ClosesOwn s s' (.force pc) (.force pc') := by
  cases pc with
  | callback cb =>
      rw [ForceReconnect.step] at h
      split at h <;> cases h
      · exact .nothing (Callback.moves_of_step ‹_›).frame.chanClosed
      · exact .nothing (Callback.moves_of_step ‹_›).frame.chanClosed
      · exact .of_fail (Callback.step_fail_own ‹_›) rfl rfl
      · exact .nothing rfl
  | _ => cases ForceReconnect.moves_of_step h <;> exact .nothing rfl

theorem SubscribeCall.step_closes {s s' : Client} {id : ℕ} {o : Choice} {pc pc' : SubscribeCall}
    {new : List Spawn} (h : pc.step s o id = some (s', pc', new)) :
    ClosesOwn s s' (.subscribe id pc) (.subscribe id pc') := by
  cases pc with
  | dispatch sub d =>
      rw [SubscribeCall.step] at h
      split at h <;> cases h
      · obtain ⟨⟨n, rfl⟩, -⟩ := DispatchStep.exec_inl ‹_›
        exact .nothing rfl
      · obtain ⟨rfl, -⟩ := DispatchStep.exec_inr ‹_›
        exact .nothing rfl
      · exact .of_fail (DispatchStep.exec_fail_own ‹_›) rfl rfl
      · exact .nothing rfl
  | _ => cases SubscribeCall.moves_of_step h <;> exact .nothing rfl

theorem HealthRun.step_closes {s s' : Client} {o : Choice} {pc pc' : HealthRun}
    (h : pc.step s o = some (s', pc')) : ClosesOwn s s' (.health pc) (.health pc') := by
  rcases HealthRun.step_cases h with ⟨r, hr⟩ | ⟨c, hc⟩
  · exact .nothing (by rw [hr])
  · exact .probe c rfl hc

/-- **A step closes no channel but the mover's own**, cleanup apart. -/
theorem Thread.step_closes {s s' : Client} {t t' : Thread} {o : Choice} {new : List Thread}
    (h : t.step s o = some (s', t', new)) (hk : t.isCleanup = false) : ClosesOwn s s' t t' := by
  cases t with
  | watcher pc =>
      obtain ⟨q, hq, he⟩ := Option.map_eq_some_iff.1 h
      cases he
      exact WatchConnection.step_closes hq
  | force pc =>
      obtain ⟨q, hq, he⟩ := Option.map_eq_some_iff.1 h
      cases he
      exact ForceReconnect.step_closes hq
  | subscribe id pc =>
      obtain ⟨q, hq, he⟩ := Option.map_eq_some_iff.1 h
      cases he
      exact SubscribeCall.step_closes hq
  | loop l pc =>
      cases Thread.moves_of_step h with
      | loop _ hm =>
          cases hm with
          | close => exact .own l.channel rfl rfl rfl
          | _ => exact .nothing rfl
  | cleanup pc => cases hk
  | startup pc =>
      obtain ⟨q, hq, he⟩ := Option.map_eq_some_iff.1 h
      cases he
      exact StartupWithContext.step_closes hq
  | health pc =>
      obtain ⟨q, hq, he⟩ := Option.map_eq_some_iff.1 h
      cases he
      exact HealthRun.step_closes hq

end LynxRabbit
