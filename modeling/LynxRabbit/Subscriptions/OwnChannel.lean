/-
# A channel for every dispatch loop

`startDispatchLoop` (`client.go`) opens a channel of its own for every subscription,
because channels are not safe for several goroutines at once, and `cleanupWithContext`
waits for the loops it has counted before it closes the channels of the two maps and the
connection.

`Separate` has one owner for every channel, among the goroutines and the producers map.
Here the consumers map joins them, which `cleanupWithContext` closes as well:
`Thread.step_closed_cases` lists whose channels a step can close, and none of them is
the channel of another goroutine (`Unshared.spares`).  So in every run the channel of a
dispatch loop is used by nobody else, and is open exactly as long as its connection is,
until the loop itself closes it (`loop_channel_private`).
-/

import LynxRabbit.Setup.Ownership

namespace LynxRabbit

open Runs

/-- The channel a goroutine has and has not closed: a loop closes its own when it
returns. -/
def Thread.keeps? : Thread → Option Channel
  | .loop _ .finishing => none
  | .loop _ .returned => none
  | t => t.own?

theorem Thread.own_of_keeps {t : Thread} {ch : Channel} (h : t.keeps? = some ch) :
    t.own? = some ch := by
  cases t with
  | loop l pc =>
      cases pc with
      | finishing => cases h
      | returned => cases h
      | _ => exact h
  | _ => exact h

theorem Thread.keeps_of_isLoop_eq_false {t : Thread} (h : t.isLoop = false) :
    t.keeps? = t.own? := by
  cases t with
  | loop l pc => cases h
  | _ => rfl

/-! ### The consumers map -/

/-- A set-up step that registers a consumer hands the channel of its entry over. -/
theorem Tidy.exec_consumers {s s' : Client} {o : Choice} {i : SetupStep}
    {rest todo : List SetupStep} (h : Tidy (i :: rest)) (he : i.exec s o = .next s' todo) :
    s'.consumers = s.consumers ∨ ∃ (name : String) (ch : Channel), headOwn (i :: rest) = some ch ∧
      headOwn (todo ++ rest) = none ∧ s'.consumers = s.consumers.insert name (some ch) := by
  rcases SetupStep.exec_next he with ⟨c, -, -, rfl, -⟩ | ⟨r, ch, -, rfl, -⟩ |
    ⟨name, ch, -, rfl, -⟩ | ⟨name, ch, rfl, rfl, rfl⟩
  · exact .inl rfl
  · exact .inl rfl
  · exact .inl rfl
  · refine .inr ⟨name, ch, rfl, ?_, rfl⟩
    generalize hlist : SetupStep.registerConsumer name ch :: rest = list at h
    cases h with
    | closed ho => cases ho _ (hlist ▸ List.mem_cons_self ..)
    | on rs e ch' ho =>
        cases rs with
        | nil =>
            obtain ⟨-, rfl⟩ := List.cons.inj hlist
            exact headOwn_of_opens ho
        | cons r rs => cases hlist

/-- **What a step does to the consumers map**: nothing; it empties it; or it registers the
channel of the mover, who gives it up. -/
inductive Registers (s s' : Client) (t t' : Thread) (new : List Thread) : Prop
  | keep : s'.consumers = s.consumers → Registers s s' t t' new
  | clear : s'.consumers = ∅ → Registers s s' t t' new
  | register (name : String) (ch : Channel) : t.own? = some ch → t'.own? = none → new = [] →
      s'.consumers = s.consumers.insert name (some ch) → Registers s s' t t' new

theorem Tidy.registers {s s' : Client} {o : Choice} {i : SetupStep}
    {rest todo : List SetupStep} (h : Tidy (i :: rest)) (he : i.exec s o = .next s' todo)
    {t t' : Thread} (ht : t.own? = headOwn (i :: rest)) (ht' : t'.own? = headOwn (todo ++ rest)) :
    Registers s s' t t' [] := by
  rcases h.exec_consumers he with hk | ⟨name, ch, hown, hown', hk⟩
  · exact .keep hk
  · exact .register name ch (ht.trans hown) (ht'.trans hown') rfl hk

theorem Callback.Moves.registers {s s' : Client} {o : Choice} {cb : Callback}
    {q : Callback ⊕ ConnId} {new : List Spawn} (h : cb.Moves s o s' q new) (hT : Tidy cb.todo)
    {t t' : Thread} (ht : t.own? = cb.own?) (ht' : t'.own? = q.elim Callback.own? fun _ => none) :
    Registers s s' t t' (new.map Spawn.thread) := by
  cases h with
  | clearConsumers c => exact .clear rfl
  | setup c hi => exact hT.registers hi ht ht'
  | dispatch c started pending hd =>
      obtain ⟨⟨n, rfl⟩, -⟩ := DispatchStep.exec_inl hd
      exact .keep rfl
  | start c started pending hd =>
      obtain ⟨rfl, -⟩ := DispatchStep.exec_inr hd
      exact .keep rfl
  | _ => exact .keep rfl

theorem Thread.Moves.registers {s s' : Client} {t t' : Thread} {o : Choice} {new : List Thread}
    (h : t.Moves s o s' t' new) (hT : Tidy t.todo) : Registers s s' t t' new := by
  cases h with
  | watcher h =>
      cases h with
      | callback ms hm => exact hm.registers hT rfl rfl
      | success ms hm => exact hm.registers hT rfl rfl
      | _ => exact .keep rfl
  | force h =>
      cases h with
      | callback hm => exact hm.registers hT rfl rfl
      | success hm => exact hm.registers hT rfl rfl
      | _ => exact .keep rfl
  | startup h =>
      cases h with
      | producer hi => exact hT.registers hi rfl rfl
      | consumer hi => exact hT.registers hi rfl rfl
      | _ => exact .keep rfl
  | cleanup h =>
      cases h with
      | closeConsumers => exact .clear rfl
      | _ => exact .keep rfl
  | subscribe id h => exact .keep h.sameCore.1.consumers
  | loop l h => exact .keep h.sameCore.consumers
  | health h => exact .keep (HealthRun.step_sameCore h).consumers

/-! ### What a step closes -/

/-- A channel that `Close` on every channel of a map closes is in the map. -/
theorem Broker.closeAll_cases (b : Broker) (m : ChannelMap) (id : ℕ) :
    (b.closeAll m).chanClosed id = b.chanClosed id ∨
      ∃ name ch, m.lookup name = some (some ch) ∧ ch.id = id := by
  cases hm : m.entries.any fun e => e.2.any fun ch => ch.id == id with
  | false => exact .inl (by simp only [Broker.closeAll, hm, Bool.or_false])
  | true =>
      obtain ⟨⟨name, v⟩, hmem, hv⟩ := List.any_eq_true.1 hm
      obtain ⟨ch, rfl, hid⟩ := (Option.any_eq_true _ _).1 hv
      exact .inr ⟨name, ch, AList.mem_lookup_iff.2 hmem, by simpa using hid⟩

/-- **Whose channels a step closes**: the mover's own, one it has just opened, or, in a
cleanup, those that are registered. -/
theorem Thread.step_closed_cases {s s' : Client} {t t' : Thread} {o : Choice}
    {new : List Thread} (h : t.step s o = some (s', t', new)) (id : ℕ) :
    s'.amqp.chanClosed id = s.amqp.chanClosed id ∨ (∃ ch, t.own? = some ch ∧ ch.id = id) ∨
      (s.amqp.channels = id ∧ id < s'.amqp.channels) ∨
      (∃ name ch, s.consumers.lookup name = some (some ch) ∧ ch.id = id) ∨
      s.registers id = true := by
  cases hk : t.isCleanup with
  | false =>
      cases Thread.step_closes h hk with
      | nothing hcl => exact .inl (congrFun hcl id)
      | own ch hch _ hs =>
          subst hs
          by_cases hid : ch.id = id
          · exact .inr (.inl ⟨ch, hch, hid⟩)
          · exact .inl (Function.update_of_ne (Ne.symm hid) _ _)
      | probe c _ hs =>
          subst hs
          by_cases hid : s.amqp.channels = id
          · exact .inr (.inr (.inl ⟨hid, hid ▸ Nat.lt_succ_self _⟩))
          · exact .inl (Function.update_of_ne (Ne.symm hid) _ _)
  | true =>
      cases Thread.moves_of_step h with
      | cleanup hc =>
          cases hc with
          | closeConsumers =>
              rcases Broker.closeAll_cases s.amqp s.consumers id with hsame | hin
              · exact .inl hsame
              · exact .inr (.inr (.inr (.inl hin)))
          | closeProducers =>
              rcases Broker.closeAll_cases s.amqp s.producers id with hsame | hin
              · exact .inl hsame
              · exact .inr (.inr (.inr (.inr (Client.registers_iff.2 hin))))
          | _ => exact .inl rfl
      | _ => cases hk

/-- A goroutine that closes a channel keeps none, and starts nothing. -/
theorem Thread.Moves.closes_keeps {s s' : Client} {t t' : Thread} {o : Choice} {new : List Thread}
    (h : t.Moves s o s' t' new) :
    s'.amqp.chanClosed = s.amqp.chanClosed ∨ t'.keeps? = none ∧ new = [] := by
  cases h with
  | watcher h =>
      cases h with
      | callback ms hm => exact .inl hm.frame.chanClosed
      | success ms hm => exact .inl hm.frame.chanClosed
      | failure ms f hf hcl => exact .inr ⟨rfl, rfl⟩
      | _ => exact .inl rfl
  | force h =>
      cases h with
      | callback hm => exact .inl hm.frame.chanClosed
      | success hm => exact .inl hm.frame.chanClosed
      | failure f hf hcl => exact .inr ⟨rfl, rfl⟩
      | _ => exact .inl rfl
  | subscribe id h =>
      cases h with
      | dispatch hd =>
          obtain ⟨⟨n, rfl⟩, -⟩ := DispatchStep.exec_inl hd
          exact .inl rfl
      | start hd =>
          obtain ⟨rfl, -⟩ := DispatchStep.exec_inr hd
          exact .inl rfl
      | fail sub d f e hcl => exact .inr ⟨rfl, rfl⟩
      | _ => exact .inl rfl
  | loop l h =>
      cases h with
      | close => exact .inr ⟨rfl, rfl⟩
      | _ => exact .inl rfl
  | cleanup h => exact .inr ⟨rfl, rfl⟩
  | startup h =>
      cases h with
      | producer hi =>
          obtain ⟨n, P, K, rfl⟩ := SetupStep.exec_frame hi
          exact .inl rfl
      | consumer hi =>
          obtain ⟨n, P, K, rfl⟩ := SetupStep.exec_frame hi
          exact .inl rfl
      | abort f e hf hcl => exact .inr ⟨rfl, rfl⟩
      | _ => exact .inl rfl
  | health h => exact .inr ⟨rfl, rfl⟩

/-! ### Who has it afterwards -/

/-- What the mover and what it starts own afterwards, the mover owned or has just opened. -/
theorem Transfer.origin {s s' : Client} {t t' u : Thread} {new : List Thread} {ch : Channel}
    (h : Transfer s s' t t' new) (hu : u = t' ∨ u ∈ new) (hch : u.own? = some ch) :
    t.own? = some ch ∨ ch.id = s.amqp.channels := by
  cases h with
  | keep ho hn hp hle =>
      rcases hu with rfl | hu
      · rcases ho with ho | ho
        · exact .inl (ho ▸ hch)
        · rw [ho] at hch
          cases hch
      · rw [hn u hu] at hch
        cases hch
  | opened c ho hp hn =>
      rcases hu with rfl | hu
      · rw [ho] at hch
        cases hch
        exact .inr rfl
      · cases hu
  | started l ho ho' hp hn =>
      rcases hu with rfl | hu
      · rw [ho'] at hch
        cases hch
      · rw [List.mem_singleton.1 hu] at hch
        exact .inl (ho.trans hch)
  | registered name c ho hm ho' hp hn =>
      rcases hu with rfl | hu
      · rw [ho'] at hch
        cases hch
      · cases hu

/-- And what it keeps afterwards and owned, it kept. -/
theorem Thread.Moves.kept {s s' : Client} {t t' u : Thread} {o : Choice} {new : List Thread}
    {ch : Channel} (h : t.Moves s o s' t' new) (hu : u = t' ∨ u ∈ new)
    (hch : u.keeps? = some ch) (hown : t.own? = some ch) : t.keeps? = some ch := by
  cases hl : t.isLoop with
  | false => rw [Thread.keeps_of_isLoop_eq_false hl, hown]
  | true =>
      cases h with
      | loop l hm =>
          rcases hu with rfl | hu
          · cases hm with
            | finish => cases hch
            | _ => exact hown
          · cases hu
      | _ => cases hl

/-! ### Every run -/

/-- **Nobody shares a channel.**  The channels in the consumers map are nobody's, and the
channels that goroutines keep were not closed, nor was any that is still to be opened. -/
structure Unshared (p : State) : Prop where
  separate : Separate p
  consumers : ∀ name ch, p.shared.consumers.lookup name = some (some ch) →
    ch.id < p.shared.amqp.channels ∧ ∀ t ∈ p.threads, ∀ ch', t.own? = some ch' → ch'.id ≠ ch.id
  unopened : ∀ id, p.shared.amqp.channels ≤ id → p.shared.amqp.chanClosed id = false
  kept : ∀ t ∈ p.threads, ∀ ch, t.keeps? = some ch → p.shared.amqp.chanClosed ch.id = false

theorem unshared_fresh (cfg : RabbitMQ) : Unshared (fresh cfg) :=
  ⟨separate_fresh cfg, fun name ch h => (by cases h), fun _ _ => rfl, fun t ht => (by cases ht)⟩

section
variable {p : State} {l r new : List Thread} {t t' u : Thread} {o : Choice} {s' : Client}
  {ch : Channel}

/-- **A step leaves the channels of the other goroutines alone.** -/
theorem Unshared.spares (hi : Unshared p) (hl : p.threads = l ++ t :: r)
    (ht : t.step p.shared o = some (s', t', new)) (hu : u ∈ l ++ r) (hch : u.own? = some ch) :
    s'.amqp.chanClosed ch.id = p.shared.amqp.chanClosed ch.id := by
  have hup : u ∈ p.threads := hl ▸ mem_of_mem_others hu t
  have hlt := hi.separate.lt_of_own hup hch
  rcases Thread.step_closed_cases ht ch.id with hsame | ⟨own, hown, hid⟩ | ⟨hid, -⟩ |
    ⟨name, ch', hmap, hid⟩ | hreg
  · exact hsame
  · exact absurd hid.symm (hi.separate.id_ne_of_others hl hown hu hch)
  · exact absurd hid hlt.ne'
  · exact absurd hid.symm ((hi.consumers name ch' hmap).2 u hup ch hch)
  · rw [hi.separate.not_registers_of_own hup hch] at hreg
    cases hreg

/-- And those that are still to be opened. -/
theorem Unshared.spares_unopened (hi : Unshared p) (hl : p.threads = l ++ t :: r)
    (ht : t.step p.shared o = some (s', t', new)) {id : ℕ} (hid : s'.amqp.channels ≤ id) :
    s'.amqp.chanClosed id = false := by
  have hmem : t ∈ p.threads := hl ▸ mem_focus_self l r t
  have hpass := (Thread.moves_of_step ht).passes (hi.separate.tidy t hmem)
  have hge : p.shared.amqp.channels ≤ id := hpass.transfer.channels_le.trans hid
  rcases Thread.step_closed_cases ht id with hsame | ⟨own, hown, rfl⟩ | ⟨-, hlt⟩ |
    ⟨name, ch', hmap, rfl⟩ | hreg
  · exact hsame.trans (hi.unopened id hge)
  · exact absurd (hi.separate.lt_of_own hmem hown) (Nat.not_lt.2 hge)
  · exact absurd hlt (Nat.not_lt.2 hid)
  · exact absurd (hi.consumers name ch' hmap).1 (Nat.not_lt.2 hge)
  · exact absurd (hi.separate.lt_of_registers hreg) (Nat.not_lt.2 hge)

/-- The channels of the consumers map stay nobody's. -/
theorem Unshared.consumers_run (hi : Unshared p) (hl : p.threads = l ++ t :: r)
    (ht : t.Moves p.shared o s' t' new) {name : String}
    (hmap : s'.consumers.lookup name = some (some ch)) :
    ch.id < s'.amqp.channels ∧
      ∀ u ∈ l ++ t' :: r ++ new, ∀ ch', u.own? = some ch' → ch'.id ≠ ch.id := by
  have hmem : t ∈ p.threads := hl ▸ mem_focus_self l r t
  have hpass := ht.passes (hi.separate.tidy t hmem)
  have hle := hpass.transfer.channels_le
  have hold : ∀ n, p.shared.consumers.lookup n = some (some ch) → ch.id < s'.amqp.channels ∧
      ∀ u ∈ l ++ t' :: r ++ new, ∀ ch', u.own? = some ch' → ch'.id ≠ ch.id := by
    intro n hn
    obtain ⟨hlt, hno⟩ := hi.consumers n ch hn
    refine ⟨hlt.trans_le hle, forall_focus (hl ▸ hno) (fun u _ hu => hu) ?_ ?_⟩
    · intro ch' hch'
      rcases hpass.transfer.origin (.inl rfl) hch' with hown | hid
      · exact hno t hmem ch' hown
      · exact hid ▸ hlt.ne'
    · intro u hu ch' hch'
      rcases hpass.transfer.origin (.inr hu) hch' with hown | hid
      · exact hno t hmem ch' hown
      · exact hid ▸ hlt.ne'
  cases ht.registers (hi.separate.tidy t hmem) with
  | keep hk => exact hold name (hk ▸ hmap)
  | clear hk =>
      rw [hk] at hmap
      cases hmap
  | register n own hown hown' hnew hk =>
      rw [hk, lookup_insert_ite] at hmap
      split_ifs at hmap
      · -- the mover had it, so the others do not, and now it has none
        obtain rfl : own = ch := by simpa using hmap
        refine ⟨(hi.separate.lt_of_own hmem hown).trans_le hle, fun u hu ch' hch' => ?_⟩
        rcases mem_focus hu with hu | rfl | hu
        · exact hi.separate.id_ne_of_others hl hown hu hch'
        · rw [hown'] at hch'
          cases hch'
        · rw [hnew] at hu
          cases hu
      · exact hold name hmap

theorem Unshared.run (hi : Unshared p) (hl : p.threads = l ++ t :: r)
    (ht : t.step p.shared o = some (s', t', new)) : Unshared ⟨s', l ++ t' :: r ++ new⟩ := by
  have hm := Thread.moves_of_step ht
  have hmem : t ∈ p.threads := hl ▸ mem_focus_self l r t
  have hpass := hm.passes (hi.separate.tidy t hmem)
  have hmover : ∀ u, u = t' ∨ u ∈ new → ∀ ch, u.keeps? = some ch →
      s'.amqp.chanClosed ch.id = false := by
    intro u hu ch hch
    rcases hm.closes_keeps with hcl | ⟨hnone, hnil⟩
    · rw [hcl]
      rcases hpass.transfer.origin hu (Thread.own_of_keeps hch) with hown | hid
      · exact hi.kept t hmem ch (hm.kept hu hch hown)
      · exact hi.unopened _ hid.ge
    · rcases hu with rfl | hu
      · rw [hnone] at hch
        cases hch
      · rw [hnil] at hu
        cases hu
  refine ⟨hi.separate.run hl hm, fun name ch hmap => hi.consumers_run hl hm hmap,
    fun id hid => hi.spares_unopened hl ht hid, fun u hu ch hch => ?_⟩
  rcases mem_focus hu with hother | hself | hspawned
  · have hown := Thread.own_of_keeps hch
    exact (hi.spares hl ht hother hown).trans (hi.kept u (hl ▸ mem_of_mem_others hother t) ch hch)
  · exact hmover u (.inl hself) ch hch
  · exact hmover u (.inr hspawned) ch hch

end

theorem Unshared.step {p p' : State} {a : Action} (hi : Unshared p) (h : step p a = some p') :
    Unshared p' := by
  cases a with
  | run i o =>
      obtain ⟨l, t, r, s', t', new, hl, -, -, ht, rfl⟩ := step_run_focus h
      exact hi.run hl ht
  | drop c =>
      have hm := (moves_of_step h).2
      have hsep := hi.separate.step hm
      cases hm
      exact ⟨hsep, hi.consumers, hi.unopened, hi.kept⟩
  | call k =>
      have hm := (moves_of_step h).2
      have hsep := hi.separate.step hm
      cases hm
      have hnone := k.thread_own p.threads.length
      refine ⟨hsep, fun name ch hmap => ⟨(hi.consumers name ch hmap).1, ?_⟩, hi.unopened, ?_⟩
      · refine List.forall_mem_append.2 ⟨(hi.consumers name ch hmap).2,
          List.forall_mem_singleton.2 fun ch' hch' => ?_⟩
        rw [hnone] at hch'
        cases hch'
      · refine List.forall_mem_append.2 ⟨hi.kept, List.forall_mem_singleton.2 fun ch hch => ?_⟩
        cases hnone.symm.trans (Thread.own_of_keeps hch)
  | cancel id =>
      have hm := (moves_of_step h).2
      have hsep := hi.separate.step hm
      cases hm
      exact ⟨hsep, hi.consumers, hi.unopened, hi.kept⟩

theorem unshared_of_run {cfg : RabbitMQ} {g : State → Action → Bool} {p : State}
    (hr : Run step g (fresh cfg) p) : Unshared p :=
  hr.invariant (I := Unshared) (unshared_fresh cfg) fun _ _ _ hi _ h => hi.step h

/-- **The channel of a dispatch loop is its own.**  In every run of startups, subscribes,
disconnects, reconnects and cleanups, no other goroutine has the channel of a dispatch loop
and neither map holds it; and until the loop closes it, it is open exactly as long as its
connection is: no goroutine closes the channel itself underneath a handler, an Ack or a Nack. -/
theorem loop_channel_private (cfg : RabbitMQ) (p : State) (i : ℕ) (l : Loop) (pc : LoopPc)
    (h : Run step always (fresh cfg) p) (hi : p.threads[i]? = some (.loop l pc)) :
    (∀ j t ch, j ≠ i → p.threads[j]? = some t → t.own? = some ch → ch.id ≠ l.channel.id) ∧
    (∀ name ch, p.shared.producers.lookup name = some (some ch) ∨
      p.shared.consumers.lookup name = some (some ch) → ch.id ≠ l.channel.id) ∧
    (pc ≠ .finishing → pc ≠ .returned →
      p.shared.amqp.chanOpen l.channel = !p.shared.amqp.closed l.channel.conn) := by
  have hinv := unshared_of_run h
  have hmem := List.mem_of_getElem? hi
  obtain ⟨before, behind, hl, hlen⟩ := exists_focus hi
  refine ⟨fun j t ch hj ht hch => ?_, fun name ch hmap heq => ?_, fun hf hr => ?_⟩
  · have hother : t ∈ before ++ behind := mem_others_of_ne (hl ▸ ht) (hlen ▸ hj)
    exact hinv.separate.id_ne_of_others hl rfl hother hch
  · rcases hmap with hmap | hmap
    · have hreg := hinv.separate.not_registers_of_own hmem rfl
      rw [Client.registers_iff.2 ⟨name, ch, hmap, heq⟩] at hreg
      cases hreg
    · exact (hinv.consumers name ch hmap).2 _ hmem l.channel rfl heq.symm
  · have hkeeps : (Thread.loop l pc).keeps? = some l.channel := by
      cases pc with
      | finishing => exact absurd rfl hf
      | returned => exact absurd rfl hr
      | _ => rfl
    rw [Broker.chanOpen, hinv.kept _ hmem _ hkeeps, Bool.not_false, Bool.true_and]

/-- The loop of a subscription to the default queue. -/
def defaultLoop : Loop where
  sub := ⟨3, "default-consumer", "lynx.queue", 0⟩
  channel := ⟨2, 0⟩
  autoAck := false
  ctx := some 3
  rebuild := none

/-- A cleanup has come while the loop is in its handler, and waits for it. -/
theorem loop_channel_private_draining :
    ∃ p : State, Run step always (fresh defaultRabbitMQConfig) p ∧
      p.threads[4]? = some (.loop defaultLoop .handling) ∧
      p.threads[5]? = some (.cleanup .waitSubscriptions) ∧
      p.shared.amqp.chanOpen defaultLoop.channel = true := by
  obtain ⟨p, hr, hp⟩ := exists_run_of_replay step always (fresh defaultRabbitMQConfig)
    (fun p => p.threads[4]? == some (.loop defaultLoop .handling) &&
      p.threads[5]? == some (.cleanup .waitSubscriptions) && !p.shared.amqp.closed 0)
    (boot ++ .call (.subscribeWith "default-consumer" "lynx.queue" 0) :: solo 3 7 ++ solo 4 1 ++
      .call .cleanup :: solo 5 7) (by decide)
  simp only [Bool.and_eq_true, beq_iff_eq] at hp
  obtain ⟨⟨hloop, hcleanup⟩, hopen⟩ := hp
  obtain ⟨-, -, hchan⟩ := loop_channel_private _ p 4 defaultLoop .handling hr hloop
  exact ⟨p, hr, hloop, hcleanup, (hchan (by decide) (by decide)).trans hopen⟩

end LynxRabbit
