/-
# Messages between the broker and the dispatch loops

A queue of the broker and any number of dispatch loops that consume from it, with what is
under way between them.  The queue is a parameter, `QueueBroker`; what is assumed of it is
what RabbitMQ documents, `QueueBroker.Documented`.  The broker sends a message to a
consumer: its tag is on its way, in the library's buffer in the end, until the loop's
`select` receives it.  An Ack or Nack the library has accepted is on its way until the
broker handles it.  A channel may be closed at any moment, by either side and whether or
not the client knows yet; the broker then gives back what the channel held.

The loops are those of `Subscriptions.Deliveries`, step for step: `Receiver.act` is
`DispatchPc.step` with the deliveries it may receive taken from the wire and the
settlements put on it.  `Receiver.Sound` is what the wire, the log of a loop and the
broker's ledger have to do with one another; it is kept by every step of every party.
-/

import LynxRabbit.Amqp.Ledger
import LynxRabbit.Subscriptions.Deliveries
import Mathlib.Data.List.Infix

namespace LynxRabbit

open Runs Amqp

/-- The status a settlement asks for. -/
def Settlement.status : Settlement → Status
  | .ack _ => .acked
  | .nack _ requeue => if requeue then .requeued else .rejected

/-- Whether a settlement is about all deliveries up to its tag. -/
def Settlement.multiple : Settlement → Bool
  | .ack multiple => multiple
  | .nack multiple _ => multiple

/-- The delivery a loop receives in an event. -/
def Event.receivedTag : Event → Option Delivery
  | .received d => some d
  | _ => none

/-- The settlement an event puts on the wire: one the library has accepted. -/
def Event.sent : Event → Option (Delivery × Settlement)
  | .settled d st none => some (d, st)
  | _ => none

/-- The delivery in hand. -/
def DispatchPc.inHand : DispatchPc → List Delivery
  | .entered d => [d]
  | .inHandler d => [d]
  | .counting d _ => [d]
  | .settling d _ => [d]
  | _ => []

/-- A dispatch loop and its wire: the prefetch count its channel was given, the
deliveries that were sent to it and it has not received, and the settlements it has
sent and the broker has not handled. -/
structure Receiver extends Dispatcher where
  prefetch : ℤ
  arriving : List Delivery := []
  leaving : List (Delivery × Settlement) := []

/-- A loop receives the delivery that came first, and the library accepts an Ack or
Nack only while the channel is open. -/
def Receiver.allows (s : Client) (g : Receiver) : Turn → Bool
  | .delivery d => g.arriving.head? == some d
  | .reply none => s.amqp.chanOpen g.loop.channel
  | _ => true

/-- One atomic step of a dispatch loop. -/
def Receiver.act (s : Client) (g : Receiver) (o : Turn) : Option (Client × Receiver) :=
  if g.allows s o then
    (g.pc.step s g.loop o).map fun q => (q.1,
      { g with
        pc := q.2.1
        log := g.log ++ q.2.2
        arriving := g.arriving.drop (q.2.2.filterMap Event.receivedTag).length
        leaving := g.leaving ++ q.2.2.filterMap Event.sent })
  else none

/-- The client and the queue its loops consume from. -/
structure Mailroom (σ : Type*) where
  client : Client
  queue : σ

/-- What the broker, the network or a loop does next at a consumer. -/
inductive Move
  | loop (o : Turn)
  | deliver
  | settle
deriving DecidableEq, Repr

variable {σ μ ε : Type*} (B : QueueBroker σ μ ε)

/-- A step at consumer `i`; its channel is number `i` at the broker. -/
def Receiver.move (i : ℕ) (m : Mailroom σ) (g : Receiver) :
    Move → Option (Mailroom σ × Receiver × List Receiver)
  | .loop o => (g.act m.client o).map fun q => ({ m with client := q.1 }, q.2, [])
  | .deliver =>
    (B.deliver m.queue i g.loop.autoAck g.prefetch).map fun q =>
      ({ m with queue := q },
        { g with arriving := g.arriving ++ [(B.ledger m.queue).sentOn i + 1] }, [])
  | .settle =>
    match g.leaving, (B.ledger m.queue).lost i with
    | (d, st) :: rest, false =>
      some ({ m with queue := B.settle m.queue i d st.multiple st.status },
        { g with leaving := rest }, [])
    | _, _ => none

/-- What can happen next: a step at a consumer, `startDispatchLoop` starting another
loop, the rest of the program and the broker changing the client as in `dispatchStep`, a
channel closed, or anything else at the queue. -/
inductive FlowAction (ε : Type*)
  | consumer (i : ℕ) (a : Move)
  | start (sub : Subscription) (ch : Channel) (ctx : Option ℕ) (rebuild : Option ConnId)
  | world (s : Client)
  | close (i : ℕ)
  | other (e : ε)

/-- The loop and the consumer that the last step of `startDispatchLoop` starts. -/
def Client.receiver (s : Client) (sub : Subscription) (ch : Channel) (ctx : Option ℕ)
    (rebuild : Option ConnId) : Receiver where
  loop := ⟨sub, ch, (s.config.dispatchSettings sub.consumerName).1, ctx, rebuild⟩
  prefetch := (s.config.dispatchSettings sub.consumerName).2

/-- A step of the broker, the client and its loops. -/
def flowStep (p : Pool (Mailroom σ) Receiver) :
    FlowAction ε → Option (Pool (Mailroom σ) Receiver)
  | .consumer i a => p.step (Receiver.move B i) i a
  | .start sub ch ctx rebuild =>
    let s := p.shared.client
    some ⟨{ p.shared with client := { s with subscriptionWG := s.subscriptionWG + 1 } },
      p.threads ++ [s.receiver sub ch ctx rebuild]⟩
  | .world s =>
    some ⟨{ p.shared with client := { s with metrics := p.shared.client.metrics } }, p.threads⟩
  | .close i =>
    if i < p.threads.length then
      some ⟨{ p.shared with queue := B.close p.shared.queue i }, p.threads⟩
    else none
  | .other e => some ⟨{ p.shared with queue := B.other p.shared.queue e }, p.threads⟩

/-! ### A loop and its wire -/

/-- The delivery a turn brings. -/
def Turn.tags : Turn → List Delivery
  | .delivery d => [d]
  | _ => []

theorem DispatchPc.step_received {s s' : Client} {l : Loop} {pc pc' : DispatchPc} {o : Turn}
    {ev : List Event} (h : pc.step s l o = some (s', pc', ev)) :
    ev.filterMap Event.receivedTag = o.tags := by
  unfold DispatchPc.step at h
  split at h
  case h_1 => split at h <;> cases h; rfl
  case h_2 => split at h <;> cases h; rfl
  case h_3 => split at h <;> cases h; rfl
  case h_11 => cases h
  all_goals
    cases h
    rfl

/-- **A delivery is received, kept in hand and sent back.**  With manual acknowledgement
what a step sends and keeps is what was in hand and what it receives; a delivery drops out
when its settlement is refused. -/
theorem DispatchPc.step_inHand {s s' : Client} {l : Loop} {pc pc' : DispatchPc} {o : Turn}
    {ev : List Event} (h : pc.step s l o = some (s', pc', ev)) (ha : l.autoAck = false) :
    ((ev.filterMap Event.sent).map (·.1) ++ pc'.inHand).Sublist
      (pc.inHand ++ ev.filterMap Event.receivedTag) := by
  unfold DispatchPc.step at h
  split at h
  case h_1 => split at h <;> cases h; exact .slnil
  case h_2 => split at h <;> cases h; exact .slnil
  case h_3 => split at h <;> cases h; exact .slnil
  case h_7 d err =>
      cases h
      rw [ha]
      exact .refl [d]
  case h_8 d err answer =>
      cases h
      cases answer with
      | none => exact .refl [d]
      | some text => exact List.nil_sublist [d]
  case h_11 => cases h
  all_goals
    cases h
    exact .refl _

theorem Receiver.act_some {s s' : Client} {g g' : Receiver} {o : Turn}
    (h : g.act s o = some (s', g')) :
    ∃ pc' ev rest, g.pc.step s g.loop o = some (s', pc', ev) ∧
      g.arriving = ev.filterMap Event.receivedTag ++ rest ∧
      g' = { g with
        pc := pc'
        log := g.log ++ ev
        arriving := rest
        leaving := g.leaving ++ ev.filterMap Event.sent } := by
  unfold Receiver.act at h
  split_ifs at h with hallow
  obtain ⟨⟨s₁, pc', ev⟩, hpc, heq⟩ := Option.map_eq_some_iff.1 h
  obtain ⟨rfl, rfl⟩ := Prod.mk.inj heq
  refine ⟨pc', ev, g.arriving.drop (ev.filterMap Event.receivedTag).length, hpc, ?_, rfl⟩
  rw [DispatchPc.step_received hpc]
  cases o with
  | delivery d =>
      have hhead : g.arriving.head? = some d := by simpa [Receiver.allows] using hallow
      obtain ⟨rest, hrest⟩ := List.head?_eq_some_iff.1 hhead
      rw [hrest]
      rfl
  | done => rfl
  | stop => rfl
  | drained => rfl
  | ends e => rfl
  | reply answer => rfl
  | go => rfl

/-- The steps at consumer `i`. -/
inductive Receiver.Moves (i : ℕ) (m : Mailroom σ) (g : Receiver) : Mailroom σ → Receiver → Prop
  | act {o : Turn} {s' : Client} {g' : Receiver} : g.act m.client o = some (s', g') →
      Moves i m g { m with client := s' } g'
  | deliver {q' : σ} : B.deliver m.queue i g.loop.autoAck g.prefetch = some q' →
      Moves i m g { m with queue := q' }
        { g with arriving := g.arriving ++ [(B.ledger m.queue).sentOn i + 1] }
  | settle {d : Delivery} {st : Settlement} {rest : List (Delivery × Settlement)} :
      g.leaving = (d, st) :: rest → (B.ledger m.queue).lost i = false →
      Moves i m g { m with queue := B.settle m.queue i d st.multiple st.status }
        { g with leaving := rest }

variable {B}

theorem Receiver.moves_of_move {i : ℕ} {m m' : Mailroom σ} {g g' : Receiver} {a : Move}
    {new : List Receiver} (h : Receiver.move B i m g a = some (m', g', new)) :
    Receiver.Moves B i m g m' g' ∧ new = [] := by
  cases a with
  | loop o =>
      obtain ⟨⟨s', g₁⟩, hact, heq⟩ := Option.map_eq_some_iff.1 h
      obtain ⟨rfl, rfl, rfl⟩ := heq
      exact ⟨.act hact, rfl⟩
  | deliver =>
      obtain ⟨q', hq, heq⟩ := Option.map_eq_some_iff.1 h
      obtain ⟨rfl, rfl, rfl⟩ := heq
      exact ⟨.deliver hq, rfl⟩
  | settle =>
      simp only [Receiver.move] at h
      split at h
      · rename_i hleave hlost
        cases h
        exact ⟨.settle hleave hlost, rfl⟩
      · cases h

/-- **A settlement in the log ends one of the whole episodes.** -/
theorem Dispatcher.Processed.exists_episodes {g : Dispatcher} (hg : g.Processed) :
    ∃ es : List Episode,
      (es.map (·.delivery)).Sublist (g.log.filterMap Event.receivedTag) ∧
      (∀ e ∈ es, e.events g.loop.autoAck <:+: g.log) ∧
      ∀ d st answer, .settled d st answer ∈ g.log → g.loop.autoAck = false ∧
        ∃ e : HandlerEnd, st = settlement e.handlerErr ∧ ⟨d, e, answer⟩ ∈ es := by
  obtain ⟨es, rest, hlog, hrest⟩ := hg
  refine ⟨es, ?_, fun e he => ?_, fun d st answer h => ?_⟩
  · have hes : (es.flatMap (Episode.events g.loop.autoAck)).filterMap Event.receivedTag =
        es.map (·.delivery) := by
      rw [List.filterMap_flatMap, ← List.flatMap_singleton' (es.map _), List.flatMap_map]
      refine congrArg (List.flatMap · es) (funext fun e => ?_)
      cases g.loop.autoAck <;> rfl
    rw [hlog, List.filterMap_append, hes]
    exact List.sublist_append_left _ _
  · obtain ⟨es₁, es₂, rfl⟩ := List.append_of_mem he
    refine ⟨es₁.flatMap (Episode.events g.loop.autoAck),
      es₂.flatMap (Episode.events g.loop.autoAck) ++ rest, ?_⟩
    rw [hlog]
    simp
  · rw [hlog] at h
    rcases List.mem_append.1 h with h | h
    · obtain ⟨⟨d', e, a⟩, hmem, hev⟩ := List.mem_flatMap.1 h
      rw [Episode.events_eq] at hev
      cases ha : g.loop.autoAck with
      | true => rw [ha] at hev; simp at hev
      | false =>
          rw [ha] at hev
          simp only [List.mem_append, List.mem_cons, reduceCtorEq, List.not_mem_nil, or_false,
            false_or, Bool.false_eq_true, if_false, Event.settled.injEq] at hev
          obtain ⟨rfl, rfl, rfl⟩ := hev
          exact ⟨rfl, e, rfl, hmem⟩
    · -- nothing in hand has been settled
      cases hpc : g.pc with
      | counting d' err => rw [hpc] at hrest; obtain ⟨e, -, rfl⟩ := hrest; simp at h
      | settling d' err => rw [hpc] at hrest; obtain ⟨-, e, -, rfl⟩ := hrest; simp at h
      | _ => rw [hpc] at hrest; obtain rfl : rest = _ := hrest; simp at h

/-- A settlement that was sent comes behind a handler call that ended that way. -/
theorem Dispatcher.Processed.settled {g : Dispatcher} (hg : g.Processed) {d : Delivery}
    {st : Settlement} {answer : Option String} (h : .settled d st answer ∈ g.log) :
    g.loop.autoAck = false ∧ ∃ e : HandlerEnd, st = settlement e.handlerErr ∧
      Episode.events g.loop.autoAck ⟨d, e, answer⟩ <:+: g.log := by
  obtain ⟨es, -, hin, hset⟩ := hg.exists_episodes
  obtain ⟨ha, e, hst, he⟩ := hset d st answer h
  exact ⟨ha, e, hst, hin _ he⟩

/-! ### What the broker knows and what a loop did -/

/-- What a loop has to do with what the broker recorded of its channel `i`: its log is one
of whole episodes; it was sent the tags from one on and has received them in that order;
what is on its way to the broker was settled; and as long as the channel is not closed,
what was settled is on its way or has arrived, and everything that is on its way or in hand
is outstanding at the broker, within the window. -/
structure Receiver.Sound (q : Ledger μ) (i : ℕ) (g : Receiver) : Prop where
  processed : g.Processed
  received : g.log.filterMap Event.receivedTag ++ g.arriving = List.range' 1 (q.sentOn i)
  sent : ∀ x ∈ g.leaving, .settled x.1 x.2 none ∈ g.log
  pending : g.loop.autoAck = false → q.lost i = false →
    (g.leaving.map (·.1) ++ g.pc.inHand ++ g.arriving).Sublist (q.outstanding i)
  arrived : q.lost i = false → ∀ d st, .settled d st none ∈ g.log →
    (d, st) ∈ g.leaving ∨ ∃ e ∈ q.handed, e.channel = i ∧ e.tag = d ∧ e.status = st.status
  window : 0 < g.prefetch → ((q.outstanding i).length : ℤ) ≤ g.prefetch

/-- What the loop of its channel has to do with a message that was handed out. -/
def Receiver.Explains (lost : Bool) (g : Receiver) (h : Handed μ) : Prop :=
  match h.status with
  | .outstanding => g.loop.autoAck = false
  | .acked => .settled h.tag (.ack false) none ∈ g.log
  | .rejected => .settled h.tag (.nack false false) none ∈ g.log
  | .automatic => g.loop.autoAck = true
  | .requeued => g.loop.autoAck = false ∧ lost = true

/-- Every loop is sound, and every message sent is explained by its loop; only channels of
loops are closed. -/
structure FlowSound (q : Ledger μ) (gs : List Receiver) : Prop where
  sound : ∀ (i : ℕ) (g : Receiver), gs[i]? = some g → g.Sound q i
  explained : ∀ h ∈ q.handed, ∃ g, gs[h.channel]? = some g ∧ g.Explains (q.lost h.channel) h
  lost_lt : ∀ i, q.lost i = true → i < gs.length

/-- A step that leaves the channel as it was keeps the loop sound. -/
theorem Receiver.Sound.frame {q q' : Ledger μ} {i : ℕ} {g : Receiver} (h : g.Sound q i)
    (hs : q'.sentOn i = q.sentOn i) (ho : q'.outstanding i = q.outstanding i)
    (hl : q'.lost i = q.lost i) (hm : ∀ e ∈ q.handed, e.channel = i → e ∈ q'.handed) :
    g.Sound q' i where
  processed := h.processed
  received := by rw [hs]; exact h.received
  sent := h.sent
  pending := by rw [ho, hl]; exact h.pending
  arrived := by
    intro hlost d st hset
    rcases h.arrived (hl ▸ hlost) d st hset with hin | ⟨e, he, hc, ht, hst⟩
    · exact .inl hin
    · exact .inr ⟨e, hm e he hc, hc, ht, hst⟩
  window := by rw [ho]; exact h.window

theorem Receiver.Explains.grow {lost : Bool} {g g' : Receiver} {h : Handed μ}
    (he : g.Explains lost h) (hl : g'.loop = g.loop) (hlog : ∀ e ∈ g.log, e ∈ g'.log) :
    g'.Explains lost h := by
  unfold Receiver.Explains at he ⊢
  cases hst : h.status <;> simp only [hst, hl] at he ⊢
  · exact he
  · exact hlog _ he
  · exact hlog _ he
  · exact he
  · exact he

/-! ### Steps -/

theorem Receiver.Sound.act {q : Ledger μ} {i : ℕ} {s s' : Client} {g g' : Receiver} {o : Turn}
    (hg : g.Sound q i) (h : g.act s o = some (s', g')) : g'.Sound q i := by
  obtain ⟨pc', ev, rest, hpc, harr, rfl⟩ := Receiver.act_some h
  have hdisp : g.toDispatcher.act s o = some (s', ⟨g.loop, pc', g.log ++ ev⟩, []) := by
    unfold Dispatcher.act
    rw [hpc]
    rfl
  refine ⟨hg.processed.step hdisp, ?_, ?_, fun ha hl => ?_, fun hl d st hset => ?_, hg.window⟩
  · rw [List.filterMap_append, List.append_assoc, ← harr]
    exact hg.received
  · intro x hx
    rcases List.mem_append.1 hx with hx | hx
    · exact List.mem_append_left _ (hg.sent x hx)
    · obtain ⟨e, he, hex⟩ := List.mem_filterMap.1 hx
      refine List.mem_append_right _ ?_
      unfold Event.sent at hex
      split at hex
      · cases hex
        exact he
      · cases hex
  · have hold := hg.pending ha hl
    rw [harr] at hold
    refine List.Sublist.trans ?_ hold
    have hhand := (DispatchPc.step_inHand hpc ha).append_right rest
    have hleft := hhand.append_left (g.leaving.map (·.1))
    simpa only [List.map_append, List.append_assoc] using hleft
  · rcases List.mem_append.1 hset with hset | hset
    · rcases hg.arrived hl d st hset with hin | hin
      · exact .inl (List.mem_append_left _ hin)
      · exact .inr hin
    · exact .inl (List.mem_append_right _ (List.mem_filterMap.2 ⟨_, hset, rfl⟩))

/-- The broker sends the loop a message within its window. -/
theorem Receiver.Sound.deliver {q : Ledger μ} {i : ℕ} {g : Receiver} (hg : g.Sound q i)
    (hlost : q.lost i = false) (m : μ)
    (hroom : g.loop.autoAck = false → 0 < g.prefetch →
      ((q.outstanding i).length : ℤ) < g.prefetch) :
    Receiver.Sound (q.hand i m g.loop.autoAck hlost) i
      { g with arriving := g.arriving ++ [q.sentOn i + 1] } := by
  have hsent := Ledger.sentOn_hand m g.loop.autoAck hlost i
  have hout := Ledger.outstanding_hand m g.loop.autoAck hlost i
  rw [beq_self_eq_true, Bool.toNat_true] at hsent
  refine ⟨hg.processed, ?_, hg.sent, fun ha _ => ?_, fun hl' d st hset => ?_, fun hp => ?_⟩
  · rw [hsent, List.range'_concat, ← hg.received, List.append_assoc]
    simp [Nat.add_comm]
  · have ha' : g.loop.autoAck = false := ha
    rw [hout, if_pos ⟨rfl, ha'⟩]
    have hold := (hg.pending ha hlost).append_right [q.sentOn i + 1]
    simpa only [List.append_assoc] using hold
  · rcases hg.arrived hlost d st hset with hin | ⟨e, he, hkey⟩
    · exact .inl hin
    · exact .inr ⟨e, List.mem_append_left _ he, hkey⟩
  · rw [hout]
    have hold := hg.window hp
    cases ha : g.loop.autoAck with
    | true => simpa [ha] using hold
    | false =>
        have hlt := hroom ha hp
        simp only [and_self, if_true, List.length_append, List.length_singleton]
        show ((q.outstanding i).length + 1 : ℤ) ≤ g.prefetch
        omega

/-- What `dispatchDelivery` sends is one of two settlements. -/
theorem settlement_cases (err : Option String) :
    settlement err = .ack false ∨ settlement err = .nack false false := by
  unfold settlement
  split_ifs
  · exact .inr rfl
  · exact .inl rfl

/-- They name one delivery and do not ask for requeueing. -/
theorem Settlement.plain {st : Settlement} (h : st = .ack false ∨ st = .nack false false) :
    st.multiple = false ∧ st.status ≠ .outstanding ∧ st.status ≠ .requeued := by
  rcases h with rfl | rfl <;> decide

theorem Dispatcher.Processed.settlement_cases {g : Dispatcher} (hg : g.Processed) {d : Delivery}
    {st : Settlement} {answer : Option String} (h : .settled d st answer ∈ g.log) :
    st = .ack false ∨ st = .nack false false := by
  obtain ⟨-, e, hst, -⟩ := hg.settled h
  exact hst ▸ LynxRabbit.settlement_cases e.handlerErr

/-- **The broker never meets a tag it does not know.**  What a loop has sent is outstanding
as long as the broker holds the channel. -/
theorem Receiver.Sound.mem_outstanding {q : Ledger μ} {i : ℕ} {g : Receiver} (hg : g.Sound q i)
    (hlost : q.lost i = false) {x : Delivery × Settlement} (hx : x ∈ g.leaving) :
    x.1 ∈ q.outstanding i := by
  obtain ⟨ha, -⟩ := hg.processed.settled (hg.sent x hx)
  refine (hg.pending ha hlost).mem ?_
  exact List.mem_append_left _ (List.mem_append_left _ (List.mem_map_of_mem hx))

/-- Without its first element a list stays below one that has it once. -/
theorem sublist_filter_of_cons {d : Delivery} {xs ys : List Delivery} (h : (d :: xs).Sublist ys)
    (hnd : ys.Nodup) : xs.Sublist (ys.filter (· != d)) := by
  have hnot : d ∉ xs := (List.nodup_cons.1 (h.nodup hnd)).1
  have hkeep : xs.filter (· != d) = xs :=
    List.filter_eq_self.2 fun x hx => bne_iff_ne.2 fun he => hnot (he ▸ hx)
  have hfil := h.filter (· != d)
  rwa [List.filter_cons, if_neg (by simp), hkeep] at hfil

/-- The broker handles what the loop has sent first. -/
theorem Receiver.Sound.settle {q : Ledger μ} {i : ℕ} {g : Receiver} (hg : g.Sound q i)
    {d : Delivery} {st : Settlement} {rest : List (Delivery × Settlement)}
    (hlost : q.lost i = false) (hleave : g.leaving = (d, st) :: rest) :
    Receiver.Sound (q.resolve (Ledger.named i d false) st.status) i
      { g with leaving := rest } := by
  have hmem : (d, st) ∈ g.leaving := hleave ▸ List.mem_cons_self
  have hd : d ∈ q.outstanding i := hg.mem_outstanding hlost hmem
  obtain ⟨-, hne, -⟩ := Settlement.plain (hg.processed.settlement_cases (hg.sent _ hmem))
  have hout := q.outstanding_named i d hne i
  rw [if_pos rfl] at hout
  refine ⟨hg.processed, ?_, fun x hx => hg.sent x (hleave ▸ List.mem_cons_of_mem _ hx),
    fun ha _ => ?_, fun _ d' st' hset => ?_, fun hp => ?_⟩
  · rw [Ledger.sentOn_resolve]
    exact hg.received
  · -- the tag that goes is the first of those on their way
    have hold := hg.pending ha hlost
    rw [hleave] at hold
    rw [hout]
    exact sublist_filter_of_cons hold (q.nodup_outstanding i)
  · rcases hg.arrived hlost d' st' hset with hin | ⟨e, he, hc, ht, hst⟩
    · rw [hleave] at hin
      rcases List.mem_cons.1 hin with heq | hin
      · -- this is the one that has just arrived
        obtain ⟨rfl, rfl⟩ := Prod.mk.inj heq
        exact .inr (Ledger.exists_mem_resolve hd st'.status)
      · exact .inl hin
    · have hst' := (Settlement.plain (hg.processed.settlement_cases hset)).2.1
      exact .inr ⟨e, Ledger.mem_resolve_of_settled he (hst ▸ hst'), hc, ht, hst⟩
  · rw [hout]
    have hle := List.length_filter_le (· != d) (q.outstanding i)
    have hold := hg.window hp
    show ((List.filter (· != d) (q.outstanding i)).length : ℤ) ≤ g.prefetch
    omega

/-- The settlement in the log explains what became of the delivery. -/
theorem Receiver.explains_of_settled {g : Receiver} {h : Handed μ} {st : Settlement}
    (hst : st = .ack false ∨ st = .nack false false) (hlog : .settled h.tag st none ∈ g.log)
    (hs : h.status = st.status) (lost : Bool) : g.Explains lost h := by
  unfold Receiver.Explains
  rcases hst with rfl | rfl
  · rw [hs]
    exact hlog
  · rw [hs]
    exact hlog

/-- **A step at consumer `i`** keeps the flow sound when it keeps the loop there sound,
explains what its channel was sent, and leaves the other channels alone. -/
theorem FlowSound.focus {q q' : Ledger μ} {i : ℕ} {l r : List Receiver} {g g' : Receiver}
    (h : FlowSound q (l ++ g :: r)) (hi : l.length = i) (hg : g'.Sound q' i)
    (hself : ∀ e ∈ q'.handed, e.channel = i → g'.Explains (q'.lost i) e)
    (hother : ∀ j, j ≠ i → q'.sentOn j = q.sentOn j ∧ q'.outstanding j = q.outstanding j)
    (hmem : ∀ e, e.channel ≠ i → (e ∈ q'.handed ↔ e ∈ q.handed)) (hlost : q'.lost = q.lost) :
    FlowSound q' (l ++ g' :: r ++ []) where
  sound := by
    intro j u hu
    rcases getElem?_focus_cases hu g with ⟨rfl, rfl⟩ | ⟨hj, hu⟩ | ⟨-, hu⟩
    · exact hi ▸ hg
    · rw [hi] at hj
      obtain ⟨hs, ho⟩ := hother j hj
      exact (h.sound j u hu).frame hs ho (congrFun hlost j) fun e he hc => (hmem e (hc ▸ hj)).2 he
    · cases hu
  explained := by
    intro e he
    by_cases hc : e.channel = i
    · refine ⟨g', ?_, hc ▸ hself e he hc⟩
      show (l ++ g' :: r ++ [])[e.channel]? = some g'
      rw [hc, ← hi]
      exact getElem?_focus_self l r [] g'
    · obtain ⟨u, hu, hex⟩ := h.explained e ((hmem e hc).1 he)
      exact ⟨u, getElem?_focus_of_ne hu (by rw [hi]; exact hc) g' [], hlost ▸ hex⟩
  lost_lt := by
    intro j hj
    have hlt := h.lost_lt j (hlost ▸ hj)
    simpa using hlt

/-- What was sent on the channel of a loop is explained by that loop. -/
theorem FlowSound.explains {q : Ledger μ} {gs : List Receiver} (h : FlowSound q gs) {i : ℕ}
    {g : Receiver} (hg : gs[i]? = some g) {e : Handed μ} (he : e ∈ q.handed)
    (hc : e.channel = i) : g.Explains (q.lost i) e := by
  obtain ⟨u, hu, hex⟩ := h.explained e he
  subst hc
  obtain rfl : g = u := Option.some.inj (hg.symm.trans hu)
  exact hex

section Move

variable {q : Ledger μ} {i : ℕ} {l r : List Receiver} {g : Receiver}

theorem FlowSound.act (h : FlowSound q (l ++ g :: r)) (hi : l.length = i)
    (hget : (l ++ g :: r)[i]? = some g) {o : Turn} {s s' : Client} {g' : Receiver}
    (hact : g.act s o = some (s', g')) :
    FlowSound q (l ++ g' :: r ++ []) := by
  refine h.focus hi ((h.sound i g hget).act hact) (fun e he hc => ?_)
    (fun _ _ => ⟨rfl, rfl⟩) (fun _ _ => Iff.rfl) rfl
  obtain ⟨pc', ev, rest, -, -, rfl⟩ := Receiver.act_some hact
  exact (h.explains hget he hc).grow rfl fun _ hm => List.mem_append_left _ hm

theorem FlowSound.deliver (h : FlowSound q (l ++ g :: r)) (hi : l.length = i)
    (hget : (l ++ g :: r)[i]? = some g) (hlost : q.lost i = false) (m : μ)
    (hroom : g.loop.autoAck = false → 0 < g.prefetch →
      ((q.outstanding i).length : ℤ) < g.prefetch) :
    FlowSound (q.hand i m g.loop.autoAck hlost)
      (l ++ { g with arriving := g.arriving ++ [q.sentOn i + 1] } :: r ++ []) := by
  refine h.focus hi ((h.sound i g hget).deliver hlost m hroom) (fun e he hc => ?_) (fun j hj => ?_)
    (fun e hc => ?_) rfl
  · show Receiver.Explains (q.lost i) _ e
    rcases List.mem_append.1 he with he | he
    · exact (h.explains hget he hc).grow rfl fun _ hm => hm
    · obtain rfl := List.mem_singleton.1 he
      cases ha : g.loop.autoAck
      · exact ha
      · exact ha
  · have hne : (i == j) = false := by simpa using fun he : i = j => hj he.symm
    refine ⟨?_, ?_⟩
    · rw [Ledger.sentOn_hand m _ hlost j, hne]
      rfl
    · rw [Ledger.outstanding_hand m _ hlost j, if_neg fun hc => hj hc.1.symm, List.append_nil]
  · simp only [Ledger.hand, List.mem_append, List.mem_singleton, or_iff_left_iff_imp]
    rintro rfl
    exact absurd rfl hc

theorem FlowSound.settle (h : FlowSound q (l ++ g :: r)) (hi : l.length = i)
    (hget : (l ++ g :: r)[i]? = some g) {d : Delivery} {st : Settlement}
    {rest : List (Delivery × Settlement)} (hleave : g.leaving = (d, st) :: rest)
    (hlost : q.lost i = false) :
    FlowSound (q.resolve (Ledger.named i d false) st.status)
      (l ++ { g with leaving := rest } :: r ++ []) := by
  have hg := h.sound i g hget
  have hsent := hg.sent _ (hleave ▸ List.mem_cons_self)
  have hplain := hg.processed.settlement_cases hsent
  refine h.focus hi (hg.settle hlost hleave) (fun e he hc => ?_) (fun j hj => ?_)
    (fun e hc => Ledger.mem_resolve_named hc) rfl
  · obtain ⟨e', he', rfl⟩ := List.mem_map.1 he
    rw [Ledger.channel_resolve] at hc
    show Receiver.Explains (q.lost i) _ _
    by_cases hheld : e'.held (Ledger.named i d false) = true
    · refine Receiver.explains_of_settled hplain ?_ ?_ _
      · have htag : e'.tag = d := by
          simp only [Handed.held, Ledger.named, Bool.and_eq_true, beq_iff_eq] at hheld
          simpa using hheld.2.2
        rw [Ledger.tag_resolve, htag]
        exact hsent
      · rw [Ledger.status_resolve, if_pos hheld]
    · have hsame : e'.resolve (Ledger.named i d false) st.status = e' := if_neg hheld
      rw [hsame]
      exact (h.explains hget he' hc).grow rfl fun _ hm => hm
  · have hout := q.outstanding_named i d (Settlement.plain hplain).2.1 j
    rw [if_neg hj] at hout
    exact ⟨Ledger.sentOn_resolve _ _ _ j, hout⟩

end Move

/-- What the broker does with a settlement that it handles. -/
theorem Receiver.Sound.ledger_settle (hB : B.Documented) {b : σ} {i : ℕ} {g : Receiver}
    (hg : g.Sound (B.ledger b) i) (hlost : (B.ledger b).lost i = false) {d : Delivery}
    {st : Settlement} (hx : (d, st) ∈ g.leaving) :
    B.ledger (B.settle b i d st.multiple st.status) =
      (B.ledger b).resolve (Ledger.named i d false) st.status := by
  rw [hB.settles (hg.mem_outstanding hlost hx),
    (Settlement.plain (hg.processed.settlement_cases (hg.sent _ hx))).1]

/-- Every step at a consumer keeps the flow sound. -/
theorem FlowSound.move (hB : B.Documented) {p p' : Pool (Mailroom σ) Receiver} {i : ℕ} {a : Move}
    (h : FlowSound (B.ledger p.shared.queue) p.threads)
    (hs : p.step (Receiver.move B i) i a = some p') :
    FlowSound (B.ledger p'.shared.queue) p'.threads := by
  obtain ⟨l, g, r, m', g', new, hl, hi, hget, hact, rfl⟩ := Pool.step_focus hs
  obtain ⟨hm, rfl⟩ := Receiver.moves_of_move hact
  have hg := h.sound i g hget
  rw [hl] at h hget
  cases hm with
  | act ha => exact h.act hi hget ha
  | deliver hq =>
      obtain ⟨hlost, m, heq⟩ := hB.delivers hq
      rw [heq]
      refine h.deliver hi hget hlost m fun ha hp => ?_
      rw [ha] at hq
      exact hB.window hp hq
  | settle hleave hlost =>
      rw [hg.ledger_settle hB hlost (hleave ▸ List.mem_cons_self)]
      exact h.settle hi hget hleave hlost

/-- A channel is closed: its loop is left alone, and the others notice nothing. -/
theorem Receiver.Sound.lose {q : Ledger μ} {j : ℕ} {g : Receiver} (hg : g.Sound q j) (i : ℕ) :
    g.Sound (q.lose i) j := by
  have hs : (q.lose i).sentOn j = q.sentOn j := Ledger.sentOn_resolve ..
  have ho := q.outstanding_lose i j
  by_cases hj : j = i
  · subst hj
    rw [if_pos rfl] at ho
    have hlost : (q.lose j).lost j ≠ false := by
      rw [show (q.lose j).lost j = true from Function.update_self ..]
      decide
    refine ⟨hg.processed, by rw [hs]; exact hg.received, hg.sent, fun _ hl => absurd hl hlost,
      fun hl => absurd hl hlost, fun hp => ?_⟩
    rw [ho]
    exact Int.le_of_lt hp
  · rw [if_neg hj] at ho
    refine hg.frame hs ho (Function.update_of_ne hj ..) fun e he hc => ?_
    refine List.mem_map.2 ⟨e, he, if_neg ?_⟩
    simp [Handed.held, hc, hj]

/-- A message that was outstanding on the channel is given back because it was closed. -/
theorem Receiver.Explains.lose {q : Ledger μ} {g : Receiver} {e : Handed μ}
    (hex : g.Explains (q.lost e.channel) e) (i : ℕ) :
    g.Explains ((q.lose i).lost e.channel) (e.resolve (·.channel == i) .requeued) := by
  show Receiver.Explains (Function.update q.lost i true e.channel) g _
  by_cases hheld : e.held (·.channel == i) = true
  · simp only [Handed.held, Bool.and_eq_true, beq_iff_eq] at hheld
    have hauto : g.loop.autoAck = false := by
      rwa [Receiver.Explains, hheld.1] at hex
    unfold Receiver.Explains
    rw [Ledger.status_resolve, if_pos (by simp [Handed.held, hheld])]
    exact ⟨hauto, by rw [hheld.2, Function.update_self]⟩
  · have hsame : e.resolve (·.channel == i) .requeued = e := if_neg hheld
    rw [hsame]
    unfold Receiver.Explains at hex ⊢
    cases hst : e.status <;> simp only [hst] at hex ⊢
    case requeued =>
      refine ⟨hex.1, ?_⟩
      rw [Function.update_apply]
      split_ifs
      · rfl
      · exact hex.2
    all_goals exact hex

theorem FlowSound.lose {q : Ledger μ} {gs : List Receiver} (h : FlowSound q gs) {i : ℕ}
    (hi : i < gs.length) : FlowSound (q.lose i) gs where
  sound := fun j g hg => (h.sound j g hg).lose i
  explained := by
    intro e he
    obtain ⟨e', he', rfl⟩ := List.mem_map.1 he
    obtain ⟨g, hg, hex⟩ := h.explained e' he'
    rw [Ledger.channel_resolve]
    exact ⟨g, hg, hex.lose i⟩
  lost_lt := by
    intro j hj
    rcases Ledger.lost_lose hj with hj | rfl
    · exact h.lost_lt j hj
    · exact hi

/-- Messages are sent to loops that are there. -/
theorem FlowSound.channel_lt {q : Ledger μ} {gs : List Receiver} (h : FlowSound q gs)
    {e : Handed μ} (he : e ∈ q.handed) : e.channel < gs.length := by
  obtain ⟨g, hg, -⟩ := h.explained e he
  exact (List.getElem?_eq_some_iff.1 hg).1

/-- A loop that has just been started. -/
theorem Client.receiver_sound {q : Ledger μ} {i : ℕ} (h : ∀ e ∈ q.handed, e.channel ≠ i)
    (s : Client) (sub : Subscription) (ch : Channel) (ctx : Option ℕ) (rebuild : Option ConnId) :
    (s.receiver sub ch ctx rebuild).Sound q i := by
  have hsent : q.sentOn i = 0 := by
    refine List.countP_eq_zero.2 fun e he => ?_
    simpa using h e he
  have hout : q.outstanding i = [] := by
    refine List.eq_nil_iff_forall_not_mem.2 fun tag hm => ?_
    obtain ⟨e, he, -, hc, -⟩ := Ledger.mem_outstanding.1 hm
    exact h e he hc
  refine ⟨⟨[], [], rfl, rfl⟩, ?_, fun x hx => absurd hx List.not_mem_nil,
    fun _ _ => List.nil_sublist _, fun _ d st hset => absurd hset List.not_mem_nil, fun hp => ?_⟩
  · rw [hsent]
    rfl
  · rw [hout]
    exact Int.le_of_lt hp

theorem FlowSound.start {q : Ledger μ} {gs : List Receiver} (h : FlowSound q gs) (s : Client)
    (sub : Subscription) (ch : Channel) (ctx : Option ℕ) (rebuild : Option ConnId) :
    FlowSound q (gs ++ [s.receiver sub ch ctx rebuild]) where
  sound := by
    intro i g hg
    by_cases hi : i < gs.length
    · rw [List.getElem?_append_left hi] at hg
      exact h.sound i g hg
    · rcases getElem?_snoc_cases hg with hg | rfl
      · exact absurd (List.getElem?_eq_some_iff.1 hg).1 hi
      · refine Client.receiver_sound (fun e he hc => hi ?_) ..
        exact hc ▸ h.channel_lt he
  explained := by
    intro e he
    obtain ⟨g, hg, hex⟩ := h.explained e he
    exact ⟨g, by rw [List.getElem?_append_left (h.channel_lt he)]; exact hg, hex⟩
  lost_lt := by
    intro i hi
    rw [List.length_append]
    exact Nat.lt_of_lt_of_le (h.lost_lt i hi) (Nat.le_add_right _ _)

/-- **Every run is sound**, from a queue of which nothing was sent. -/
theorem flowSound_of_run (hB : B.Documented) {s₀ : Client} {b₀ : σ}
    {p : Pool (Mailroom σ) Receiver} (h₀ : B.ledger b₀ = .empty)
    (h : Run (flowStep B) always ⟨⟨s₀, b₀⟩, []⟩ p) :
    FlowSound (B.ledger p.shared.queue) p.threads := by
  refine h.invariant (I := fun p => FlowSound (B.ledger p.shared.queue) p.threads) ?_ ?_
  · show FlowSound (B.ledger b₀) []
    rw [h₀]
    refine ⟨fun i g hg => ?_, fun e he => absurd he List.not_mem_nil, fun i hi => ?_⟩
    · cases hg
    · cases hi
  · intro p a p' ih _ hs
    cases a with
    | consumer i a => exact ih.move hB hs
    | start sub ch ctx rebuild =>
        obtain rfl := Option.some.inj hs
        exact ih.start _ sub ch ctx rebuild
    | world s =>
        obtain rfl := Option.some.inj hs
        exact ih
    | close i =>
        simp only [flowStep] at hs
        split_ifs at hs with hi
        obtain rfl := Option.some.inj hs
        show FlowSound (B.ledger (B.close p.shared.queue i)) p.threads
        rw [hB.closes]
        exact ih.lose hi
    | other e =>
        obtain rfl := Option.some.inj hs
        show FlowSound (B.ledger (B.other p.shared.queue e)) p.threads
        rw [hB.keeps]
        exact ih

end LynxRabbit
