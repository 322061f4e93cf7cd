/-
# What becomes of a delivery

What the dispatch loops of `startDispatchLoop` make of a queue that behaves as RabbitMQ
documents, in every run of `flowStep`: any number of loops over one queue, handlers that end
in any way, Acks the library refuses, channels that are closed while a message is in a
handler, and whatever else may happen to the queue.

With `auto_ack` off a delivery is acknowledged only behind a handler call for it that
returned nil, and rejected only behind one that failed or panicked; as long as its channel
is not closed these are the only ways for it to go, and the Ack or Nack of every call gets
there (`settled_only_handled`).  A loop calls its handler once for each delivery and in the
order they were sent, and a delivery is given back to the queue only by a channel that was
closed, since a Nack never asks for requeueing (`given_back_only_by_close`).  The broker
never meets a tag it does not know, and what is under way stays within the prefetch count
(`wire_within_window`).
-/

import LynxRabbit.Amqp.Custody
import LynxRabbit.Setup.Topology
import LynxRabbit.Subscriptions.Flow

namespace LynxRabbit

open Runs Amqp

variable {σ μ ε : Type*} {B : QueueBroker σ μ ε}

/-- The delivery a handler is called with in an event. -/
def Event.invokedTag : Event → Option Delivery
  | .invoked d => some d
  | _ => none

/-- The messages the handler of a loop was called with, in order. -/
def Receiver.messages (q : Ledger μ) (i : ℕ) (g : Receiver) : List μ :=
  (g.log.filterMap Event.invokedTag).filterMap (q.messageAt i)

/-- A whole episode of the loop is about this delivery: its handler was called, failed or
did not, was counted, and the settlement was accepted. -/
def Receiver.Handled (g : Receiver) (d : Delivery) (failed : Bool) : Prop :=
  ∃ e : HandlerEnd, e.failed = failed ∧
    Episode.events g.loop.autoAck ⟨d, e, none⟩ <:+: g.log

/-! ### The handler calls of a loop -/

/-- In a whole episode the handler is called with what was received. -/
theorem filterMap_episodes (autoAck : Bool) (es : List Episode) :
    (es.flatMap (Episode.events autoAck)).filterMap Event.invokedTag =
      (es.flatMap (Episode.events autoAck)).filterMap Event.receivedTag := by
  rw [List.filterMap_flatMap, List.filterMap_flatMap]
  refine congrArg (List.flatMap · es) (funext fun e => ?_)
  cases autoAck <;> rfl

/-- A handler is called with what was received, in that order. -/
theorem Dispatcher.Processed.invoked_initial {g : Dispatcher} (hg : g.Processed) :
    g.log.filterMap Event.invokedTag <+: g.log.filterMap Event.receivedTag := by
  obtain ⟨es, rest, hlog, hrest⟩ := hg
  rw [hlog, List.filterMap_append, List.filterMap_append, filterMap_episodes,
    List.prefix_append_right_inj]
  cases hpc : g.pc with
  | entered d => rw [hpc] at hrest; rw [show rest = _ from hrest]; exact List.nil_prefix
  | counting d err => rw [hpc] at hrest; obtain ⟨e, -, rfl⟩ := hrest; exact List.prefix_rfl
  | settling d err => rw [hpc] at hrest; obtain ⟨-, e, -, rfl⟩ := hrest; exact List.prefix_rfl
  | _ => rw [hpc] at hrest; rw [show rest = _ from hrest]; exact List.prefix_rfl

theorem Receiver.Sound.invoked_initial {q : Ledger μ} {i : ℕ} {g : Receiver} (hg : g.Sound q i) :
    g.log.filterMap Event.invokedTag <+: List.range' 1 (q.sentOn i) := by
  rw [← hg.received]
  exact hg.processed.invoked_initial.trans (List.prefix_append _ _)

/-- The messages of a loop are the first of those that went out on its channel. -/
theorem Receiver.Sound.messages_initial {q : Ledger μ} {i : ℕ} {g : Receiver}
    (hg : g.Sound q i) :
    g.messages q i <+: q.messagesOn i := by
  rw [← q.filterMap_messageAt i]
  exact hg.invoked_initial.filterMap _

/-- No handler is called twice with one delivery. -/
theorem Receiver.Sound.nodup_invoked {q : Ledger μ} {i : ℕ} {g : Receiver} (hg : g.Sound q i) :
    (g.log.filterMap Event.invokedTag).Nodup :=
  hg.invoked_initial.sublist.nodup List.nodup_range'

theorem Receiver.Sound.handled {q : Ledger μ} {i : ℕ} {g : Receiver} (hg : g.Sound q i)
    {d : Delivery} {failed : Bool}
    (h : .settled d (if failed then .nack false false else .ack false) none ∈ g.log) :
    g.Handled d failed := by
  obtain ⟨-, e, hst, hin⟩ := hg.processed.settled h
  refine ⟨e, ?_, hin⟩
  unfold settlement at hst
  rw [e.isSome_handlerErr] at hst
  cases hf : e.failed <;> cases failed <;> simp [hf] at hst ⊢

/-- A delivery is settled once: two settlements of it in the log are the same. -/
theorem Receiver.Sound.settled_unique {q : Ledger μ} {i : ℕ} {g : Receiver} (hg : g.Sound q i)
    {d : Delivery} {st st' : Settlement} {answer answer' : Option String}
    (h : .settled d st answer ∈ g.log) (h' : .settled d st' answer' ∈ g.log) : st = st' := by
  obtain ⟨es, hsub, -, hset⟩ := hg.processed.exists_episodes
  obtain ⟨-, e, rfl, he⟩ := hset d st answer h
  obtain ⟨-, e', rfl, he'⟩ := hset d st' answer' h'
  have hnd : (es.map (·.delivery)).Nodup := by
    refine (hsub.trans (List.sublist_append_left _ g.arriving)).nodup ?_
    rw [hg.received]
    exact List.nodup_range'
  have heq : (⟨d, e, answer⟩ : Episode) = ⟨d, e', answer'⟩ :=
    List.inj_on_of_nodup_map hnd he he' rfl
  rw [(Episode.mk.inj heq).2.1]

/-- What a whole episode has settled. -/
theorem Receiver.Handled.settled {g : Receiver} {d : Delivery} {failed : Bool}
    (h : g.Handled d failed) (ha : g.loop.autoAck = false) :
    .settled d (if failed then .nack false false else .ack false) none ∈ g.log := by
  obtain ⟨e, rfl, hin⟩ := h
  refine hin.subset ?_
  rw [Episode.events, ha]
  simp

/-! ### Settled only when handled -/

/-- What became of a delivery agrees with what its loop did. -/
theorem FlowSound.fate {q : Ledger μ} {gs : List Receiver} (h : FlowSound q gs) {e : Handed μ}
    (he : e ∈ q.handed) :
    ∃ g, gs[e.channel]? = some g ∧ (e.status = .automatic ↔ g.loop.autoAck = true) ∧
      (e.status = .acked → g.Handled e.tag false) ∧
      (e.status = .rejected → g.Handled e.tag true) := by
  obtain ⟨g, hg, hex⟩ := h.explained e he
  have hs := h.sound _ g hg
  refine ⟨g, hg, ?_, fun hst => hs.handled ?_, fun hst => hs.handled ?_⟩
  · unfold Receiver.Explains at hex
    cases hst : e.status <;> simp only [hst] at hex
    · simp [hex]
    · simp [(hs.processed.settled hex).1]
    · simp [(hs.processed.settled hex).1]
    · simp [hex]
    · simp [hex.1]
  · rwa [Receiver.Explains, hst] at hex
  · rwa [Receiver.Explains, hst] at hex

/-- **The settlement of a call is on its way or has arrived**, as long as the channel of the
delivery is not closed. -/
theorem FlowSound.settled_iff {q : Ledger μ} {gs : List Receiver} (h : FlowSound q gs)
    {e : Handed μ} (he : e ∈ q.handed) {g : Receiver} (hg : gs[e.channel]? = some g)
    (ha : g.loop.autoAck = false) (hl : q.lost e.channel = false) (failed : Bool)
    {st : Settlement} (hst : st = if failed then .nack false false else .ack false)
    (hfate : e.status = st.status → g.Handled e.tag failed) :
    e.status = st.status ∨ (e.tag, st) ∈ g.leaving ↔ g.Handled e.tag failed := by
  have hs := h.sound _ g hg
  constructor
  · rintro (hstatus | hleave)
    · exact hfate hstatus
    · exact hs.handled (hst ▸ hs.sent _ hleave)
  · intro hh
    have hset := hh.settled ha
    rw [← hst] at hset
    rcases hs.arrived hl _ _ hset with hin | ⟨e', he', hc, ht, hst'⟩
    · exact .inr hin
    · obtain rfl := Ledger.eq_of_key he' he hc ht
      exact .inl hst'

/-- **A delivery is settled only when it was handled.**  In every run of any number of loops
over a queue that behaves as documented, every delivery that was sent is one of a loop.  It
counts as delivered at once exactly when the loop has `auto_ack`.  Otherwise it is
acknowledged only behind a handler call for it that returned nil, and rejected only behind
one that returned an error or panicked, and there are not calls of both kinds.  As long as its
channel is not closed the converse holds as well: it is acknowledged, or its Ack is on the
way, if and only if its handler was called, returned nil and the library accepted the Ack,
and the same for a handler that failed and the Nack. -/
theorem settled_only_handled (B : QueueBroker σ μ ε) (hB : B.Documented) (s₀ : Client) (b₀ : σ)
    (h₀ : B.ledger b₀ = .empty) (p : Pool (Mailroom σ) Receiver)
    (h : Run (flowStep B) always ⟨⟨s₀, b₀⟩, []⟩ p) :
    ∀ e ∈ (B.ledger p.shared.queue).handed, ∃ g, p.threads[e.channel]? = some g ∧
      (e.status = .automatic ↔ g.loop.autoAck = true) ∧
      (e.status = .acked → g.Handled e.tag false) ∧
      (e.status = .rejected → g.Handled e.tag true) ∧
      (g.loop.autoAck = false → g.Handled e.tag true → ¬ g.Handled e.tag false) ∧
      (g.loop.autoAck = false → (B.ledger p.shared.queue).lost e.channel = false →
        (e.status = .acked ∨ (e.tag, .ack false) ∈ g.leaving ↔ g.Handled e.tag false) ∧
        (e.status = .rejected ∨ (e.tag, .nack false false) ∈ g.leaving ↔
          g.Handled e.tag true)) := by
  intro e he
  have hs := flowSound_of_run hB h₀ h
  obtain ⟨g, hg, hauto, hacked, hrejected⟩ := hs.fate he
  refine ⟨g, hg, hauto, hacked, hrejected, fun ha htrue hfalse => ?_, fun ha hl => ⟨?_, ?_⟩⟩
  · cases (hs.sound _ g hg).settled_unique (htrue.settled ha) (hfalse.settled ha)
  · exact hs.settled_iff he hg ha hl false rfl hacked
  · exact hs.settled_iff he hg ha hl true rfl hrejected

/-- A loop of the README's consumer. -/
def readmeSubscription : Subscription := ⟨0, "default-consumer", "lynx.queue", 0⟩

/-- One message is acknowledged, and the other is in its handler. -/
def inHandlerRun : List (FlowAction String) :=
  [.other "a", .other "b", .start readmeSubscription ⟨0, 0⟩ none none,
    .consumer 0 .deliver, .consumer 0 (.loop (.delivery 1)), .consumer 0 (.loop .go),
    .consumer 0 (.loop (.ends .ok)), .consumer 0 (.loop .go), .consumer 0 (.loop (.reply none)),
    .consumer 0 .settle, .consumer 0 .deliver, .consumer 0 (.loop (.delivery 2)),
    .consumer 0 (.loop .go)]

/-- Then the channel is closed; the message comes to a second loop, fails there and is
rejected. -/
def redeliveredRun : List (FlowAction String) :=
  inHandlerRun ++
    [.close 0, .start readmeSubscription ⟨1, 1⟩ none (some 1), .consumer 1 .deliver,
      .consumer 1 (.loop (.delivery 1)), .consumer 1 (.loop .go),
      .consumer 1 (.loop (.ends (.error "boom"))), .consumer 1 (.loop .go),
      .consumer 1 (.loop (.reply none)), .consumer 1 .settle]

/-- How that ends. -/
def redelivered (p : Pool (Mailroom (Custody String)) Receiver) : Bool :=
  p.shared.queue.ledger.handed ==
    [⟨0, 1, "a", .acked⟩, ⟨0, 2, "b", .requeued⟩, ⟨1, 1, "b", .rejected⟩]

theorem exists_redelivered :
    ∃ p, Run (flowStep (custodyBroker String)) always ⟨⟨connectedClient readmeConfig, {}⟩, []⟩ p ∧
      redelivered p = true :=
  exists_run_of_replay (flowStep (custodyBroker String)) always
    ⟨⟨connectedClient readmeConfig, {}⟩, []⟩ redelivered redeliveredRun (by decide)

theorem settled_only_handled_redelivered :
    ∃ p : Pool (Mailroom (Custody String)) Receiver, redelivered p = true ∧
      ∀ e ∈ p.shared.queue.ledger.handed, ∃ g, p.threads[e.channel]? = some g ∧
        (e.status = .acked → g.Handled e.tag false) ∧
        (e.status = .rejected → g.Handled e.tag true) := by
  obtain ⟨p, hr, hp⟩ := exists_redelivered
  refine ⟨p, hp, fun e he => ?_⟩
  obtain ⟨g, hg, -, hacked, hrejected, -⟩ :=
    settled_only_handled (custodyBroker String) custodyBroker_documented _ {} rfl p hr e he
  exact ⟨g, hg, hacked, hrejected⟩

/-! ### Given back only by a channel that was closed -/

theorem FlowSound.requeued {q : Ledger μ} {gs : List Receiver} (h : FlowSound q gs)
    {e : Handed μ} (he : e ∈ q.handed) (hst : e.status = .requeued) :
    q.lost e.channel = true ∧ ∃ g, gs[e.channel]? = some g ∧ g.loop.autoAck = false := by
  obtain ⟨g, hg, hex⟩ := h.explained e he
  rw [Receiver.Explains, hst] at hex
  exact ⟨hex.2, g, hg, hex.1⟩

/-- **A message comes to a handler again only when a channel was closed.**  In every run over a
queue that behaves as documented, a loop calls its handler with the first messages that were
sent on its channel, each once and in the order they were sent.  A delivery is given back to
the queue, from where alone its message can be sent again, only from a loop without `auto_ack`
and only because its channel was closed: a handler that fails does not bring its message
back. -/
theorem given_back_only_by_close (B : QueueBroker σ μ ε) (hB : B.Documented) (s₀ : Client)
    (b₀ : σ) (h₀ : B.ledger b₀ = .empty) (p : Pool (Mailroom σ) Receiver)
    (h : Run (flowStep B) always ⟨⟨s₀, b₀⟩, []⟩ p) :
    (∀ i g, p.threads[i]? = some g → (g.log.filterMap Event.invokedTag).Nodup ∧
      g.messages (B.ledger p.shared.queue) i <+: (B.ledger p.shared.queue).messagesOn i) ∧
    ∀ e ∈ (B.ledger p.shared.queue).handed, e.status = .requeued →
      (B.ledger p.shared.queue).lost e.channel = true ∧
        ∃ g, p.threads[e.channel]? = some g ∧ g.loop.autoAck = false := by
  have hs := flowSound_of_run hB h₀ h
  refine ⟨fun i g hg => ⟨?_, ?_⟩, fun e he hst => hs.requeued he hst⟩
  · exact (hs.sound i g hg).nodup_invoked
  · exact (hs.sound i g hg).messages_initial

theorem given_back_only_by_close_redelivered :
    ∃ p : Pool (Mailroom (Custody String)) Receiver, redelivered p = true ∧
      p.shared.queue.ledger.lost 0 = true ∧
      ∀ g, p.threads[1]? = some g → g.messages p.shared.queue.ledger 1 <+: ["b"] := by
  obtain ⟨p, hr, hp⟩ := exists_redelivered
  obtain ⟨hcalls, hback⟩ :=
    given_back_only_by_close (custodyBroker String) custodyBroker_documented _ {} rfl p hr
  have hhanded := beq_iff_eq.1 hp
  refine ⟨p, hp, (hback ⟨0, 2, "b", .requeued⟩ ?_ rfl).1, fun g hg => ?_⟩
  · show _ ∈ p.shared.queue.ledger.handed
    rw [hhanded]
    decide
  · have hon : p.shared.queue.ledger.messagesOn 1 = ["b"] := by
      rw [Ledger.messagesOn, hhanded]
      decide
    exact hon ▸ (hcalls 1 g hg).2

/-! ### The wire -/

/-- **The wire of a loop stays within its window.**  In every run over a queue that behaves as
documented, while the channel of a loop without `auto_ack` is not closed, the deliveries that
are on their way to it, the one in hand and those whose settlement is on its way back are
distinct and outstanding at the broker, and there are at most `prefetch_count` of them when
that is positive.  So the broker never gets a settlement for a tag it does not know: what it
handles next settles exactly that delivery. -/
theorem wire_within_window (B : QueueBroker σ μ ε) (hB : B.Documented) (s₀ : Client) (b₀ : σ)
    (h₀ : B.ledger b₀ = .empty) (p : Pool (Mailroom σ) Receiver) (i : ℕ) (g : Receiver)
    (h : Run (flowStep B) always ⟨⟨s₀, b₀⟩, []⟩ p) (hg : p.threads[i]? = some g)
    (ha : g.loop.autoAck = false) (hl : (B.ledger p.shared.queue).lost i = false) :
    (g.leaving.map (·.1) ++ g.pc.inHand ++ g.arriving).Nodup ∧
    (∀ d ∈ g.leaving.map (·.1) ++ g.pc.inHand ++ g.arriving,
      d ∈ (B.ledger p.shared.queue).outstanding i) ∧
    (0 < g.prefetch → ((g.leaving.length + g.pc.inHand.length + g.arriving.length : ℕ) : ℤ) ≤
      g.prefetch) ∧
    ∀ d st rest, g.leaving = (d, st) :: rest →
      B.ledger (B.settle p.shared.queue i d st.multiple st.status) =
        (B.ledger p.shared.queue).resolve (fun e => e.channel == i && e.tag == d) st.status := by
  have hs := (flowSound_of_run hB h₀ h).sound i g hg
  have hsub := hs.pending ha hl
  refine ⟨hsub.nodup (Ledger.nodup_outstanding _ i), fun d hd => hsub.mem hd, fun hp => ?_,
    fun d st rest hleave => ?_⟩
  · have hlen := hsub.length_le
    have hwin := hs.window hp
    simp only [List.length_append, List.length_map] at hlen
    omega
  · exact hs.ledger_settle hB hl (hleave ▸ List.mem_cons_self)

/-- The message in its handler is still to be settled. -/
def inHandler (p : Pool (Mailroom (Custody String)) Receiver) : Bool :=
  (p.threads.map fun g => (g.pc, g.loop.autoAck, g.prefetch)) == [(.inHandler 2, false, 1)] &&
    !p.shared.queue.ledger.lost 0 && p.shared.client.amqp.chanOpen ⟨1, 1⟩

theorem exists_inHandler :
    ∃ (p : Pool (Mailroom (Custody String)) Receiver) (g : Receiver),
      Run (flowStep (custodyBroker String)) always ⟨⟨connectedClient readmeConfig, {}⟩, []⟩ p ∧
        p.threads = [g] ∧ g.pc = .inHandler 2 ∧ g.loop.autoAck = false ∧ g.prefetch = 1 ∧
        p.shared.queue.ledger.lost 0 = false ∧ p.shared.client.amqp.chanOpen ⟨1, 1⟩ = true := by
  obtain ⟨p, hr, hp⟩ := exists_run_of_replay (flowStep (custodyBroker String)) always
    ⟨⟨connectedClient readmeConfig, {}⟩, []⟩ inHandler inHandlerRun (by decide)
  simp only [inHandler, Bool.and_eq_true, beq_iff_eq, Bool.not_eq_true'] at hp
  obtain ⟨⟨hg, hl⟩, hopen⟩ := hp
  obtain ⟨g, hth, hg⟩ := List.map_eq_singleton_iff.1 hg
  simp only [Prod.mk.injEq] at hg
  exact ⟨p, g, hr, hth, hg.1, hg.2.1, hg.2.2, hl, hopen⟩

theorem wire_within_window_in_handler :
    ∃ (p : Pool (Mailroom (Custody String)) Receiver) (g : Receiver), p.threads = [g] ∧
      g.pc = .inHandler 2 ∧ g.prefetch = 1 ∧ 2 ∈ p.shared.queue.ledger.outstanding 0 ∧
      ((g.leaving.length + 1 + g.arriving.length : ℕ) : ℤ) ≤ 1 := by
  obtain ⟨p, g, hr, hth, hpc, ha, hpre, hl, -⟩ := exists_inHandler
  obtain ⟨-, hmem, hwin, -⟩ := wire_within_window (custodyBroker String) custodyBroker_documented
    _ {} rfl p 0 g hr (by rw [hth]; rfl) ha hl
  refine ⟨p, g, hth, hpc, hpre, hmem 2 ?_, ?_⟩
  · rw [hpc]
    simp [DispatchPc.inHand]
  · rw [hpc, hpre] at hwin
    exact hwin (by decide)

end LynxRabbit
