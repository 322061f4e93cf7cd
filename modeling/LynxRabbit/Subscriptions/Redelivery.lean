/-
# No message is stuck

Whatever has happened to the loops of a queue, the messages that were not settled can
still be brought to an end: when the old channels are closed, as they are when their
connection breaks, and one loop is started again, as `rebuildAfterReconnect` does, this
loop's handler is called once for each of them and every one is settled.  That is so for a
queue that keeps its messages meanwhile, `QueueBroker.Lasting`.

The argument goes message by message.  A loop at rest takes one message through its whole
life and is at rest again with one message fewer waiting (`AtRest.cycle`), however the
handler ends; `close_all` brings back what the old channels held.
-/

import LynxRabbit.Subscriptions.AtLeastOnce

namespace LynxRabbit

open Runs Amqp

variable {σ μ ε : Type*} {B : QueueBroker σ μ ε}

/-- The loop of consumer `n` waits in its `select` on an open channel that the broker has not
closed, with nothing under way, and nothing is outstanding anywhere. -/
structure AtRest (B : QueueBroker σ μ ε) (m : Mailroom σ) (n : ℕ) (g : Receiver) : Prop where
  pc : g.pc = .select
  arriving : g.arriving = []
  leaving : g.leaving = []
  isOpen : m.client.amqp.chanOpen g.loop.channel = true
  held : (B.ledger m.queue).lost n = false
  settled : ∀ c, (B.ledger m.queue).outstanding c = []

/-- How a handler call of an event ended. -/
def Event.callEnd : Event → Option HandlerEnd
  | .ended _ e => some e
  | _ => none

/-- How the handler calls of a loop ended, in order. -/
def Receiver.ends (g : Receiver) : List HandlerEnd := g.log.filterMap Event.callEnd

/-! ### One message -/

/-- A step of the last loop. -/
theorem run_last {m m' : Mailroom σ} {l : List Receiver} {g g' : Receiver} {a : Move}
    {p : Pool (Mailroom σ) Receiver} (hr : Run (flowStep B) always p ⟨m, l ++ [g]⟩)
    (h : Receiver.move B l.length m g a = some (m', g', [])) :
    Run (flowStep B) always p ⟨m', l ++ [g']⟩ := by
  refine .tail (a := .consumer l.length a) hr rfl ?_
  have hstep := Pool.step_of_focus (p := ⟨m, l ++ [g]⟩) (r := []) rfl h
  rwa [List.append_nil] at hstep

theorem Receiver.move_loop {m : Mailroom σ} {n : ℕ} {g : Receiver} {o : Turn} {s' : Client}
    {pc' : DispatchPc} {ev : List Event} (hallow : g.allows m.client o = true)
    (hpc : g.pc.step m.client g.loop o = some (s', pc', ev)) :
    Receiver.move B n m g (.loop o) = some ({ m with client := s' },
      { g with
        pc := pc'
        log := g.log ++ ev
        arriving := g.arriving.drop (ev.filterMap Event.receivedTag).length
        leaving := g.leaving ++ ev.filterMap Event.sent }, []) := by
  simp only [Receiver.move, Receiver.act, hallow, if_true, hpc, Option.map_some]

/-- **From the wire to the settlement.**  A loop that has a delivery on its way and nothing
else goes through the handler and is in its `select` again, with the settlement on its way
back when the broker waits for one. -/
theorem run_handler {m : Mailroom σ} {l : List Receiver} {g : Receiver} {d : Delivery}
    {p : Pool (Mailroom σ) Receiver} (hr : Run (flowStep B) always p ⟨m, l ++ [g]⟩)
    (hpc : g.pc = .select) (harr : g.arriving = [d]) (hleave : g.leaving = [])
    (hopen : m.client.amqp.chanOpen g.loop.channel = true) (e : HandlerEnd) :
    ∃ s' log, s'.amqp = m.client.amqp ∧ log.filterMap Event.callEnd = g.ends ++ [e] ∧
      Run (flowStep B) always p ⟨{ m with client := s' }, l ++ [{ g with
        log := log
        arriving := []
        leaving := if g.loop.autoAck then [] else [(d, settlement e.handlerErr)] }]⟩ := by
  obtain ⟨⟨lp, pc, log⟩, prefetch, arriving, leaving⟩ := g
  obtain ⟨s, q⟩ := m
  simp only at hpc harr hleave hopen
  subst hpc harr hleave
  have h₁ := run_last hr (Receiver.move_loop (o := .delivery d) (by simp [Receiver.allows]) rfl)
  have h₂ := run_last h₁ (Receiver.move_loop (o := .go) rfl rfl)
  have h₃ := run_last h₂ (Receiver.move_loop (o := .ends e) rfl rfl)
  have h₄ : Run (flowStep B) always p
      ⟨⟨{ s with metrics := s.metrics.countHandled e.handlerErr.isSome }, q⟩,
        l ++ [⟨⟨lp, if lp.autoAck then .select else .settling d e.handlerErr,
          log ++ [.received d] ++ [.invoked d] ++ [.ended d e] ++
            [.counted d e.handlerErr.isSome]⟩, prefetch, [], []⟩]⟩ :=
    run_last h₃ (Receiver.move_loop (o := .go) rfl rfl)
  cases ha : lp.autoAck with
  | true =>
      rw [ha] at h₄
      refine ⟨{ s with metrics := s.metrics.countHandled e.handlerErr.isSome }, _, rfl, ?_, h₄⟩
      simp [Receiver.ends, Event.callEnd, List.filterMap_cons]
  | false =>
      rw [ha] at h₄
      have h₅ := run_last h₄ (Receiver.move_loop (o := .reply none) hopen rfl)
      refine ⟨{ s with metrics := s.metrics.countHandled e.handlerErr.isSome }, _, rfl, ?_, h₅⟩
      simp [Receiver.ends, Event.callEnd, List.filterMap_cons]

section Lasting

variable {waiting : σ → List μ} (hB : B.Documented) (hW : B.Lasting waiting)
include hB hW

/-- **From the wire to the broker.**  The broker handles the one settlement on its way. -/
theorem run_settle {m : Mailroom σ} {l : List Receiver} {g : Receiver} {d : Delivery}
    {st : Settlement} {p : Pool (Mailroom σ) Receiver}
    (hr : Run (flowStep B) always p ⟨m, l ++ [g]⟩) (hleave : g.leaving = [(d, st)])
    (hst : st = .ack false ∨ st = .nack false false)
    (hheld : (B.ledger m.queue).lost l.length = false)
    (hd : (B.ledger m.queue).outstanding l.length = [d]) :
    ∃ b : σ, Run (flowStep B) always p ⟨{ m with queue := b }, l ++ [{ g with leaving := [] }]⟩ ∧
      (B.ledger b).lost = (B.ledger m.queue).lost ∧ (waiting b).Perm (waiting m.queue) ∧
      (B.ledger b).messagesOn l.length = (B.ledger m.queue).messagesOn l.length ∧
      ∀ c, (B.ledger b).outstanding c =
        if c = l.length then [] else (B.ledger m.queue).outstanding c := by
  obtain ⟨hmult, hne, hnot⟩ := Settlement.plain hst
  have hmem : d ∈ (B.ledger m.queue).outstanding l.length := by
    rw [hd]
    exact List.mem_singleton_self d
  have hledger : B.ledger (B.settle m.queue l.length d false st.status) =
      (B.ledger m.queue).resolve (Ledger.named l.length d false) st.status := hB.settles hmem
  refine ⟨B.settle m.queue l.length d false st.status, ?_, ?_, hW.settled hmem hnot, ?_,
    fun c => ?_⟩
  · refine run_last (a := .settle) hr ?_
    simp only [Receiver.move, hleave, hheld, hmult]
  · rw [hledger]
    rfl
  · rw [hledger, Ledger.messagesOn_resolve]
  · rw [hledger, Ledger.outstanding_named _ _ _ hne]
    split_ifs with hc
    · rw [hc, hd]
      simp
    · rfl

omit hB in
/-- **From the queue to the wire.**  A loop at rest is sent a message that waits, and that is
all that is outstanding unless the loop has `auto_ack`. -/
theorem AtRest.deliver {m : Mailroom σ} {l : List Receiver} {g : Receiver}
    {p : Pool (Mailroom σ) Receiver} (hr : Run (flowStep B) always p ⟨m, l ++ [g]⟩)
    (h : AtRest B m l.length g) (hx : waiting m.queue ≠ []) :
    ∃ (b : σ) (d : Delivery) (x : μ),
      Run (flowStep B) always p ⟨{ m with queue := b }, l ++ [{ g with arriving := [d] }]⟩ ∧
      (B.ledger b).lost l.length = false ∧ (waiting m.queue).Perm (x :: waiting b) ∧
      (B.ledger b).messagesOn l.length = (B.ledger m.queue).messagesOn l.length ++ [x] ∧
      ∀ c, (B.ledger b).outstanding c =
        if l.length = c ∧ g.loop.autoAck = false then [d] else [] := by
  have hroom : g.loop.autoAck = true ∨ g.prefetch ≤ 0 ∨
      (((B.ledger m.queue).outstanding l.length).length : ℤ) < g.prefetch := by
    rw [h.settled, List.length_nil]
    omega
  obtain ⟨b, hb⟩ := hW.sends hx h.held hroom
  obtain ⟨hl, x, hledger, hperm⟩ := hW.takes hb
  have hmove : Receiver.move B l.length m g .deliver = some ({ m with queue := b },
      { g with arriving := [(B.ledger m.queue).sentOn l.length + 1] }, []) := by
    simp only [Receiver.move, hb, Option.map_some, h.arriving, List.nil_append]
  refine ⟨b, _, x, run_last hr hmove, ?_, hperm, ?_, fun c => ?_⟩
  · rw [hledger]
    exact h.held
  · rw [hledger, Ledger.messagesOn_hand]
  · rw [hledger, Ledger.outstanding_hand, h.settled, List.nil_append]

/-- **One message less.**  A loop at rest takes a message through the handler, its settlement
to the broker, and is at rest again. -/
theorem AtRest.cycle {m : Mailroom σ} {l : List Receiver} {g : Receiver}
    {p : Pool (Mailroom σ) Receiver} (hr : Run (flowStep B) always p ⟨m, l ++ [g]⟩)
    (h : AtRest B m l.length g) (hx : waiting m.queue ≠ []) (e : HandlerEnd) :
    ∃ m' g' x, Run (flowStep B) always p ⟨m', l ++ [g']⟩ ∧ AtRest B m' l.length g' ∧
      g'.loop = g.loop ∧ g'.ends = g.ends ++ [e] ∧
      (waiting m.queue).Perm (x :: waiting m'.queue) ∧
      (B.ledger m'.queue).messagesOn l.length =
        (B.ledger m.queue).messagesOn l.length ++ [x] := by
  obtain ⟨b, d, x, hdeliver, hheld, hperm, hon, hout⟩ := h.deliver hW hr hx
  obtain ⟨s', log, hamqp, hends, hrun⟩ := run_handler hdeliver h.pc rfl h.leaving h.isOpen e
  have hopen : s'.amqp.chanOpen g.loop.channel = true := by
    rw [hamqp]
    exact h.isOpen
  cases ha : g.loop.autoAck with
  | true =>
      rw [ha] at hrun
      refine ⟨_, _, x, hrun, ⟨h.pc, rfl, rfl, hopen, hheld, fun c => ?_⟩, rfl, hends, hperm, hon⟩
      exact (hout c).trans (if_neg fun hc => by rw [ha] at hc; cases hc.2)
  | false =>
      rw [ha] at hrun
      have hone : (B.ledger b).outstanding l.length = [d] := (hout _).trans (if_pos ⟨rfl, ha⟩)
      obtain ⟨b', hr', hlost', hwait', hon', hout'⟩ :=
        run_settle hB hW hrun rfl (settlement_cases e.handlerErr) hheld hone
      refine ⟨_, _, x, hr', ⟨h.pc, rfl, rfl, hopen, ?_, fun c => ?_⟩, rfl, hends,
        hperm.trans (hwait'.symm.cons x), hon'.trans hon⟩
      · exact (congrFun hlost' _).trans hheld
      · show (B.ledger b').outstanding c = []
        rw [hout' c]
        split_ifs with hc
        · rfl
        · exact (hout c).trans (if_neg fun hcc => hc hcc.1.symm)

/-- **All that waits.**  A loop at rest goes through the whole queue; the handler calls end as
`ends` says, from the `k`-th on. -/
theorem AtRest.drain {l : List Receiver} {p : Pool (Mailroom σ) Receiver} (ends : ℕ → HandlerEnd)
    {n : ℕ} : ∀ {m : Mailroom σ} {g : Receiver} (k : ℕ),
    Run (flowStep B) always p ⟨m, l ++ [g]⟩ → AtRest B m l.length g →
    (waiting m.queue).length = n →
    ∃ m' g' xs, Run (flowStep B) always p ⟨m', l ++ [g']⟩ ∧ AtRest B m' l.length g' ∧
      g'.loop = g.loop ∧ g'.ends = g.ends ++ (List.range' k n).map ends ∧
      waiting m'.queue = [] ∧ xs.Perm (waiting m.queue) ∧
      (B.ledger m'.queue).messagesOn l.length =
        (B.ledger m.queue).messagesOn l.length ++ xs := by
  induction n with
  | zero =>
      intro m g k hr h hn
      have hnil := List.eq_nil_of_length_eq_zero hn
      exact ⟨m, g, [], hr, h, rfl, (List.append_nil _).symm, hnil, by rw [hnil],
        (List.append_nil _).symm⟩
  | succ n ih =>
      intro m g k hr h hn
      have hne : waiting m.queue ≠ [] := List.ne_nil_of_length_eq_add_one hn
      obtain ⟨m₁, g₁, x, hr₁, h₁, hl₁, he₁, hp₁, ho₁⟩ := h.cycle hB hW hr hne (ends k)
      have hn₁ : (waiting m₁.queue).length = n := by
        have hlen := hp₁.length_eq
        rw [hn, List.length_cons] at hlen
        omega
      obtain ⟨m', g', xs, hr', h', hl', he', hw', hp', ho'⟩ := ih (k + 1) hr₁ h₁ hn₁
      refine ⟨m', g', x :: xs, hr', h', hl'.trans hl₁, ?_, hw', (hp'.cons x).trans hp₁.symm, ?_⟩
      · rw [he', he₁, List.append_assoc]
        rfl
      · rw [ho', ho₁, List.append_assoc]
        rfl

end Lasting

/-- The messages of a loop at rest are all that went out on its channel. -/
theorem AtRest.messages {m : Mailroom σ} {n : ℕ} {g : Receiver} (h : AtRest B m n g)
    (hg : g.Sound (B.ledger m.queue) n) :
    g.messages (B.ledger m.queue) n = (B.ledger m.queue).messagesOn n := by
  obtain ⟨es, rest, hlog, hrest⟩ := hg.processed
  rw [h.pc] at hrest
  obtain rfl : rest = [] := hrest
  rw [List.append_nil] at hlog
  have hrec := hg.received
  rw [h.arriving, List.append_nil, hlog] at hrec
  rw [Receiver.messages, hlog, filterMap_episodes, hrec, Ledger.filterMap_messageAt]

/-! ### The old channels -/

section Lasting

variable [DecidableEq μ] {waiting : σ → List μ} (hB : B.Documented) (hW : B.Lasting waiting)
include hB hW

/-- The first `k` channels are closed: each message waits as often as it waited or was
outstanding there. -/
theorem close_all (p : Pool (Mailroom σ) Receiver) {k : ℕ} (hk : k ≤ p.threads.length) :
    ∃ b : σ, Run (flowStep B) always p ⟨{ p.shared with queue := b }, p.threads⟩ ∧
      (∀ i < k, (B.ledger b).lost i = true) ∧
      ∀ m, (waiting b).count m + (B.ledger b).tally m =
        (waiting p.shared.queue).count m + (B.ledger p.shared.queue).tally m := by
  induction k with
  | zero => exact ⟨p.shared.queue, .refl, fun i hi => absurd hi (Nat.not_lt_zero i), fun _ => rfl⟩
  | succ k ih =>
      obtain ⟨b, hr, hl, hcount⟩ := ih (Nat.le_of_succ_le hk)
      refine ⟨B.close b k, .tail (a := .close k) hr rfl (if_pos hk), fun i hi => ?_, fun m => ?_⟩
      · rw [hB.closes]
        show Function.update (B.ledger b).lost k true i = true
        rw [Function.update_apply]
        split_ifs with hc
        · rfl
        · exact hl i (by omega)
      · have hwait := (hW.returned b k).count_eq m
        have htally := (B.ledger b).tally_lose m k
        have hold := hcount m
        rw [List.count_append] at hwait
        rw [hB.closes]
        omega

/-- **What the channels held waits again.**  When every channel was closed, nothing is
outstanding, and what waits is what waited before and what was outstanding. -/
theorem exists_all_closed {s₀ : Client} {b₀ : σ} {p : Pool (Mailroom σ) Receiver}
    (h₀ : B.ledger b₀ = .empty) (h : Run (flowStep B) always ⟨⟨s₀, b₀⟩, []⟩ p) :
    ∃ b : σ, Run (flowStep B) always p ⟨{ p.shared with queue := b }, p.threads⟩ ∧
      (∀ c, (B.ledger b).outstanding c = []) ∧
      ∀ m, (waiting b).count m =
        (waiting p.shared.queue).count m + (B.ledger p.shared.queue).tally m := by
  obtain ⟨b, hr, hlost, hcount⟩ := close_all hB hW p (Nat.le_refl p.threads.length)
  have hnone : ∀ c, (B.ledger b).outstanding c = [] := by
    intro c
    by_cases hc : c < p.threads.length
    · exact Ledger.outstanding_of_lost (hlost c hc)
    · refine List.eq_nil_iff_forall_not_mem.2 fun tag hm => ?_
      obtain ⟨x, hx, -, rfl, -⟩ := Ledger.mem_outstanding.1 hm
      exact hc ((flowSound_of_run hB h₀ (h.trans hr)).channel_lt hx)
  refine ⟨b, hr, hnone, fun m => ?_⟩
  have hm := hcount m
  rwa [(B.ledger b).tally_eq_zero m hnone] at hm

end Lasting

/-! ### A loop that starts again -/

/-- On a channel that was not used yet nothing went out. -/
theorem FlowSound.messagesOn_length {q : Ledger μ} {gs : List Receiver} (h : FlowSound q gs) :
    q.messagesOn gs.length = [] := by
  refine List.map_eq_nil_iff.2 (List.filter_eq_nil_iff.2 fun x hx => ?_)
  have hlt := h.channel_lt hx
  simp only [beq_iff_eq]
  exact Nat.ne_of_lt hlt

/-- A loop that is started on an open channel is at rest. -/
theorem FlowSound.atRest_start {s : Client} {b : σ} {gs : List Receiver}
    (h : FlowSound (B.ledger b) gs) (hnone : ∀ c, (B.ledger b).outstanding c = []) {ch : Channel}
    (hopen : s.amqp.chanOpen ch = true) (sub : Subscription) (ctx : Option ℕ)
    (rebuild : Option ConnId) :
    AtRest B ⟨{ s with subscriptionWG := s.subscriptionWG + 1 }, b⟩ gs.length
      (s.receiver sub ch ctx rebuild) := by
  refine ⟨rfl, rfl, rfl, hopen, ?_, hnone⟩
  by_contra hl
  exact Nat.lt_irrefl _ (h.lost_lt _ (by simpa using hl))

/-- **No message is stuck.**  Let the queue behave as documented and keep its messages.  From
every state that any run leads to, with loops anywhere in a delivery, at their end, or waiting
for channels that are gone: when the old channels are closed and a loop is started on an open
one, everything can be handled, however each call of the handler ends.  Nothing waits and
nothing is outstanding in the end, and the new loop's handler was called with each message
exactly as often as it waited or was outstanding. -/
theorem restart_handles_all [DecidableEq μ] (B : QueueBroker σ μ ε) (hB : B.Documented)
    (waiting : σ → List μ) (hW : B.Lasting waiting) (s₀ : Client) (b₀ : σ)
    (h₀ : B.ledger b₀ = .empty) (p : Pool (Mailroom σ) Receiver) (sub : Subscription)
    (ch : Channel) (ctx : Option ℕ) (rebuild : Option ConnId) (ends : ℕ → HandlerEnd)
    (h : Run (flowStep B) always ⟨⟨s₀, b₀⟩, []⟩ p)
    (hopen : p.shared.client.amqp.chanOpen ch = true) :
    ∃ (p' : Pool (Mailroom σ) Receiver) (g : Receiver), Run (flowStep B) always p p' ∧
      p'.threads = p.threads ++ [g] ∧ g.loop.channel = ch ∧ g.loop.sub = sub ∧
      waiting p'.shared.queue = [] ∧ (∀ c, (B.ledger p'.shared.queue).outstanding c = []) ∧
      g.ends = (List.range g.ends.length).map ends ∧
      ∀ m, (g.messages (B.ledger p'.shared.queue) p.threads.length).count m =
        (waiting p.shared.queue).count m + (B.ledger p.shared.queue).tally m := by
  obtain ⟨b, hr, hnone, hwaits⟩ := exists_all_closed hB hW h₀ h
  have hs := flowSound_of_run hB h₀ (h.trans hr)
  have hstart : Run (flowStep B) always p
      ⟨⟨{ p.shared.client with subscriptionWG := p.shared.client.subscriptionWG + 1 }, b⟩,
        p.threads ++ [p.shared.client.receiver sub ch ctx rebuild]⟩ :=
    .tail (a := .start sub ch ctx rebuild) hr rfl rfl
  obtain ⟨m', g', xs, hr', h', hl', he', hw', hp', ho'⟩ :=
    (hs.atRest_start hnone hopen sub ctx rebuild).drain hB hW ends 0 hstart rfl
  have hs' : g'.Sound (B.ledger m'.queue) p.threads.length := by
    refine (flowSound_of_run hB h₀ (h.trans hr')).sound p.threads.length g' ?_
    simp
  refine ⟨⟨m', p.threads ++ [g']⟩, g', hr', rfl, by rw [hl']; rfl, by rw [hl']; rfl, hw',
    h'.settled, ?_, fun m => ?_⟩
  · have hends : g'.ends = (List.range (waiting b).length).map ends := by
      rw [he', List.range_eq_range']
      rfl
    rw [hends, List.length_map, List.length_range]
  · show (g'.messages (B.ledger m'.queue) p.threads.length).count m = _
    rw [h'.messages hs', ho']
    show ((B.ledger b).messagesOn p.threads.length ++ xs).count m = _
    rw [hs.messagesOn_length, List.nil_append, hp'.count_eq]
    exact hwaits m

/-- A message in a handler and a channel that breaks; the new loop's first call fails, and any
later one would not. -/
theorem restart_handles_all_in_handler :
    ∃ (p p' : Pool (Mailroom (Custody String)) Receiver) (g g' : Receiver), p.threads = [g] ∧
      g.pc = .inHandler 2 ∧ p'.threads = [g, g'] ∧ p'.shared.queue.ready = [] ∧
      (∀ c, p'.shared.queue.ledger.outstanding c = []) ∧
      (g'.messages p'.shared.queue.ledger 1).count "b" =
        p.shared.queue.ready.count "b" + p.shared.queue.ledger.tally "b" := by
  obtain ⟨p, g, hr, hth, hpc, -, -, -, hopen⟩ := exists_inHandler
  obtain ⟨p', g', -, hth', -, -, hready, hout, -, hcount⟩ :=
    restart_handles_all (custodyBroker String) custodyBroker_documented Custody.ready
      custodyBroker_lasting _ {} rfl p readmeSubscription ⟨1, 1⟩ none (some 1)
      (fun k => if k = 0 then .error "boom" else .ok) hr hopen
  have hb := hcount "b"
  rw [hth, List.length_singleton] at hb
  exact ⟨p, p', g, g', hth, hpc, by rw [hth', hth]; rfl, hready, hout, hb⟩

end LynxRabbit
