/-
# What a dispatch loop does with a delivery

The dispatch goroutine of `startDispatchLoop` and `dispatchDelivery`, delivery by
delivery: the call of the handler, its end by a value, an error or a panic the
inner `recover` turns into an error, the counters of `Metrics`, and the Ack or
Nack with the library's answer, which is only logged.  The goroutine keeps a log
of what it did; the log is not part of the source, and nothing reads it.

`LoopPc.step` is this goroutine with the handler's call and the counting taken as
one step and the deliveries left anonymous; `DispatchPc.step_refines` says so.

The log of a loop is a list of whole episodes, one for each delivery it received,
and what it has done of the one in hand: `Dispatcher.Processed` is kept by every
step of every loop, whatever the rest of the program does in between.
-/

import LynxRabbit.Client.Dispatch
import LynxRabbit.Runs.Machine
import LynxRabbit.Runs.Pool

namespace LynxRabbit

open Runs

/-- `amqp.Delivery`, by its delivery tag. -/
abbrev Delivery := ℕ

/-- How a call of the handler ends. -/
inductive HandlerEnd
  | ok
  | error (text : String)
  | panic (value stack : String)
deriving DecidableEq, Repr

/-- `handlerErr` after the inner function of `dispatchDelivery`: what the handler
returned, or what the deferred `recover` made of its panic. -/
def HandlerEnd.handlerErr : HandlerEnd → Option String
  | .ok => none
  | .error text => some text
  | .panic value stack => some ("handler panic: " ++ value ++ "\n" ++ stack)

/-- The handler failed: it returned an error or panicked. -/
def HandlerEnd.failed : HandlerEnd → Bool
  | .ok => false
  | .error _ => true
  | .panic _ _ => true

theorem HandlerEnd.isSome_handlerErr (e : HandlerEnd) : e.handlerErr.isSome = e.failed := by
  cases e <;> rfl

/-- `Ack(multiple)` and `Nack(multiple, requeue)`. -/
inductive Settlement
  | ack (multiple : Bool)
  | nack (multiple requeue : Bool)
deriving DecidableEq, Repr

/-- What `dispatchDelivery` calls at its end. -/
def settlement (handlerErr : Option String) : Settlement :=
  if handlerErr.isSome then .nack false false else .ack false

/-- What a dispatch goroutine does, as far as a delivery or its end is concerned. -/
inductive Event
  | received (d : Delivery)
  | invoked (d : Delivery)
  | ended (d : Delivery) (e : HandlerEnd)
  | counted (d : Delivery) (failed : Bool)
  | settled (d : Delivery) (s : Settlement) (err : Option String)
  | channelClosed
  | done
deriving DecidableEq, Repr

/-- Where a dispatch goroutine stands: in its `select`, before the call of the
handler, in the handler, before the counters, before Ack or Nack, in the two
deferred calls, or gone. -/
inductive DispatchPc
  | select
  | entered (d : Delivery)
  | inHandler (d : Delivery)
  | counting (d : Delivery) (handlerErr : Option String)
  | settling (d : Delivery) (handlerErr : Option String)
  | closing
  | finishing
  | returned
deriving DecidableEq, Repr

/-- How the outside resolves a step: the case the `select` takes (`drained` is the
closed delivery channel), how the handler ends, what the library answers to Ack
or Nack, or nothing to resolve. -/
inductive Turn
  | done
  | stop
  | drained
  | delivery (d : Delivery)
  | ends (e : HandlerEnd)
  | reply (err : Option String)
  | go
deriving DecidableEq, Repr

/-- One atomic step of a dispatch goroutine, and what it logs.  A delivery the
library had buffered may be received at any time; the delivery channel is closed
only when the AMQP channel is. -/
def DispatchPc.step (s : Client) (l : Loop) : DispatchPc → Turn →
    Option (Client × DispatchPc × List Event)
  | .select, .done => if l.ctx.any s.cancelled then some (s, .closing, []) else none
  | .select, .stop => if s.closeChanClosed then some (s, .closing, []) else none
  | .select, .drained => if s.amqp.chanOpen l.channel then none else some (s, .closing, [])
  | .select, .delivery d => some (s, .entered d, [.received d])
  | .entered d, .go => some (s, .inHandler d, [.invoked d])
  | .inHandler d, .ends e => some (s, .counting d e.handlerErr, [.ended d e])
  | .counting d err, .go =>
    some ({ s with metrics := s.metrics.countHandled err.isSome },
      if l.autoAck then .select else .settling d err, [.counted d err.isSome])
  -- the answer is logged and dropped
  | .settling d err, .reply answer => some (s, .select, [.settled d (settlement err) answer])
  | .closing, .go =>
    some ({ s with amqp := s.amqp.closeChannel l.channel }, .finishing, [.channelClosed])
  | .finishing, .go => some ({ s with subscriptionWG := s.subscriptionWG - 1 }, .returned, [.done])
  | _, _ => none

/-- A dispatch goroutine: what its closure captured, where it stands, and its log. -/
structure Dispatcher where
  loop : Loop
  pc : DispatchPc := .select
  log : List Event := []

/-- One atomic step of a dispatch goroutine of the client. -/
def Dispatcher.act (s : Client) (g : Dispatcher) (o : Turn) :
    Option (Client × Dispatcher × List Dispatcher) :=
  (g.pc.step s g.loop o).map fun q => (q.1, ⟨g.loop, q.2.1, g.log ++ q.2.2⟩, [])

/-- What can happen next among the dispatch goroutines of a client: one of them
takes a step, `startDispatchLoop` starts another, or the rest of the program, the
callers and the broker change everything but the consumer counters, which only
`dispatchDelivery` writes. -/
inductive DispatchAction
  | run (i : ℕ) (o : Turn)
  | start (l : Loop)
  | world (s : Client)

/-- A step of the dispatch goroutines. -/
def dispatchStep (p : Pool Client Dispatcher) : DispatchAction → Option (Pool Client Dispatcher)
  | .run i o => p.step Dispatcher.act i o
  | .start l =>
    some ⟨{ p.shared with subscriptionWG := p.shared.subscriptionWG + 1 },
      p.threads ++ [⟨l, .select, []⟩]⟩
  | .world s => some ⟨{ s with metrics := p.shared.metrics }, p.threads⟩

/-! ### The loop of the client's model -/

/-- The program counter of `LoopPc.step` for one here. -/
def DispatchPc.toLoopPc : DispatchPc → LoopPc
  | .select => .select
  | .entered _ => .handling
  | .inHandler _ => .handling
  | .counting _ _ => .handling
  | .settling _ err => .settling err.isSome
  | .closing => .closing
  | .finishing => .finishing
  | .returned => .returned

/-- The choice that makes `LoopPc.step` follow. -/
def DispatchPc.choice : DispatchPc → Turn → Choice
  | .select, .done => .done
  | .select, .stop => .stop
  | .counting _ err, _ => err.elim .ok .fail
  | _, _ => .ok

/-- **The loop of the client's model is this one, seen from further away.**  Every
step is one of `LoopPc.step` or leaves the client and the coarse program counter
as they are, as long as a delivery is received from an open channel. -/
theorem DispatchPc.step_refines {s s' : Client} {l : Loop} {pc pc' : DispatchPc} {o : Turn}
    {ev : List Event} (h : pc.step s l o = some (s', pc', ev))
    (hopen : ∀ d, o = .delivery d → s.amqp.chanOpen l.channel = true) :
    (s' = s ∧ pc'.toLoopPc = pc.toLoopPc) ∨
      pc.toLoopPc.step s (pc.choice o) l = some (s', pc'.toLoopPc) := by
  unfold DispatchPc.step at h
  split at h
  case h_1 =>
      split at h <;> cases h
      rename_i hc
      exact .inr (by simp [LoopPc.step, toLoopPc, choice, hc])
  case h_2 =>
      split at h <;> cases h
      rename_i hc
      exact .inr (by simp [LoopPc.step, toLoopPc, choice, hc])
  case h_3 =>
      split at h <;> cases h
      rename_i hc
      exact .inr (by simp [LoopPc.step, toLoopPc, choice, hc])
  case h_4 d =>
      cases h
      exact .inr (by simp [LoopPc.step, toLoopPc, choice, hopen d rfl])
  case h_5 => cases h; exact .inl ⟨rfl, rfl⟩
  case h_6 => cases h; exact .inl ⟨rfl, rfl⟩
  case h_7 d err =>
      cases h
      have herr : (choice (.counting d err) .go).err.isSome = err.isSome := by
        cases err <;> rfl
      refine .inr ?_
      simp only [toLoopPc, LoopPc.step, herr]
      cases l.autoAck <;> rfl
  case h_8 => cases h; exact .inr rfl
  case h_9 => cases h; exact .inr rfl
  case h_10 => cases h; exact .inr rfl
  case h_11 => cases h

/-! ### Episodes -/

/-- All that is done for one delivery: how the handler ended, and what the library
answered when it was settled. -/
structure Episode where
  delivery : Delivery
  ending : HandlerEnd
  answer : Option String
deriving DecidableEq, Repr

/-- The events of an episode, in order: one receive, one call of the handler and
its end, one count, and one settlement when the broker waits for it. -/
def Episode.events (autoAck : Bool) (e : Episode) : List Event :=
  [.received e.delivery, .invoked e.delivery, .ended e.delivery e.ending,
    .counted e.delivery e.ending.failed] ++
  if autoAck then []
  else [.settled e.delivery (if e.ending.failed then .nack false false else .ack false) e.answer]

/-- What a loop that stands at `pc` has logged since its last whole episode. -/
def DispatchPc.Rest (autoAck : Bool) (rest : List Event) : DispatchPc → Prop
  | .select => rest = []
  | .entered d => rest = [.received d]
  | .inHandler d => rest = [.received d, .invoked d]
  | .counting d err =>
    ∃ e : HandlerEnd, e.handlerErr = err ∧ rest = [.received d, .invoked d, .ended d e]
  | .settling d err => autoAck = false ∧ ∃ e : HandlerEnd, e.handlerErr = err ∧
      rest = [.received d, .invoked d, .ended d e, .counted d e.failed]
  | .closing => rest = []
  | .finishing => rest = [.channelClosed]
  | .returned => rest = [.channelClosed, .done]

/-- The log of a loop: whole episodes, then what it has done of the delivery in
hand, or of its own end. -/
def Dispatcher.Processed (g : Dispatcher) : Prop :=
  ∃ (es : List Episode) (rest : List Event),
    g.log = es.flatMap (Episode.events g.loop.autoAck) ++ rest ∧ g.pc.Rest g.loop.autoAck rest

/-- The events of a delivery that has just been settled, or counted under
`autoAck`, are an episode. -/
theorem Episode.events_eq (autoAck : Bool) (d : Delivery) (e : HandlerEnd)
    (answer : Option String) :
    Episode.events autoAck ⟨d, e, answer⟩ =
      [.received d, .invoked d, .ended d e, .counted d e.failed] ++
        if autoAck then [] else [.settled d (settlement e.handlerErr) answer] := by
  simp only [Episode.events, settlement, e.isSome_handlerErr]

/-- What one step adds to the log continues it: a step in an episode lengthens
the rest, and the last step of an episode makes it whole. -/
theorem DispatchPc.Rest.step {s s' : Client} {l : Loop} {pc pc' : DispatchPc} {o : Turn}
    {rest ev : List Event} (hr : pc.Rest l.autoAck rest)
    (h : pc.step s l o = some (s', pc', ev)) :
    pc'.Rest l.autoAck (rest ++ ev) ∨
      pc'.Rest l.autoAck [] ∧ ∃ e : Episode, rest ++ ev = e.events l.autoAck := by
  unfold DispatchPc.step at h
  split at h
  case h_1 => split at h <;> cases h; exact .inl (by rw [show rest = [] from hr]; rfl)
  case h_2 => split at h <;> cases h; exact .inl (by rw [show rest = [] from hr]; rfl)
  case h_3 => split at h <;> cases h; exact .inl (by rw [show rest = [] from hr]; rfl)
  case h_4 => cases h; exact .inl (by rw [show rest = [] from hr]; rfl)
  case h_5 => cases h; exact .inl (by rw [show rest = _ from hr]; rfl)
  case h_6 e =>
      cases h
      exact .inl ⟨e, rfl, by rw [show rest = _ from hr]; rfl⟩
  case h_7 d err =>
      cases h
      obtain ⟨e, rfl, rfl⟩ := hr
      rw [e.isSome_handlerErr]
      cases ha : l.autoAck with
      | false => exact .inl ⟨rfl, e, rfl, rfl⟩
      | true => exact .inr ⟨rfl, ⟨d, e, none⟩, rfl⟩
  case h_8 d err answer =>
      cases h
      obtain ⟨ha, e, rfl, rfl⟩ := hr
      refine .inr ⟨rfl, ⟨d, e, answer⟩, ?_⟩
      rw [Episode.events_eq, ha]
      rfl
  case h_9 => cases h; exact .inl (by rw [show rest = [] from hr]; rfl)
  case h_10 => cases h; exact .inl (by rw [show rest = _ from hr]; rfl)
  case h_11 => cases h

theorem Dispatcher.Processed.step {s s' : Client} {g g' : Dispatcher} {o : Turn}
    {new : List Dispatcher} (hg : g.Processed) (h : g.act s o = some (s', g', new)) :
    g'.Processed := by
  obtain ⟨⟨s₁, pc', ev⟩, hpc, heq⟩ := Option.map_eq_some_iff.1 h
  obtain ⟨rfl, rfl, rfl⟩ := heq
  obtain ⟨es, rest, hlog, hrest⟩ := hg
  rcases hrest.step hpc with hr | ⟨hr, e, he⟩
  · exact ⟨es, rest ++ ev, by rw [hlog, List.append_assoc], hr⟩
  · refine ⟨es ++ [e], [], ?_, hr⟩
    show g.log ++ ev = _
    rw [hlog, List.append_assoc, he]
    simp

/-! ### Counters -/

/-- The consumer counter for handler calls that failed, or that did not. -/
def Metrics.handled (m : Metrics) (failed : Bool) : ℕ :=
  if failed then m.consumerMessagesFailed else m.consumerMessagesReceived

/-- A handler call ended with this result. -/
def Event.endedWith (failed : Bool) : Event → Bool
  | .ended _ e => e.failed == failed
  | _ => false

/-- How many handler calls of the loop ended with this result. -/
def Dispatcher.calls (failed : Bool) (g : Dispatcher) : ℕ := g.log.countP (Event.endedWith failed)

/-- The loop is between the handler's end and the counters. -/
def DispatchPc.uncounted (failed : Bool) : DispatchPc → Bool
  | .counting _ err => err.isSome == failed
  | _ => false

theorem Metrics.handled_countHandled (m : Metrics) (b failed : Bool) :
    (m.countHandled b).handled failed = m.handled failed + (b == failed).toNat := by
  cases b <;> cases failed <;> rfl

/-- What one step adds to a counter, to the calls that ended and to the calls that
wait to be counted. -/
theorem DispatchPc.step_counts {s s' : Client} {l : Loop} {pc pc' : DispatchPc} {o : Turn}
    {ev : List Event} (h : pc.step s l o = some (s', pc', ev)) (failed : Bool) :
    s'.metrics.handled failed + (pc'.uncounted failed).toNat =
      s.metrics.handled failed + (pc.uncounted failed).toNat +
        ev.countP (Event.endedWith failed) := by
  unfold DispatchPc.step at h
  split at h
  case h_1 => split at h <;> cases h; rfl
  case h_2 => split at h <;> cases h; rfl
  case h_3 => split at h <;> cases h; rfl
  case h_6 e =>
      cases h
      simp only [uncounted, e.isSome_handlerErr, countP_cons_toNat, Event.endedWith]
      simp
  case h_7 d err =>
      cases h
      have hpc : DispatchPc.uncounted failed
          (if l.autoAck then .select else .settling d err) = false := by
        split <;> rfl
      rw [hpc, Metrics.handled_countHandled]
      rfl
  case h_11 => cases h
  all_goals
    cases h
    rfl

/-- The counters agree with the logs: what is not counted yet is in hand. -/
def CountsAgree (s₀ : Client) (p : Pool Client Dispatcher) : Prop :=
  ∀ failed, p.shared.metrics.handled failed + p.threads.countP (·.pc.uncounted failed) =
    s₀.metrics.handled failed + (p.threads.map (Dispatcher.calls failed)).sum

theorem CountsAgree.step {s₀ : Client} {p p' : Pool Client Dispatcher} {i : ℕ} {o : Turn}
    (hc : CountsAgree s₀ p) (h : p.step Dispatcher.act i o = some p') : CountsAgree s₀ p' := by
  obtain ⟨l, g, r, s', g', new, hl, -, -, hact, rfl⟩ := Pool.step_focus h
  obtain ⟨⟨s₁, pc', ev⟩, hpc, heq⟩ := Option.map_eq_some_iff.1 hact
  obtain ⟨rfl, rfl, rfl⟩ := heq
  intro failed
  have hstep := DispatchPc.step_counts hpc failed
  have hold := hc failed
  rw [hl] at hold
  have hu := countP_focus l r [] g ⟨g.loop, pc', g.log ++ ev⟩ (·.pc.uncounted failed)
  have hs := sum_focus l r [] g ⟨g.loop, pc', g.log ++ ev⟩ (Dispatcher.calls failed)
  have hlog : Dispatcher.calls failed ⟨g.loop, pc', g.log ++ ev⟩ =
      g.calls failed + ev.countP (Event.endedWith failed) := List.countP_append
  simp only [List.countP_nil, List.map_nil, List.sum_nil] at hu hs
  simp only at hstep ⊢
  omega

/-! ### An episode that has begun ends -/

/-- A delivery is in hand, or the goroutine is on its way out. -/
def DispatchPc.busy : DispatchPc → Bool
  | .select => false
  | .returned => false
  | _ => true

/-- How many steps are left until the next `select` or the end. -/
def DispatchPc.left : DispatchPc → ℕ
  | .entered _ => 4
  | .inHandler _ => 3
  | .counting _ _ => 2
  | .settling _ _ => 1
  | .closing => 2
  | .finishing => 1
  | _ => 0

/-- A turn the goroutine can take where it is busy: any end of the handler and any
answer of the library will do. -/
def DispatchPc.turn (e : HandlerEnd) (answer : Option String) : DispatchPc → Turn
  | .inHandler _ => .ends e
  | .settling _ _ => .reply answer
  | _ => .go

/-- Nothing but the handler's own end can hold up a busy goroutine, and every step
brings it nearer to its next `select` or to its end. -/
theorem DispatchPc.step_busy {pc : DispatchPc} (h : pc.busy = true) (s : Client) (l : Loop)
    (e : HandlerEnd) (answer : Option String) :
    ∃ s' pc' ev, pc.step s l (pc.turn e answer) = some (s', pc', ev) ∧ pc'.left < pc.left := by
  cases pc with
  | select => cases h
  | returned => cases h
  | counting d err =>
      refine ⟨_, _, _, rfl, ?_⟩
      cases l.autoAck
      · show 1 < 2; omega
      · show 0 < 2; omega
  | entered d => exact ⟨_, _, _, rfl, by show 3 < 4; omega⟩
  | inHandler d => exact ⟨_, _, _, rfl, by show 2 < 3; omega⟩
  | settling d err => exact ⟨_, _, _, rfl, by show 0 < 1; omega⟩
  | closing => exact ⟨_, _, _, rfl, by show 1 < 2; omega⟩
  | finishing => exact ⟨_, _, _, rfl, by show 0 < 1; omega⟩

/-! ### Every run -/

theorem processed_of_run {s₀ : Client} {p : Pool Client Dispatcher}
    (h : Run dispatchStep always ⟨s₀, []⟩ p) : ∀ g ∈ p.threads, g.Processed := by
  refine h.invariant (I := fun p => ∀ g ∈ p.threads, g.Processed)
    (fun g hg => absurd hg List.not_mem_nil) ?_
  intro p a p' ih _ hs
  cases a with
  | run i o =>
      obtain ⟨l, g, r, s', g', new, hl, -, -, hact, rfl⟩ := Pool.step_focus hs
      rw [hl] at ih
      have hnew : new = [] := by
        obtain ⟨q, -, heq⟩ := Option.map_eq_some_iff.1 hact
        exact (congrArg (·.2.2) heq).symm
      subst hnew
      exact forall_focus ih (fun _ _ hu => hu) ((ih g (mem_focus_self l r g)).step hact)
        (fun u hu => absurd hu List.not_mem_nil)
  | start l =>
      obtain rfl := Option.some.inj hs
      intro g hg
      rcases List.mem_append.1 hg with hg | hg
      · exact ih g hg
      · obtain rfl := List.mem_singleton.1 hg
        exact ⟨[], [], rfl, rfl⟩
  | world s =>
      obtain rfl := Option.some.inj hs
      exact ih

theorem countsAgree_of_run {s₀ : Client} {p : Pool Client Dispatcher}
    (h : Run dispatchStep always ⟨s₀, []⟩ p) : CountsAgree s₀ p := by
  refine h.invariant (I := CountsAgree s₀) (fun failed => rfl) ?_
  intro p a p' ih _ hs
  cases a with
  | run i o => exact ih.step hs
  | start l =>
      obtain rfl := Option.some.inj hs
      intro failed
      have hold := ih failed
      simp only [List.map_append, List.sum_append, countP_snoc]
      exact hold
  | world s =>
      obtain rfl := Option.some.inj hs
      exact ih

/-- **Every delivery is settled exactly once and counted once.**  In every run of
any number of dispatch loops, with handlers that end in any way, library answers
of any kind, and contexts, `closeChan` and delivery channels closing at any point:

* the log of a loop is one whole episode for each delivery it received before the
  one in hand, and none is in hand when it receives the next or calls `Done`;
* where a delivery is in hand the loop can go on, and comes to the end of the
  episode in at most four steps of its own;
* the counters have grown by the number of handler calls that succeeded, and that
  failed or panicked, up to those whose goroutine is about to count them. -/
theorem deliveries_settled_once (s₀ : Client) (p : Pool Client Dispatcher)
    (h : Run dispatchStep always ⟨s₀, []⟩ p) :
    (∀ g ∈ p.threads, g.Processed ∧
      (g.pc.busy = true → ∀ e answer, ∃ s' pc' ev,
        g.pc.step p.shared g.loop (g.pc.turn e answer) = some (s', pc', ev) ∧
          pc'.left < g.pc.left ∧ g.pc.left ≤ 4)) ∧
    ∀ failed, p.shared.metrics.handled failed + p.threads.countP (·.pc.uncounted failed) =
      s₀.metrics.handled failed + (p.threads.map (Dispatcher.calls failed)).sum := by
  refine ⟨fun g hg => ⟨processed_of_run h g hg, fun hb e answer => ?_⟩, countsAgree_of_run h⟩
  obtain ⟨s', pc', ev, hs, hlt⟩ := DispatchPc.step_busy hb p.shared g.loop e answer
  refine ⟨s', pc', ev, hs, hlt, ?_⟩
  cases g.pc <;> simp [DispatchPc.left]

/-- Two loops, one with manual and one with automatic acknowledgement.  The first
settles a delivery, the Ack failing; then its handler panics while `closeChan` is
closed, it settles this one too and returns.  The second is about to count. -/
def twoLoops : List DispatchAction :=
  [.start ⟨⟨0, "a", "qa", 0⟩, ⟨0, 0⟩, false, none, none⟩,
    .start ⟨⟨1, "b", "qb", 1⟩, ⟨1, 0⟩, true, none, none⟩,
    .run 0 (.delivery 7), .run 0 .go, .run 0 (.ends .ok), .run 0 .go,
    .run 0 (.reply (some "channel/connection is not open")),
    .run 0 (.delivery 8), .run 1 (.delivery 1), .run 0 .go, .run 1 .go,
    .world { config := defaultRabbitMQConfig, closeChanClosed := true },
    .run 0 (.ends (.panic "boom" "")), .run 0 .go, .run 0 (.reply none), .run 0 .stop,
    .run 0 .go, .run 0 .go, .run 1 (.ends .ok)]

theorem deliveries_settled_once_two_loops :
    ∃ p : Pool Client Dispatcher,
      p.threads.map (·.pc) = [.returned, .counting 1 none] ∧ p.shared.metrics.handled true = 1 ∧
      (∀ g ∈ p.threads, g.Processed) ∧
      ∀ failed, p.shared.metrics.handled failed + p.threads.countP (·.pc.uncounted failed) =
        (p.threads.map (Dispatcher.calls failed)).sum := by
  obtain ⟨p, hr, hp⟩ := exists_run_of_replay dispatchStep always
    ⟨{ config := defaultRabbitMQConfig }, []⟩
    (fun p => decide (p.threads.map (·.pc) = [.returned, .counting 1 none] ∧
      p.shared.metrics.handled true = 1)) twoLoops (by decide)
  obtain ⟨hpcs, hm⟩ := of_decide_eq_true hp
  have hall := deliveries_settled_once _ p hr
  refine ⟨p, hpcs, hm, fun g hg => (hall.1 g hg).1, fun failed => ?_⟩
  have hcount := hall.2 failed
  cases failed <;> simpa [Metrics.handled] using hcount

end LynxRabbit
