/-
# Publish calls beside the rest of the client

The system of `Client/System.lean` with the calls of `PublishMessage` and
`PublishMessageWith` running beside its goroutines, and with the broker's side of
publishing: a `PublishWithContext` that returns nil has written a frame, the broker
answers a frame on an open channel with an ack or a nack, and the answer reaches the
client while the channel is still open.  The broker may also close a channel and keep
its connection, as it does for a publish to an exchange that does not exist.

`ServiceMoves` lists the transitions, and `ServiceRun.lift` carries an invariant of the
system over to the service: publish calls and the broker's answers touch nothing of the
system but the metrics and the closed channels.
-/

import LynxRabbit.Client.Publish
import LynxRabbit.Subscriptions.Names

namespace LynxRabbit

open Runs

/-- What has become of a publish frame: the broker has not answered, has sent its ack
or nack, or the answer has arrived. -/
inductive Confirm
  | awaited
  | sent (ack : Bool)
  | received (ack : Bool)
deriving DecidableEq, Repr

/-- A publish frame that was written. -/
structure Outgoing where
  invocation : Invocation
  confirm : Confirm := .awaited
deriving DecidableEq, Repr

/-- The system, and the frames written so far. -/
structure Wire where
  system : State
  frames : List Outgoing := []

/-- A goroutine in a publish call.  It remembers the number of the frame the call has
written, and what had become of that frame when the call returned. -/
structure Caller where
  pc : PublishCall
  frame : Option ℕ := none
  seen : Option Confirm := none
deriving DecidableEq, Repr

/-- What has become of frame `n`. -/
def confirmAt (frames : List Outgoing) (n : ℕ) : Option Confirm := frames[n]?.map Outgoing.confirm

/-- One atomic step of a publish call.  `PublishWithContext` that returns nil has
written a frame. -/
def Caller.step (w : Wire) (t : Caller) (env : PublishEnv) :
    Option (Wire × Caller × List Caller) :=
  (t.pc.step w.system.shared env).map fun q =>
    match t.pc, q.2 with
    | .publish _ _, .record inv none =>
      (⟨⟨q.1, w.system.threads⟩, w.frames ++ [⟨inv, .awaited⟩]⟩,
        ⟨q.2, some w.frames.length, none⟩, [])
    | .record _ _, _ =>
      (⟨⟨q.1, w.system.threads⟩, w.frames⟩,
        ⟨q.2, t.frame, t.frame.bind (confirmAt w.frames)⟩, [])
    | _, _ => (⟨⟨q.1, w.system.threads⟩, w.frames⟩, ⟨q.2, t.frame, t.seen⟩, [])

/-- The system, the frames, and the publish calls. -/
abbrev Service := Pool Wire Caller

/-- The client of the service. -/
def Service.client (q : Service) : Client := q.shared.system.shared

/-- The service with another system in it. -/
def Service.withSystem (q : Service) (p : State) : Service :=
  ⟨⟨p, q.shared.frames⟩, q.threads⟩

/-- The service with frame `n` confirmed as `c`. -/
def Service.setConfirm (q : Service) (n : ℕ) (inv : Invocation) (c : Confirm) : Service :=
  ⟨⟨q.shared.system, q.shared.frames.set n ⟨inv, c⟩⟩, q.threads⟩

/-- What can happen next. -/
inductive ServiceAction
  | system (a : Action)
  | publish (k : PublishRequest)
  | advance (j : ℕ) (env : PublishEnv)
  | confirm (n : ℕ) (ack : Bool)
  | receive (n : ℕ)
  | closeChannel (ch : Channel)

/-- A step of the service. -/
def serviceStep (q : Service) (a : ServiceAction) : Option Service :=
  if q.client.panicked then none
  else match a with
    | .system a => (step q.shared.system a).map q.withSystem
    | .publish k => some { q with threads := q.threads ++ [{ pc := .find k }] }
    | .advance j env => q.step Caller.step j env
    | .confirm n ack =>
      match q.shared.frames[n]? with
      | some ⟨inv, .awaited⟩ =>
        if q.client.amqp.chanOpen inv.channel then some (q.setConfirm n inv (.sent ack)) else none
      | _ => none
    | .receive n =>
      match q.shared.frames[n]? with
      | some ⟨inv, .sent ack⟩ =>
        if q.client.amqp.chanOpen inv.channel then some (q.setConfirm n inv (.received ack))
        else none
      | _ => none
    | .closeChannel ch =>
      if ch.id < q.client.amqp.channels ∧ q.client.amqp.chanOpen ch = true then
        some (q.withSystem
          ⟨{ q.client with amqp := q.client.amqp.closeChannel ch }, q.shared.system.threads⟩)
      else none

/-- The service of a fresh client. -/
def service (cfg : RabbitMQ) : Service := ⟨⟨fresh cfg, []⟩, []⟩

/-- The startup of the default configuration, alone. -/
def serviceBoot : List ServiceAction := boot.map .system

/-- A short message to an exchange, on no producer in particular. -/
def greeting (exchange : String) : PublishRequest :=
  .publishMessage { exchange := exchange, routingKey := "greetings", body := [104, 105] }

/-! ### Its transitions -/

/-- The transitions of a publish call, with the frame a call writes. -/
inductive Caller.Moves (s : Client) (env : PublishEnv) (frames : List Outgoing) :
    Caller → Client → List Outgoing → Caller → Prop
  | written {ch : Channel} {m : Message} (frame : Option ℕ) (seen : Option Confirm) :
      m.check = none → s.amqp.callErr ch env.answer = none →
        Moves s env frames ⟨.publish ch m, frame, seen⟩ s
          (frames ++ [⟨m.invocation ch env.now, .awaited⟩])
          ⟨.record (m.invocation ch env.now) none, some frames.length, none⟩
  | recorded (inv : Invocation) (err : Option String) (frame : Option ℕ) (seen : Option Confirm) :
      Moves s env frames ⟨.record inv err, frame, seen⟩
        { s with metrics := s.metrics.recordPublish env.elapsed err.isSome } frames
        ⟨.returned (some inv) (err.map publishFailure), frame, frame.bind (confirmAt frames)⟩
  | refused {k : PublishRequest} {e : GoError} (frame : Option ℕ) (seen : Option Confirm) :
      s.findProducer env.range k = .error e →
        Moves s env frames ⟨.find k, frame, seen⟩ s frames ⟨.returned none (some e), frame, seen⟩
  | invalid (ch : Channel) {m : Message} {e : GoError} (frame : Option ℕ)
      (seen : Option Confirm) : m.check = some e →
        Moves s env frames ⟨.publish ch m, frame, seen⟩ s frames
          ⟨.returned none (some e), frame, seen⟩
  | found {k : PublishRequest} {ch : Channel} (frame : Option ℕ) (seen : Option Confirm) :
      s.findProducer env.range k = .ok ch →
        Moves s env frames ⟨.find k, frame, seen⟩ s frames ⟨.publish ch k.message, frame, seen⟩
  | unwritten {ch : Channel} {m : Message} {text : String} (frame : Option ℕ)
      (seen : Option Confirm) : m.check = none → s.amqp.callErr ch env.answer = some text →
        Moves s env frames ⟨.publish ch m, frame, seen⟩ s frames
          ⟨.record (m.invocation ch env.now) (some text), frame, seen⟩

/-- The transitions of the service. -/
inductive ServiceMoves (q : Service) : ServiceAction → Service → Prop
  | system {a : Action} {p : State} : step q.shared.system a = some p →
      ServiceMoves q (.system a) (q.withSystem p)
  | publish (k : PublishRequest) :
      ServiceMoves q (.publish k) ⟨q.shared, q.threads ++ [{ pc := .find k }]⟩
  | advance {env : PublishEnv} {l r : List Caller} {t t' : Caller} {s' : Client}
      {frames : List Outgoing} :
      q.threads = l ++ t :: r → t.Moves q.client env q.shared.frames s' frames t' →
        ServiceMoves q (.advance l.length env)
          ⟨⟨⟨s', q.shared.system.threads⟩, frames⟩, l ++ t' :: r⟩
  | confirm {n : ℕ} {inv : Invocation} (ack : Bool) :
      q.shared.frames[n]? = some ⟨inv, .awaited⟩ → q.client.amqp.chanOpen inv.channel = true →
        ServiceMoves q (.confirm n ack) (q.setConfirm n inv (.sent ack))
  | receive {n : ℕ} {inv : Invocation} {ack : Bool} :
      q.shared.frames[n]? = some ⟨inv, .sent ack⟩ → q.client.amqp.chanOpen inv.channel = true →
        ServiceMoves q (.receive n) (q.setConfirm n inv (.received ack))
  | closeChannel {ch : Channel} : ch.id < q.client.amqp.channels →
      q.client.amqp.chanOpen ch = true →
        ServiceMoves q (.closeChannel ch) (q.withSystem
          ⟨{ q.client with amqp := q.client.amqp.closeChannel ch }, q.shared.system.threads⟩)

theorem Caller.moves_of_step {w w' : Wire} {t t' : Caller} {env : PublishEnv} {new : List Caller}
    (h : t.step w env = some (w', t', new)) :
    t.Moves w.system.shared env w.frames w'.system.shared w'.frames t' ∧
      w'.system.threads = w.system.threads ∧ new = [] := by
  obtain ⟨⟨s', pc'⟩, hq, he⟩ := Option.map_eq_some_iff.1 h
  have hm := PublishCall.moves_of_step hq
  obtain ⟨pc, frame, seen⟩ := t
  cases hm with
  | refuse hf =>
      cases he
      exact ⟨.refused frame seen hf, rfl, rfl⟩
  | found hf =>
      cases he
      exact ⟨.found frame seen hf, rfl, rfl⟩
  | invalid ch hc =>
      cases he
      exact ⟨.invalid ch frame seen hc, rfl, rfl⟩
  | invoke ch hc =>
      cases herr : w.system.shared.amqp.callErr ch env.answer with
      | none =>
          simp only [herr] at he
          cases he
          exact ⟨.written frame seen hc herr, rfl, rfl⟩
      | some text =>
          simp only [herr] at he
          cases he
          exact ⟨.unwritten frame seen hc herr, rfl, rfl⟩
  | record inv err =>
      cases he
      exact ⟨.recorded inv err frame seen, rfl, rfl⟩

theorem serviceMoves_of_step {q q' : Service} {a : ServiceAction} (h : serviceStep q a = some q') :
    q.client.panicked = false ∧ ServiceMoves q a q' := by
  unfold serviceStep at h
  split at h
  · cases h
  · rename_i hp
    refine ⟨by simpa using hp, ?_⟩
    cases a with
    | system a =>
        obtain ⟨p, hs, rfl⟩ := Option.map_eq_some_iff.1 h
        exact .system hs
    | publish k =>
        obtain rfl := Option.some.inj h
        exact .publish k
    | advance j env =>
        obtain ⟨l, t, r, w', t', new, hl, rfl, -, ht, rfl⟩ := Pool.step_focus h
        obtain ⟨hm, hthreads, rfl⟩ := Caller.moves_of_step ht
        have hw : w' = ⟨⟨w'.system.shared, q.shared.system.threads⟩, w'.frames⟩ := by
          rw [← hthreads]
        rw [hw, List.append_nil]
        exact .advance hl hm
    | confirm n ack =>
        simp only at h
        split at h
        · rename_i inv hf
          split_ifs at h with ho
          cases h
          exact .confirm ack hf ho
        · cases h
    | receive n =>
        simp only at h
        split at h
        · rename_i inv ack hf
          split_ifs at h with ho
          cases h
          exact .receive hf ho
        · cases h
    | closeChannel ch =>
        simp only at h
        split_ifs at h with hc
        cases h
        exact .closeChannel hc.1 hc.2

/-- A publish call leaves everything but the metrics alone. -/
theorem Caller.Moves.frame {s s' : Client} {env : PublishEnv} {frames frames' : List Outgoing}
    {t t' : Caller} (h : t.Moves s env frames s' frames' t') :
    s' = { s with metrics := s'.metrics } := by
  cases h <;> rfl

/-! ### Invariants of the system -/

/-- The system with other metrics and more channels closed. -/
def touched (p : State) (m : Metrics) (f : ℕ → Bool) : State :=
  ⟨{ p.shared with metrics := m, amqp := { p.shared.amqp with chanClosed := f } }, p.threads⟩

/-- What a step of the service does to the system: a step of its own, or it touches
the metrics and the closed channels. -/
theorem ServiceMoves.system_cases {q q' : Service} {a : ServiceAction} (h : ServiceMoves q a q') :
    (∃ b, a = .system b ∧ step q.shared.system b = some q'.shared.system) ∨
      (∃ m, q'.shared.system = touched q.shared.system m q.client.amqp.chanClosed) ∨
      ∃ ch, a = .closeChannel ch ∧ q'.shared.system =
        touched q.shared.system q.client.metrics (q.client.amqp.closeChannel ch).chanClosed := by
  cases h with
  | system hm => exact .inl ⟨_, rfl, hm⟩
  | publish k => exact .inr (.inl ⟨_, rfl⟩)
  | @advance env l r t t' s' frames hl hm =>
      refine .inr (.inl ⟨s'.metrics, ?_⟩)
      exact congrArg (fun s => Pool.mk s q.shared.system.threads) hm.frame
  | confirm ack hf ho => exact .inr (.inl ⟨_, rfl⟩)
  | receive hf ho => exact .inr (.inl ⟨_, rfl⟩)
  | closeChannel hc ho => exact .inr (.inr ⟨_, rfl, rfl⟩)

/-- **An invariant of the system is one of the service** when it looks neither at the
metrics nor at the closed channels. -/
theorem ServiceRun.lift {I : State → Prop} {g : Service → ServiceAction → Bool} {q q' : Service}
    (hr : Run serviceStep g q q') (h₀ : I q.shared.system)
    (hstep : ∀ q b p, g q (.system b) = true → I q.shared.system →
      Moves q.shared.system b p → I p)
    (htouch : ∀ p m f, I p → I (touched p m f)) : I q'.shared.system := by
  refine hr.invariant (I := fun q => I q.shared.system) h₀ fun q a q' hi hg h => ?_
  rcases (serviceMoves_of_step h).2.system_cases with ⟨b, rfl, hm⟩ | ⟨m, hm⟩ | ⟨ch, -, hm⟩
  · exact hstep q b _ hg hi (moves_of_step hm).2
  · rw [hm]
    exact htouch _ _ _ hi
  · rw [hm]
    exact htouch _ _ _ hi

/-- The configuration is `cfg`, and the maps name its enabled entries only. -/
def NamedBy (cfg : RabbitMQ) (p : State) : Prop :=
  p.shared.config = cfg ∧ OnlyEnabled (fun _ => True) p

theorem NamedBy.of_run {cfg : RabbitMQ} {g : Service → ServiceAction → Bool} {q q' : Service}
    (hr : Run serviceStep g q q') (hi : NamedBy cfg q.shared.system) :
    NamedBy cfg q'.shared.system :=
  ServiceRun.lift hr hi (fun _ _ _ _ hi h => ⟨h.config.trans hi.1, hi.2.step h⟩) fun _ _ _ hi => hi

theorem namedBy_service (cfg : RabbitMQ) : NamedBy cfg (service cfg).shared.system :=
  ⟨rfl, onlyEnabled_fresh _ cfg⟩

end LynxRabbit
