/-
# Publishing

`PublishMessage`, `PublishMessageWith` and `publishToChannel` of `client.go`, with
the producer counters of `metrics.go`.

A call finds its channel under the producers' lock, validates what it was given,
calls `PublishWithContext`, and records the result: three atomic steps, and other
goroutines may run between them.  `PublishCall.finish` is the call with nothing in
between.

`PublishMessage` takes whatever entry a `range` over the map meets first.  Go
leaves that order open and it may differ from one `range` to the next, so an order
is part of what the outside decides in a step.
-/

import LynxRabbit.Client.State

namespace LynxRabbit

/-- An entry of a map of channels. -/
abbrev ChannelEntry := Sigma fun _ : String => Option Channel

/-- The order in which a `range` goes over a map: every entry once, in any order. -/
structure MapOrder where
  order : ChannelMap → List ChannelEntry
  perm : ∀ m : ChannelMap, (order m).Perm m.entries

namespace MapOrder

/-- The entry a `range` meets first. -/
def first (r : MapOrder) (m : ChannelMap) : Option ChannelEntry := (r.order m).head?

/-- The order of the entry list. -/
def stored : MapOrder := ⟨fun m => m.entries, fun m => List.Perm.refl m.entries⟩

/-- The order of the entry list from its end. -/
def reversed : MapOrder := ⟨fun m => m.entries.reverse, fun m => m.entries.reverse_perm⟩

/-- The entry met first is an entry of the map. -/
theorem lookup_of_first {r : MapOrder} {m : ChannelMap} {e : ChannelEntry}
    (h : r.first m = some e) : m.lookup e.1 = some e.2 := by
  have hmem : e ∈ r.order m := List.mem_of_head? h
  exact AList.mem_lookup_iff.2 ((r.perm m).mem_iff.1 hmem)

/-- A `range` meets no entry exactly on an empty map. -/
theorem first_eq_none {r : MapOrder} {m : ChannelMap} : r.first m = none ↔ m.entries = [] := by
  rw [first, List.head?_eq_none_iff]
  constructor
  · intro h
    exact (h ▸ r.perm m).nil_eq.symm
  · intro h
    exact (h ▸ r.perm m).eq_nil

end MapOrder

/-- `time.Time`, in nanoseconds since the zero time. -/
abbrev Time := ℕ

/-- A reading of the clock: `time.Now` never returns the zero time. -/
structure Instant where
  time : Time
  ne_zero : time ≠ 0

/-- `amqp.Publishing`. -/
structure Publishing where
  headers : List (String × String) := []
  contentType : String := ""
  contentEncoding : String := ""
  deliveryMode : ℕ := 0
  priority : ℕ := 0
  correlationId : String := ""
  replyTo : String := ""
  expiration : String := ""
  messageId : String := ""
  timestamp : Time := 0
  type : String := ""
  userId : String := ""
  appId : String := ""
  body : List UInt8 := []
deriving DecidableEq, Repr

/-- `amqp.Persistent`. -/
def persistent : ℕ := 2

/-- What a publish call was given to send. -/
structure Message where
  exchange : String
  routingKey : String
  body : List UInt8
  opts : List Publishing := []
deriving DecidableEq, Repr

/-- The arguments of a `PublishWithContext` call; `mandatory` and `immediate` are
always false. -/
structure Invocation where
  channel : Channel
  exchange : String
  routingKey : String
  publishing : Publishing
deriving DecidableEq, Repr

/-- A publish call of the public interface. -/
inductive PublishRequest
  | publishMessage (m : Message)
  | publishMessageWith (producerName : String) (m : Message)
deriving DecidableEq, Repr

def PublishRequest.message : PublishRequest → Message
  | .publishMessage m => m
  | .publishMessageWith _ m => m

/-- What the outside decides in the steps of a publish call: the order of the
`range`, the clock, the answer to `PublishWithContext`, and the time it took. -/
structure PublishEnv where
  range : MapOrder := .stored
  now : Instant := ⟨1, Nat.one_ne_zero⟩
  answer : Choice := .ok
  elapsed : ℤ := 0

/-- `publishToChannel` before it touches the network. -/
def Message.check (m : Message) : Option GoError :=
  (if m.exchange ≠ "" then validateExchange m.exchange else none).or
    (if m.body.length = 0 then some (.var .emptyMessage) else none)

/-- The message `publishToChannel` sends: a persistent octet-stream by default,
`opts[0]` when given, with the body and a zero timestamp filled in. -/
def Message.publishing (m : Message) (now : Instant) : Publishing :=
  match m.opts with
  | [] =>
    { contentType := "application/octet-stream", deliveryMode := persistent,
      timestamp := now.time, body := m.body }
  | opt :: _ =>
    { opt with
      body := m.body
      timestamp := if opt.timestamp = 0 then now.time else opt.timestamp }

/-- The call `publishToChannel` makes on the channel it was given. -/
def Message.invocation (m : Message) (ch : Channel) (now : Instant) : Invocation :=
  ⟨ch, m.exchange, m.routingKey, m.publishing now⟩

/-- The lookup of `PublishMessage` and of `PublishMessageWith`. -/
def Client.findProducer (s : Client) (range : MapOrder) : PublishRequest → Except GoError Channel
  | .publishMessage _ =>
    match range.first s.producers with
    | some ⟨_, some ch⟩ => .ok ch
    | _ => .error (.var .producerNotReady)
  | .publishMessageWith name _ =>
    match s.producers.lookup name with
    | none => .error (wrapError (.var .producerNotFound) ("producer: " ++ name))
    | some none => .error (wrapError (.var .producerNotReady) ("producer: " ++ name))
    | some (some ch) => .ok ch

/-- `IsProducerReady`. -/
def Client.isProducerReady (s : Client) (name : String) : Bool :=
  match s.producers.lookup name with
  | some (some _) => true
  | _ => false

namespace Metrics

/-- `IncrementProducerMessagesSent`. -/
def incrementProducerMessagesSent (m : Metrics) : Metrics :=
  { m with producerMessagesSent := m.producerMessagesSent + 1 }

/-- `IncrementProducerMessagesFailed`. -/
def incrementProducerMessagesFailed (m : Metrics) : Metrics :=
  { m with producerMessagesFailed := m.producerMessagesFailed + 1 }

/-- `RecordProducerLatency`. -/
def recordProducerLatency (m : Metrics) (duration : ℤ) : Metrics :=
  { m with producerLatency := duration }

/-- What `publishToChannel` records about a `PublishWithContext` that took
`duration`. -/
def recordPublish (m : Metrics) (duration : ℤ) (failed : Bool) : Metrics :=
  if failed then (m.recordProducerLatency duration).incrementProducerMessagesFailed
  else (m.recordProducerLatency duration).incrementProducerMessagesSent

end Metrics

/-- The error of a call whose `PublishWithContext` failed with `text`. -/
def publishFailure (text : String) : GoError := wrapError (.var .publishMessageFailed) text

/-- Where a publish call stands.  A call that has returned remembers whether it
called `PublishWithContext`, and with what. -/
inductive PublishCall
  | find (k : PublishRequest)
  | publish (ch : Channel) (m : Message)
  | record (inv : Invocation) (err : Option String)
  | returned (inv : Option Invocation) (err : Option GoError)
deriving DecidableEq, Repr

/-- One atomic step of a publish call. -/
def PublishCall.step (s : Client) (env : PublishEnv) : PublishCall → Option (Client × PublishCall)
  | .find k =>
    match s.findProducer env.range k with
    | .error e => some (s, .returned none (some e))
    | .ok ch => some (s, .publish ch k.message)
  | .publish ch m =>
    match m.check with
    | some e => some (s, .returned none (some e))
    | none => some (s, .record (m.invocation ch env.now) (s.amqp.callErr ch env.answer))
  | .record inv err =>
    some ({ s with metrics := s.metrics.recordPublish env.elapsed err.isSome },
      .returned (some inv) (err.map publishFailure))
  | .returned _ _ => none

/-- Up to `n` steps of a publish call with nothing in between. -/
def PublishCall.finish (s : Client) (env : PublishEnv) : ℕ → PublishCall → Client × PublishCall
  | 0, pc => (s, pc)
  | n + 1, pc =>
    match pc.step s env with
    | none => (s, pc)
    | some (s', pc') => pc'.finish s' env n

/-- A publish call alone.  It has at most three steps. -/
def Client.publish (s : Client) (env : PublishEnv) (k : PublishRequest) : Client × PublishCall :=
  (PublishCall.find k).finish s env 3

/-- The transitions of a publish call. -/
inductive PublishCall.Moves (s : Client) (env : PublishEnv) :
    PublishCall → Client → PublishCall → Prop
  | refuse {k : PublishRequest} {e : GoError} : s.findProducer env.range k = .error e →
      Moves s env (.find k) s (.returned none (some e))
  | found {k : PublishRequest} {ch : Channel} : s.findProducer env.range k = .ok ch →
      Moves s env (.find k) s (.publish ch k.message)
  | invalid (ch : Channel) {m : Message} {e : GoError} : m.check = some e →
      Moves s env (.publish ch m) s (.returned none (some e))
  | invoke (ch : Channel) {m : Message} : m.check = none →
      Moves s env (.publish ch m) s
        (.record (m.invocation ch env.now) (s.amqp.callErr ch env.answer))
  | record (inv : Invocation) (err : Option String) :
      Moves s env (.record inv err)
        { s with metrics := s.metrics.recordPublish env.elapsed err.isSome }
        (.returned (some inv) (err.map publishFailure))

theorem PublishCall.moves_of_step {s s' : Client} {env : PublishEnv} {pc pc' : PublishCall}
    (h : pc.step s env = some (s', pc')) : pc.Moves s env s' pc' := by
  cases pc with
  | find k =>
      rw [PublishCall.step] at h
      split at h <;> cases h
      · exact .refuse ‹_›
      · exact .found ‹_›
  | publish ch m =>
      rw [PublishCall.step] at h
      split at h <;> cases h
      · exact .invalid ch ‹_›
      · exact .invoke ch ‹_›
  | record inv err => cases h; exact .record inv err
  | returned inv err => cases h

theorem Client.isProducerReady_iff {s : Client} {name : String} :
    s.isProducerReady name = true ↔ ∃ ch, s.producers.lookup name = some (some ch) := by
  unfold Client.isProducerReady
  split
  · rename_i ch h
    exact iff_of_true rfl ⟨ch, h⟩
  · rename_i h
    refine iff_of_false Bool.false_ne_true ?_
    rintro ⟨ch, hch⟩
    exact h ch hch

end LynxRabbit
