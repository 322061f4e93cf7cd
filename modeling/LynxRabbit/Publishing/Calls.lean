/-
# What a publish call does and what it reports

A publish call makes its checks in the order of the source: the producer is there,
its channel is not nil, the exchange is empty or valid, the body is not empty.  It
calls `PublishWithContext` exactly when all of them pass; otherwise it returns the
error of the first one that fails and nothing has changed.

`PublishRequest.firstFailing` lists the checks with the error kind of each.
`Reported` says what one call does and returns, success exactly when the library
accepted the message, and `publishAll_reported` carries it over any sequence of calls,
with the counters summed up.
-/

import LynxRabbit.Client.Publish
import LynxRabbit.Runs.Pool

namespace LynxRabbit

/-- The non-nil channel a call finds, if any. -/
def PublishRequest.channel (s : Client) (range : MapOrder) : PublishRequest → Option Channel
  | .publishMessage _ => (range.first s.producers).bind (·.2)
  | .publishMessageWith name _ => (s.producers.lookup name).join

/-- No producer has the name the call gives. -/
def PublishRequest.unknown (s : Client) : PublishRequest → Bool
  | .publishMessage _ => false
  | .publishMessageWith name _ => (s.producers.lookup name).isNone

/-- The kind of the first check that fails, in the order the call makes them. -/
def PublishRequest.firstFailing (s : Client) (range : MapOrder) (k : PublishRequest) :
    Option ErrVar :=
  ([(k.unknown s, .producerNotFound),
    ((k.channel s range).isNone, .producerNotReady),
    (k.message.exchange ≠ "" && (validateExchange k.message.exchange).isSome, .invalidExchange),
    (k.message.body.isEmpty, .emptyMessage)].find? fun c : Bool × ErrVar => c.1).map (·.2)

/-! ### The checks -/

/-- **The lookup** returns the channel the call finds, or the error of the first of
its two checks. -/
theorem Client.findProducer_cases (s : Client) (range : MapOrder) (k : PublishRequest) :
    (∃ ch, s.findProducer range k = .ok ch ∧ k.channel s range = some ch ∧
        k.unknown s = false) ∨
      ∃ e v, s.findProducer range k = .error e ∧ e.OfKind v ∧ k.channel s range = none ∧
        k.firstFailing s range = some v := by
  cases k with
  | publishMessage m =>
      rw [Client.findProducer]
      split
      · rename_i name ch hf
        refine .inl ⟨ch, rfl, ?_, rfl⟩
        simp [PublishRequest.channel, hf]
      · rename_i hf
        have hnone : (PublishRequest.publishMessage m).channel s range = none := by
          cases hr : range.first s.producers with
          | none => simp [PublishRequest.channel, hr]
          | some e =>
              obtain ⟨name, v⟩ := e
              cases v with
              | none => simp [PublishRequest.channel, hr]
              | some ch => exact absurd hr (hf name ch)
        refine .inr ⟨_, .producerNotReady, rfl, ofKind_var _, hnone, ?_⟩
        simp [PublishRequest.firstFailing, PublishRequest.unknown, hnone]
  | publishMessageWith name m =>
      rw [Client.findProducer]
      split
      · rename_i hl
        refine .inr ⟨_, .producerNotFound, rfl, (ofKind_var _).wrapError _, ?_, ?_⟩
        · simp [PublishRequest.channel, hl]
        · simp [PublishRequest.firstFailing, PublishRequest.unknown, hl]
      · rename_i hl
        refine .inr ⟨_, .producerNotReady, rfl, (ofKind_var _).wrapError _, ?_, ?_⟩
        · simp [PublishRequest.channel, hl]
        · simp [PublishRequest.firstFailing, PublishRequest.unknown, PublishRequest.channel, hl]
      · rename_i ch hl
        refine .inl ⟨ch, rfl, ?_, ?_⟩
        · simp [PublishRequest.channel, hl]
        · simp [PublishRequest.unknown, hl]

/-- What `publishToChannel` accepts. -/
def Message.Sendable (m : Message) : Prop :=
  (m.exchange = "" ∨ validateExchange m.exchange = none) ∧ m.body ≠ []

/-- **The validation** passes exactly what may be sent. -/
theorem Message.check_eq_none_iff (m : Message) : m.check = none ↔ m.Sendable := by
  unfold Message.check Message.Sendable
  by_cases hx : m.exchange = ""
  · simp [hx, List.length_eq_zero_iff]
  · simp [hx, Option.or_eq_none_iff, List.length_eq_zero_iff]

/-- What it refuses is refused with the kind of the first check that fails. -/
theorem Message.check_ofKind {s : Client} {range : MapOrder} {k : PublishRequest} {ch : Channel}
    {e : GoError} (hch : k.channel s range = some ch) (hknown : k.unknown s = false)
    (h : k.message.check = some e) : ∃ v, e.OfKind v ∧ k.firstFailing s range = some v := by
  unfold Message.check at h
  by_cases hx : k.message.exchange = ""
  · by_cases hb : k.message.body = []
    · simp only [hx, hb, ne_eq, not_true, if_false, Option.none_or, List.length_nil, if_true] at h
      obtain rfl := Option.some.inj h
      refine ⟨.emptyMessage, ofKind_var _, ?_⟩
      simp [PublishRequest.firstFailing, hch, hknown, hx, hb]
    · simp [hx, hb] at h
  · cases hv : validateExchange k.message.exchange with
    | some e' =>
        simp only [hx, ne_eq, not_false_iff, if_true, hv, Option.some_or] at h
        obtain rfl := Option.some.inj h
        refine ⟨.invalidExchange, validateName_ofKind hx hv, ?_⟩
        simp [PublishRequest.firstFailing, hch, hknown, hx, hv]
    | none =>
        by_cases hb : k.message.body = []
        · simp only [hx, hb, hv, ne_eq, not_false_iff, if_true, Option.none_or,
            List.length_nil] at h
          obtain rfl := Option.some.inj h
          refine ⟨.emptyMessage, ofKind_var _, ?_⟩
          simp [PublishRequest.firstFailing, hch, hknown, hx, hv, hb]
        · simp [hx, hb, hv] at h

/-- The message that is sent has a timestamp. -/
theorem Message.timestamp_ne_zero (m : Message) (now : Instant) :
    (m.publishing now).timestamp ≠ 0 := by
  unfold Message.publishing
  split
  · exact now.ne_zero
  · dsimp only
    split_ifs with hz
    · exact now.ne_zero
    · exact hz

theorem Message.body_publishing (m : Message) (now : Instant) :
    (m.publishing now).body = m.body := by
  unfold Message.publishing
  split <;> rfl

/-! ### One call -/

/-- A call and what it came to: the client before and after it, and where it ended. -/
structure PublishRecord where
  before : Client
  env : PublishEnv
  request : PublishRequest
  after : Client
  call : PublishCall

/-- The call invoked `PublishWithContext`. -/
def PublishRecord.invoked (r : PublishRecord) : Bool :=
  match r.call with
  | .returned (some _) _ => true
  | _ => false

/-- The call returned nil. -/
def PublishRecord.succeeded (r : PublishRecord) : Bool :=
  match r.call with
  | .returned _ none => true
  | _ => false

/-- What `messages_sent` and `messages_failed` add up to. -/
def Metrics.published (m : Metrics) : ℕ := m.producerMessagesSent + m.producerMessagesFailed

/-- What a call that has returned owes its caller and the counters. -/
structure Reported (r : PublishRecord) (inv : Option Invocation) (err : Option GoError) :
    Prop where
  invoked_iff : inv.isSome = true ↔
    (r.request.channel r.before r.env.range).isSome = true ∧ r.request.message.Sendable
  faithful : ∀ i, inv = some i →
    r.request.channel r.before r.env.range = some i.channel ∧
      i.exchange = r.request.message.exchange ∧ i.routingKey = r.request.message.routingKey ∧
      i.publishing.body = r.request.message.body ∧ i.publishing.timestamp ≠ 0
  answered : ∀ i, inv = some i →
    (err = none ↔ r.before.amqp.callErr i.channel r.env.answer = none)
  counted : inv.isSome = true →
    r.after.metrics.published = r.before.metrics.published + 1 ∧
      (r.after.metrics.producerMessagesSent = r.before.metrics.producerMessagesSent + 1 ↔
        err = none) ∧
      (r.after.metrics.producerMessagesSent = r.before.metrics.producerMessagesSent ↔
        err ≠ none)
  untouched : inv = none → r.after = r.before ∧
    ∃ e v, err = some e ∧ r.request.firstFailing r.before r.env.range = some v ∧ e.OfKind v
  failed : ∀ e, inv.isSome = true → err = some e → e.OfKind .publishMessageFailed

theorem Metrics.published_recordPublish (m : Metrics) (d : ℤ) (failed : Bool) :
    (m.recordPublish d failed).published = m.published + 1 := by
  cases failed
  · simp only [Metrics.recordPublish, Metrics.published,
      Metrics.incrementProducerMessagesSent, Metrics.recordProducerLatency]
    simp only [Bool.false_eq_true, if_false]
    omega
  · simp only [Metrics.recordPublish, Metrics.published,
      Metrics.incrementProducerMessagesFailed, Metrics.recordProducerLatency, if_true]
    omega

@[simp] theorem Metrics.sent_recordPublish (m : Metrics) (d : ℤ) (failed : Bool) :
    (m.recordPublish d failed).producerMessagesSent =
      m.producerMessagesSent + (!failed).toNat := by
  cases failed <;> rfl

/-- The error of a failed `PublishWithContext`. -/
theorem publishFailure_ofKind (text : String) :
    (publishFailure text).OfKind .publishMessageFailed :=
  (ofKind_var _).wrapError text

/-- A call that was refused before it invoked anything. -/
theorem reported_of_refused {s : Client} {env : PublishEnv} {k : PublishRequest} {e : GoError}
    {v : ErrVar} (hkind : e.OfKind v) (hfirst : k.firstFailing s env.range = some v)
    (hno : ¬ ((k.channel s env.range).isSome = true ∧ k.message.Sendable)) :
    Reported ⟨s, env, k, s, .returned none (some e)⟩ none (some e) := by
  refine ⟨?_, ?_, ?_, ?_, ?_, ?_⟩
  · exact iff_of_false Bool.false_ne_true hno
  · intro i hi
    cases hi
  · intro i hi
    cases hi
  · intro h
    cases h
  · exact fun _ => ⟨rfl, e, v, rfl, hfirst, hkind⟩
  · intro e' h
    cases h

/-- A call that invoked `PublishWithContext`, which answered `err`. -/
theorem reported_of_invoked {s : Client} {env : PublishEnv} {k : PublishRequest} {ch : Channel}
    {err : Option String} (herr : s.amqp.callErr ch env.answer = err)
    (hch : k.channel s env.range = some ch) (hgood : k.message.Sendable) :
    Reported ⟨s, env, k, { s with metrics := s.metrics.recordPublish env.elapsed err.isSome },
        .returned (some (k.message.invocation ch env.now)) (err.map publishFailure)⟩
      (some (k.message.invocation ch env.now)) (err.map publishFailure) := by
  refine ⟨?_, ?_, ?_, ?_, ?_, ?_⟩
  · simp [hch, hgood]
  · intro i hi
    obtain rfl := Option.some.inj hi
    exact ⟨hch, rfl, rfl, k.message.body_publishing env.now, k.message.timestamp_ne_zero env.now⟩
  · intro i hi
    obtain rfl := Option.some.inj hi
    show err.map publishFailure = none ↔ s.amqp.callErr ch env.answer = none
    rw [herr, Option.map_eq_none_iff]
  · intro _
    refine ⟨s.metrics.published_recordPublish env.elapsed err.isSome, ?_, ?_⟩
    · cases err <;> simp
    · cases err <;> simp
  · intro h
    cases h
  · intro e _ he
    obtain ⟨text, -, rfl⟩ := Option.map_eq_some_iff.1 he
    exact publishFailure_ofKind text

/-- **One publish call**, alone, returns and has done what it reports. -/
theorem Client.publish_reported (s : Client) (env : PublishEnv) (k : PublishRequest) :
    ∃ inv err, (s.publish env k).2 = .returned inv err ∧
      Reported ⟨s, env, k, (s.publish env k).1, (s.publish env k).2⟩ inv err := by
  rcases s.findProducer_cases env.range k with ⟨ch, hfind, hch, hknown⟩ |
    ⟨e, v, hfind, hkind, hch, hfirst⟩
  · cases hcheck : k.message.check with
    | some e =>
        obtain ⟨v, hkind, hfirst⟩ := Message.check_ofKind hch hknown hcheck
        have hpub : s.publish env k = (s, .returned none (some e)) := by
          simp [Client.publish, PublishCall.finish, PublishCall.step, hfind, hcheck]
        have hbad : ¬ k.message.Sendable := by
          rw [← Message.check_eq_none_iff, hcheck]
          exact Option.some_ne_none e
        rw [hpub]
        exact ⟨none, some e, rfl, reported_of_refused hkind hfirst fun h => hbad h.2⟩
    | none =>
        obtain ⟨err, herr⟩ : ∃ err, s.amqp.callErr ch env.answer = err := ⟨_, rfl⟩
        have hpub : s.publish env k =
            ({ s with metrics := s.metrics.recordPublish env.elapsed err.isSome },
              .returned (some (k.message.invocation ch env.now)) (err.map publishFailure)) := by
          simp [Client.publish, PublishCall.finish, PublishCall.step, hfind, hcheck, herr]
        rw [hpub]
        exact ⟨_, _, rfl, reported_of_invoked herr hch (k.message.check_eq_none_iff.1 hcheck)⟩
  · have hpub : s.publish env k = (s, .returned none (some e)) := by
      simp [Client.publish, PublishCall.finish, PublishCall.step, hfind]
    rw [hpub]
    refine ⟨none, some e, rfl, reported_of_refused hkind hfirst fun h => ?_⟩
    rw [hch] at h
    cases h.1

/-! ### Any sequence of calls -/

/-- The calls one after another: the client after them, and the record of each. -/
def Client.publishAll : Client → List (PublishEnv × PublishRequest) → Client × List PublishRecord
  | s, [] => (s, [])
  | s, c :: calls =>
    let q := s.publish c.1 c.2
    let rest := q.1.publishAll calls
    (rest.1, ⟨s, c.1, c.2, q.1, q.2⟩ :: rest.2)

/-- How one call moves the two counters. -/
theorem Reported.counters {r : PublishRecord} {inv : Option Invocation} {err : Option GoError}
    (h : Reported r inv err) (hc : r.call = .returned inv err) :
    r.after.metrics.published = r.before.metrics.published + r.invoked.toNat ∧
      r.after.metrics.producerMessagesSent =
        r.before.metrics.producerMessagesSent + r.succeeded.toNat := by
  cases inv with
  | none =>
      obtain ⟨hsame, e, v, rfl, -, -⟩ := h.untouched rfl
      rw [hsame]
      simp [PublishRecord.invoked, PublishRecord.succeeded, hc]
  | some i =>
      obtain ⟨hsum, hsent, hkept⟩ := h.counted rfl
      refine ⟨by simp [PublishRecord.invoked, hc, hsum], ?_⟩
      cases err with
      | none => simp [PublishRecord.succeeded, hc, hsent.2 rfl]
      | some e => simp [PublishRecord.succeeded, hc, hkept.2 (Option.some_ne_none e)]

/-- **Publishing is validated, faithful and accounted for**, in every sequence of
calls on any client. -/
theorem publishAll_reported (s : Client) (calls : List (PublishEnv × PublishRequest)) :
    (s.publishAll calls).2.map (fun r => (r.env, r.request)) = calls ∧
      (∀ r ∈ (s.publishAll calls).2, ∃ inv err, r.call = .returned inv err ∧ Reported r inv err) ∧
      (s.publishAll calls).1.metrics.published =
        s.metrics.published + (s.publishAll calls).2.countP PublishRecord.invoked ∧
      (s.publishAll calls).1.metrics.producerMessagesSent =
        s.metrics.producerMessagesSent +
          (s.publishAll calls).2.countP PublishRecord.succeeded := by
  induction calls generalizing s with
  | nil => exact ⟨rfl, fun r hr => (by cases hr), rfl, rfl⟩
  | cons c calls ih =>
      obtain ⟨hcalls, hall, hsum, hsent⟩ := ih (s.publish c.1 c.2).1
      obtain ⟨inv, err, hret, hrep⟩ := s.publish_reported c.1 c.2
      obtain ⟨hsum₁, hsent₁⟩ := hrep.counters hret
      dsimp only at hsum₁ hsent₁
      rw [Client.publishAll]
      refine ⟨?_, ?_, ?_, ?_⟩
      · rw [List.map_cons, hcalls]
      · exact List.forall_mem_cons.2 ⟨⟨inv, err, hret, hrep⟩, hall⟩
      · rw [hsum, hsum₁, Runs.countP_cons_toNat]
        omega
      · rw [hsent, hsent₁, Runs.countP_cons_toNat]
        omega

end LynxRabbit
