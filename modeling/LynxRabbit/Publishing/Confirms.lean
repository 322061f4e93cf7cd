/-
# Publisher confirms

`createProducer` puts the channel in confirm mode, so the broker answers every
publish frame with an ack or a nack.  `publishToChannel` never asks: it returns what
`PublishWithContext` returned, and that is nil as soon as the frame is written.

A call that has written its frame has one step left, in which it records the result
and returns nil.  Nothing makes that step wait for the ack.  `confirmed_step_iff` says
what is left of the confirms: as long as every such step is taken in a state in which
the ack for the frame has come in, reported success means a received ack; and the first
step that is not breaks it.
-/

import LynxRabbit.Publishing.Service

namespace LynxRabbit

open Runs

/-- The call has returned nil. -/
def Caller.succeeded (t : Caller) : Bool :=
  match t.pc with
  | .returned _ none => true
  | _ => false

/-- The call has returned the error of its `PublishWithContext`. -/
def Caller.failed (t : Caller) : Bool :=
  match t.pc with
  | .returned (some _) (some _) => true
  | _ => false

/-- The call has returned. -/
def Caller.done (t : Caller) : Bool :=
  match t.pc with
  | .returned _ _ => true
  | _ => false

/-- Frame `n` was nacked. -/
def Service.Nacked (q : Service) (n : ℕ) : Prop :=
  confirmAt q.shared.frames n = some (.sent false) ∨
    confirmAt q.shared.frames n = some (.received false)

/-- Frame `n` was lost with its channel or its connection, before its ack or nack
came in. -/
def Service.Lost (q : Service) (n : ℕ) : Prop :=
  ∃ f, q.shared.frames[n]? = some f ∧ q.client.amqp.chanOpen f.invocation.channel = false ∧
    ∀ ack, f.confirm ≠ .received ack

/-- Success is reported for confirmed messages only.  Every call that returned nil had
received its ack by then, a call whose message was nacked or lost and that has
returned, has returned an error, and the two counters count the two outcomes. -/
structure Confirmed (q : Service) : Prop where
  acked : ∀ t ∈ q.threads, t.succeeded = true → t.seen = some (.received true)
  failed : ∀ t ∈ q.threads, ∀ n, t.frame = some n → q.Nacked n ∨ q.Lost n → t.done = true →
    t.failed = true
  messagesSent : q.client.metrics.producerMessagesSent = q.threads.countP Caller.succeeded
  messagesFailed : q.client.metrics.producerMessagesFailed = q.threads.countP Caller.failed

/-- The call is not about to report success, or the ack for its frame has come in. -/
def Caller.acked (frames : List Outgoing) (t : Caller) : Bool :=
  match t.pc with
  | .record _ none => t.frame.bind (confirmAt frames) == some (.received true)
  | _ => true

/-- A call that has written its frame records its result only in a state in which the
ack for the frame has come in. -/
def recordsAcked (q : Service) : ServiceAction → Bool
  | .advance j _ => q.threads[j]?.all (Caller.acked q.shared.frames)
  | _ => true

/-! ### The frames -/

/-- The frames only grow, a frame keeps its message, and what was received stays. -/
def FramesFollow (fs fs' : List Outgoing) : Prop :=
  ∀ (n : ℕ) (f : Outgoing), fs[n]? = some f → ∃ f' : Outgoing, fs'[n]? = some f' ∧
    f'.invocation = f.invocation ∧ ∀ ack, f.confirm = .received ack → f'.confirm = .received ack

theorem FramesFollow.refl (fs : List Outgoing) : FramesFollow fs fs :=
  fun _ f h => ⟨f, h, rfl, fun _ => id⟩

theorem FramesFollow.append (fs : List Outgoing) (f : Outgoing) : FramesFollow fs (fs ++ [f]) := by
  intro n g hg
  have hlt := (List.getElem?_eq_some_iff.1 hg).1
  exact ⟨g, by rw [List.getElem?_append_left hlt, hg], rfl, fun _ => id⟩

/-- The broker's answer, or its arrival, changes one frame that had not received
any. -/
theorem FramesFollow.set {fs : List Outgoing} {n : ℕ} {inv : Invocation} {c : Confirm}
    (h : fs[n]? = some ⟨inv, c⟩) (hc : ∀ ack, c ≠ .received ack) (c' : Confirm) :
    FramesFollow fs (fs.set n ⟨inv, c'⟩) := by
  intro m g hg
  rcases eq_or_ne n m with rfl | hne
  · obtain rfl := Option.some.inj (h.symm.trans hg)
    have hlt := (List.getElem?_eq_some_iff.1 h).1
    exact ⟨⟨inv, c'⟩, List.getElem?_set_self hlt, rfl, fun ack ha => absurd ha (hc ack)⟩
  · exact ⟨g, by rw [List.getElem?_set_ne hne, hg], rfl, fun _ => id⟩

theorem Caller.Moves.framesFollow {s s' : Client} {env : PublishEnv} {fs fs' : List Outgoing}
    {t t' : Caller} (h : t.Moves s env fs s' fs' t') : FramesFollow fs fs' := by
  cases h with
  | written frame seen hc he => exact .append fs _
  | _ => exact .refl fs

theorem ServiceMoves.framesFollow {q q' : Service} {a : ServiceAction} (h : ServiceMoves q a q') :
    FramesFollow q.shared.frames q'.shared.frames := by
  cases h with
  | advance hl hm => exact hm.framesFollow
  | confirm ack hf ho => exact .set hf (fun ack h => by cases h) _
  | receive hf ho => exact .set hf (fun ack h => by cases h) _
  | _ => exact .refl _

/-! ### The calls -/

/-- The place is one a call gets to only with its frame written. -/
def PublishCall.wrote : PublishCall → Bool
  | .record _ none => true
  | .returned _ none => true
  | _ => false

/-- A call has a frame exactly when it is at such a place, and what it saw received is
what its frame received. -/
def Caller.Ok (fs : List Outgoing) (t : Caller) : Prop :=
  match t.frame with
  | none => t.pc.wrote = false
  | some n => ∃ f, fs[n]? = some f ∧
      (t.pc = .record f.invocation none ∨
        t.pc = .returned (some f.invocation) none ∧
          ∀ ack, t.seen = some (.received ack) → f.confirm = .received ack)

theorem Caller.Ok.follow {fs fs' : List Outgoing} {t : Caller} (h : t.Ok fs)
    (hf : FramesFollow fs fs') : t.Ok fs' := by
  unfold Caller.Ok at h ⊢
  split at h
  · exact h
  · obtain ⟨f, hn, hpc⟩ := h
    obtain ⟨f', hn', hinv, hrec⟩ := hf _ f hn
    refine ⟨f', hn', ?_⟩
    rw [hinv]
    exact hpc.imp_right fun ⟨hret, hseen⟩ => ⟨hret, fun ack ha => hrec ack (hseen ack ha)⟩

theorem Caller.Ok.frame_eq_none {fs : List Outgoing} {t : Caller} (h : t.Ok fs)
    (hw : t.pc.wrote = false) : t.frame = none := by
  unfold Caller.Ok at h
  split at h
  · assumption
  · obtain ⟨f, -, hpc | ⟨hpc, -⟩⟩ := h
    · rw [hpc] at hw
      cases hw
    · rw [hpc] at hw
      cases hw

/-- A call that moves on without a frame. -/
theorem Caller.Ok.unwritten {fs : List Outgoing} {t : Caller} (h : t.Ok fs)
    (hw : t.pc.wrote = false) {pc : PublishCall} (hw' : pc.wrote = false)
    (seen : Option Confirm) : Caller.Ok fs ⟨pc, t.frame, seen⟩ := by
  rw [h.frame_eq_none hw]
  exact hw'

theorem Caller.Moves.ok {s s' : Client} {env : PublishEnv} {fs fs' : List Outgoing}
    {t t' : Caller} (h : t.Moves s env fs s' fs' t') (hi : t.Ok fs) : t'.Ok fs' := by
  cases h with
  | @written ch m frame seen hc he =>
      exact ⟨⟨m.invocation ch env.now, .awaited⟩, List.getElem?_concat_length, .inl rfl⟩
  | recorded inv err frame seen =>
      cases err with
      | some text => exact hi.unwritten rfl rfl _
      | none =>
          cases frame with
          | none => cases hi
          | some n =>
              obtain ⟨f, hn, hpc | ⟨hpc, -⟩⟩ := hi
              · cases hpc
                refine ⟨f, hn, .inr ⟨rfl, fun ack ha => ?_⟩⟩
                simpa [confirmAt, hn] using ha
              · cases hpc
  | refused frame seen hf => exact hi.unwritten rfl rfl _
  | invalid ch frame seen hc => exact hi.unwritten rfl rfl _
  | found frame seen hf => exact hi.unwritten rfl rfl _
  | unwritten frame seen hc he => exact hi.unwritten rfl rfl _

/-- What a step of a call adds to the counters is what it adds to the outcomes. -/
theorem Caller.Moves.counted {s s' : Client} {env : PublishEnv} {fs fs' : List Outgoing}
    {t t' : Caller} (h : t.Moves s env fs s' fs' t') :
    s'.metrics.producerMessagesSent + t.succeeded.toNat =
        s.metrics.producerMessagesSent + t'.succeeded.toNat ∧
      s'.metrics.producerMessagesFailed + t.failed.toNat =
        s.metrics.producerMessagesFailed + t'.failed.toNat := by
  cases h with
  | recorded inv err frame seen => cases err <;> exact ⟨rfl, rfl⟩
  | _ => exact ⟨rfl, rfl⟩

/-! ### The runs -/

/-- The calls are in order and counted. -/
structure Bookkept (q : Service) : Prop where
  calls : ∀ t ∈ q.threads, t.Ok q.shared.frames
  messagesSent : q.client.metrics.producerMessagesSent = q.threads.countP Caller.succeeded
  messagesFailed : q.client.metrics.producerMessagesFailed = q.threads.countP Caller.failed

theorem bookkept_service (cfg : RabbitMQ) : Bookkept (service cfg) :=
  ⟨fun _ h => absurd h List.not_mem_nil, rfl, rfl⟩

theorem Metrics.countHandled_published (m : Metrics) (failed : Bool) :
    (m.countHandled failed).producerMessagesSent = m.producerMessagesSent ∧
      (m.countHandled failed).producerMessagesFailed = m.producerMessagesFailed := by
  cases failed <;> exact ⟨rfl, rfl⟩

/-- Only publish calls touch the publish counters. -/
theorem published_of_step {p p' : State} {a : Action} (h : step p a = some p') :
    p'.shared.metrics.producerMessagesSent = p.shared.metrics.producerMessagesSent ∧
      p'.shared.metrics.producerMessagesFailed = p.shared.metrics.producerMessagesFailed := by
  rcases step_metrics h with hm | ⟨failed, hm⟩
  · rw [hm]
    exact ⟨rfl, rfl⟩
  · rw [hm]
    exact Metrics.countHandled_published _ failed

theorem Bookkept.step {q q' : Service} {a : ServiceAction} (hi : Bookkept q)
    (h : ServiceMoves q a q') : Bookkept q' := by
  have hcalls : ∀ t ∈ q.threads, t.Ok q'.shared.frames :=
    fun t ht => (hi.calls t ht).follow h.framesFollow
  have hsent := hi.messagesSent
  have hfailed := hi.messagesFailed
  cases h with
  | system hs =>
      obtain ⟨hsent', hfailed'⟩ := published_of_step hs
      exact ⟨hcalls, hsent'.trans hsent, hfailed'.trans hfailed⟩
  | publish k =>
      refine ⟨fun t ht => ?_, ?_, ?_⟩
      · rcases List.mem_append.1 ht with ht | ht
        · exact hcalls t ht
        · obtain rfl := List.mem_singleton.1 ht
          exact rfl
      · simpa [countP_snoc, Caller.succeeded, Service.client] using hsent
      · simpa [countP_snoc, Caller.failed, Service.client] using hfailed
  | @advance env l r t t' s' frames hl hm =>
      have hok := hi.calls t (hl ▸ mem_focus_self l r t)
      obtain ⟨hs', hf'⟩ := hm.counted
      rw [hl] at hcalls hsent hfailed
      have hcount := countP_focus l r [] t t'
      simp only [List.append_nil, List.countP_nil, Nat.add_zero] at hcount
      have hcs := hcount Caller.succeeded
      have hcf := hcount Caller.failed
      refine ⟨fun u hu => ?_, ?_, ?_⟩
      · rcases eq_or_mem_others hu with rfl | hu
        · exact hm.ok hok
        · exact hcalls u (mem_of_mem_others hu t)
      · change s'.metrics.producerMessagesSent = (l ++ t' :: r).countP Caller.succeeded
        omega
      · change s'.metrics.producerMessagesFailed = (l ++ t' :: r).countP Caller.failed
        omega
  | confirm ack hf ho => exact ⟨hcalls, hsent, hfailed⟩
  | receive hf ho => exact ⟨hcalls, hsent, hfailed⟩
  | closeChannel hc ho => exact ⟨hcalls, hsent, hfailed⟩

theorem Caller.succeeded_iff {t : Caller} :
    t.succeeded = true ↔ ∃ inv, t.pc = .returned inv none := by
  obtain ⟨pc, frame, seen⟩ := t
  cases pc with
  | returned inv err => cases err <;> simp [Caller.succeeded]
  | _ => simp [Caller.succeeded]

/-- A message whose ack was received was neither nacked nor lost. -/
theorem not_nacked_or_lost {q : Service} {n : ℕ} {f : Outgoing}
    (hn : q.shared.frames[n]? = some f) (hf : f.confirm = .received true) :
    ¬ (q.Nacked n ∨ q.Lost n) := by
  rintro ((h | h) | ⟨g, hg, -, hack⟩)
  · simp [confirmAt, hn, hf] at h
  · simp [confirmAt, hn, hf] at h
  · obtain rfl := Option.some.inj (hn.symm.trans hg)
    exact hack true hf

/-- A call that has returned nil knows the frame it has written. -/
theorem Bookkept.frame_of_succeeded {q : Service} (hi : Bookkept q) {t : Caller}
    (ht : t ∈ q.threads) (hs : t.succeeded = true) :
    ∃ n f, t.frame = some n ∧ q.shared.frames[n]? = some f ∧
      ∀ ack, t.seen = some (.received ack) → f.confirm = .received ack := by
  obtain ⟨inv, hpc⟩ := Caller.succeeded_iff.1 hs
  have hok := hi.calls t ht
  unfold Caller.Ok at hok
  split at hok
  · rw [hpc] at hok
    cases hok
  · rename_i n hn
    obtain ⟨f, hf, hrec | ⟨-, hseen⟩⟩ := hok
    · rw [hpc] at hrec
      cases hrec
    · exact ⟨n, f, hn, hf, hseen⟩

/-- A call that has written its frame and has returned, has returned nil. -/
theorem Bookkept.succeeded_of_frame {q : Service} (hi : Bookkept q) {t : Caller}
    (ht : t ∈ q.threads) {n : ℕ} (hn : t.frame = some n) (hd : t.done = true) :
    t.succeeded = true := by
  have hok := hi.calls t ht
  simp only [Caller.Ok, hn] at hok
  obtain ⟨f, -, hpc | ⟨hpc, -⟩⟩ := hok
  · simp [Caller.done, hpc] at hd
  · simp [Caller.succeeded, hpc]

/-- It is enough that every call that returned nil had its ack. -/
theorem Bookkept.confirmed {q : Service} (hi : Bookkept q)
    (hacked : ∀ t ∈ q.threads, t.succeeded = true → t.seen = some (.received true)) :
    Confirmed q := by
  refine ⟨hacked, fun t ht n hn hbad hd => ?_, hi.messagesSent, hi.messagesFailed⟩
  have hs := hi.succeeded_of_frame ht hn hd
  obtain ⟨n', f, hn', hf, hseen⟩ := hi.frame_of_succeeded ht hs
  obtain rfl := Option.some.inj (hn.symm.trans hn')
  exact absurd hbad (not_nacked_or_lost hf (hseen true (hacked t ht hs)))

/-- **Only the record step reports success**, and what the call has seen by then is what
had become of its frame in the state before. -/
theorem Caller.Moves.succeeds {s s' : Client} {env : PublishEnv} {fs fs' : List Outgoing}
    {t t' : Caller} (h : t.Moves s env fs s' fs' t') (hs : t'.succeeded = true) :
    (∃ inv, t.pc = .record inv none) ∧ t'.seen = t.frame.bind (confirmAt fs) := by
  cases h with
  | recorded inv err frame seen =>
      cases err with
      | none => exact ⟨⟨inv, rfl⟩, rfl⟩
      | some text => cases hs
  | _ => cases hs

/-- A step under the condition reports success for an ack that has come in. -/
theorem ServiceMoves.acked {q q' : Service} {a : ServiceAction} (h : ServiceMoves q a q')
    (hg : recordsAcked q a = true)
    (hi : ∀ t ∈ q.threads, t.succeeded = true → t.seen = some (.received true)) :
    ∀ t ∈ q'.threads, t.succeeded = true → t.seen = some (.received true) := by
  intro u hu hs
  cases h with
  | publish k =>
      rcases List.mem_append.1 hu with hu | hu
      · exact hi u hu hs
      · obtain rfl := List.mem_singleton.1 hu
        cases hs
  | @advance env l r t t' s' frames hl hm =>
      rcases eq_or_mem_others hu with rfl | hu
      · obtain ⟨⟨inv, hpc⟩, hseen⟩ := hm.succeeds hs
        have hget : q.threads[l.length]? = some t := by
          rw [hl, List.getElem?_append_right (Nat.le_refl _), Nat.sub_self]
          rfl
        rw [recordsAcked, hget, Option.all_some, Caller.acked, hpc] at hg
        exact hseen.trans (beq_iff_eq.1 hg)
      · exact hi u (hl ▸ mem_of_mem_others hu t) hs
  | system hs' => exact hi u hu hs
  | confirm ack hf ho => exact hi u hu hs
  | receive hf ho => exact hi u hu hs
  | closeChannel hc ho => exact hi u hu hs

/-- A step that does not meet the condition reports success for a message whose ack has
not come in. -/
theorem recordsAcked_of_confirmed {q q' : Service} {a : ServiceAction}
    (h : ServiceMoves q a q') (hc : Confirmed q') : recordsAcked q a = true := by
  cases h with
  | @advance env l r t t' s' frames hl hm =>
      have hget : q.threads[l.length]? = some t := by
        rw [hl, List.getElem?_append_right (Nat.le_refl _), Nat.sub_self]
        rfl
      rw [recordsAcked, hget, Option.all_some]
      unfold Caller.acked
      split
      · rename_i inv hpc
        -- the call is at its record step, so it has returned nil after it
        have hs : t'.succeeded = true := by
          cases hm with
          | recorded inv' err frame seen => cases hpc; rfl
          | _ => cases hpc
        have hseen := hc.acked t' (mem_focus_self l r t') hs
        rw [(hm.succeeds hs).2] at hseen
        exact beq_iff_eq.2 hseen
      · rfl
  | _ => rfl

/-- **Success means a received ack exactly where the calls record behind their acks.**  In
every run in which each call that has written its frame records its result in a state in
which the ack has come in, every state is one in which success was reported for confirmed
messages only; and from there a step keeps it so if and only if it meets the condition. -/
theorem confirmed_step_iff (cfg : RabbitMQ) (q : Service)
    (hr : Run serviceStep recordsAcked (service cfg) q) :
    Confirmed q ∧
      ∀ a q', serviceStep q a = some q' → (Confirmed q' ↔ recordsAcked q a = true) := by
  have hrun : ∀ {q : Service}, Run serviceStep recordsAcked (service cfg) q → Confirmed q := by
    intro q hr
    have hinv := hr.invariant (I := fun q => Bookkept q ∧
      ∀ t ∈ q.threads, t.succeeded = true → t.seen = some (.received true))
      ⟨bookkept_service cfg, fun _ h => absurd h List.not_mem_nil⟩
      fun _ _ _ hi hg h =>
        ⟨hi.1.step (serviceMoves_of_step h).2, (serviceMoves_of_step h).2.acked hg hi.2⟩
    exact hinv.1.confirmed hinv.2
  refine ⟨hrun hr, fun a q' h => ⟨fun hc => ?_, fun hg => hrun (hr.tail hg h)⟩⟩
  exact recordsAcked_of_confirmed (serviceMoves_of_step h).2 hc

/-- Two publishes on the default producer.  The first call returns after its ack has
come in; the broker nacks the second message, and that call has not returned. -/
def ackThenNack : List ServiceAction :=
  serviceBoot ++ [.publish (greeting ""), .publish (greeting ""),
    .advance 0 {}, .advance 0 {}, .advance 1 {}, .advance 1 {},
    .confirm 0 true, .receive 0, .confirm 1 false, .receive 1, .advance 0 {}]

theorem confirmed_step_iff_nacked :
    ∃ q, Run serviceStep recordsAcked (service defaultRabbitMQConfig) q ∧
      q.threads.map Caller.succeeded = [true, false] ∧ Confirmed q ∧
      ∀ q', serviceStep q (.advance 1 {}) = some q' → ¬ Confirmed q' := by
  obtain ⟨q, hr, hq⟩ := exists_run_of_replay serviceStep recordsAcked
    (service defaultRabbitMQConfig)
    (fun q => decide (q.threads.map Caller.succeeded = [true, false] ∧
      recordsAcked q (.advance 1 {}) = false)) ackThenNack (by decide)
  obtain ⟨hs, hnot⟩ := of_decide_eq_true hq
  obtain ⟨hc, hstep⟩ := confirmed_step_iff defaultRabbitMQConfig q hr
  refine ⟨q, hr, hs, hc, fun q' h hc' => ?_⟩
  rw [(hstep _ q' h).1 hc'] at hnot
  cases hnot

/-- The broker nacks the message, and the call returns nil all the same. -/
def nackedPublish : List ServiceAction :=
  serviceBoot ++ [.publish (greeting ""), .advance 0 {}, .advance 0 {},
    .confirm 0 false, .receive 0, .advance 0 {}]

theorem nacked_publish_succeeds :
    ∃ q, Run serviceStep always (service defaultRabbitMQConfig) q ∧ ∃ t ∈ q.threads,
      t.succeeded = true ∧ q.client.metrics.producerMessagesSent = 1 ∧
        t.frame = some 0 ∧ confirmAt q.shared.frames 0 = some (.received false) ∧
          ¬ Confirmed q := by
  obtain ⟨q, hr, hq⟩ := exists_run_of_replay serviceStep always (service defaultRabbitMQConfig)
    (fun q => decide (q.client.metrics.producerMessagesSent = 1 ∧
      confirmAt q.shared.frames 0 = some (.received false) ∧ ∃ t ∈ q.threads,
        t.succeeded = true ∧ t.frame = some 0 ∧ t.seen = some (.received false)))
    nackedPublish (by decide)
  obtain ⟨hsent, hnack, t, ht, hs, hframe, hseen⟩ := of_decide_eq_true hq
  refine ⟨q, hr, t, ht, hs, hsent, hframe, hnack, fun hc => ?_⟩
  have hacked := (hc.acked t ht hs).symm.trans hseen
  cases hacked

end LynxRabbit
