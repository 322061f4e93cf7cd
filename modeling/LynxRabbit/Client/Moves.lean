/-
# What each routine can do

The step functions say how a routine computes its next state; the relations here
say, once for each routine, which transitions there are: one constructor for each
of them, with its guard, the state after it, where the routine stands then, and
what it starts.  `moves_of_step` turns a step into a transition, and no proof
about the system unfolds a step function again.
-/

import LynxRabbit.Client.System

namespace LynxRabbit

open Runs

/-! ### Dialling and set-up -/

/-- **A dial that succeeds** returns the next connection number and opens it. -/
theorem Client.dial_ok {s s' : Client} {o : Choice} {c : ConnId} (h : s.dial o = .ok (s', c)) :
    c = s.amqp.dialled ∧ s' = { s with amqp := s.amqp.dial } := by
  unfold Client.dial at h
  split at h
  · cases h
  · split at h
    · cases h
    · split at h
      · cases h
      · cases h
        exact ⟨rfl, rfl⟩

/-- **`Channel()` on the stored connection**: it was there and open, and the body
goes on with a fresh channel of it. -/
theorem Client.openChannel_next {s s' : Client} {o : Choice} {check : Option GoError}
    {failure : GoError → GoError} {body : Channel → List SetupStep} {todo : List SetupStep}
    (h : s.openChannel o check failure body = .next s' todo) :
    ∃ c, s.connection = some c ∧ s.amqp.closed c = false ∧
      s' = { s with amqp := { s.amqp with channels := s.amqp.channels + 1 } } ∧
      todo = body ⟨s.amqp.channels, c⟩ := by
  unfold Client.openChannel at h
  split at h
  · cases h
  · split at h
    · cases h
    · rename_i c hc
      split at h
      · cases h
      · rename_i b ch hb
        obtain ⟨rfl, rfl, ho⟩ := Broker.channel_ok hb
        cases h
        exact ⟨c, hc, ho, rfl, rfl⟩

theorem Client.openChannel_fail {s s' : Client} {o : Choice} {check : Option GoError}
    {failure : GoError → GoError} {body : Channel → List SetupStep} {e : GoError}
    (h : s.openChannel o check failure body = .fail s' e) : s' = s := by
  unfold Client.openChannel at h
  split at h
  · cases h; rfl
  · split at h
    · cases h
    · split at h
      · cases h; rfl
      · cases h

theorem Client.openChannel_panic {s : Client} {o : Choice} {check : Option GoError}
    {failure : GoError → GoError} {body : Channel → List SetupStep}
    (h : s.openChannel o check failure body = .panic) : s.connection = none := by
  unfold Client.openChannel at h
  split at h
  · cases h
  · split at h
    · assumption
    · split at h <;> cases h

/-- **What a set-up step that goes on did.** -/
theorem SetupStep.exec_next {s s' : Client} {o : Choice} {i : SetupStep} {todo : List SetupStep}
    (h : i.exec s o = .next s' todo) :
    (∃ c, s.connection = some c ∧ s.amqp.closed c = false ∧
        s' = { s with amqp := { s.amqp with channels := s.amqp.channels + 1 } } ∧
        ((∃ p, i = .createProducer p ∧ todo = p.onChannel ⟨s.amqp.channels, c⟩) ∨
          ∃ k, i = .createConsumer k ∧ todo = k.onChannel ⟨s.amqp.channels, c⟩)) ∨
      (∃ r ch, i = .request r ch ∧ s' = s ∧ todo = []) ∨
      (∃ name ch, i = .registerProducer name ch ∧
        s' = { s with producers := s.producers.insert name (some ch) } ∧ todo = []) ∨
      ∃ name ch, i = .registerConsumer name ch ∧
        s' = { s with consumers := s.consumers.insert name (some ch) } ∧ todo = [] := by
  cases i with
  | createProducer p =>
      obtain ⟨c, hc, ho, hs, ht⟩ := Client.openChannel_next h
      exact .inl ⟨c, hc, ho, hs, .inl ⟨p, rfl, ht⟩⟩
  | createConsumer k =>
      obtain ⟨c, hc, ho, hs, ht⟩ := Client.openChannel_next h
      exact .inl ⟨c, hc, ho, hs, .inr ⟨k, rfl, ht⟩⟩
  | request r ch =>
      rw [SetupStep.exec] at h
      split at h
      · cases h
      · cases h
        exact .inr (.inl ⟨r, ch, rfl, rfl, rfl⟩)
  | registerProducer name ch =>
      cases h
      exact .inr (.inr (.inl ⟨name, ch, rfl, rfl, rfl⟩))
  | registerConsumer name ch =>
      cases h
      exact .inr (.inr (.inr ⟨name, ch, rfl, rfl, rfl⟩))

/-- A set-up step writes nothing but the two maps, and opens at most a channel. -/
theorem SetupStep.exec_frame {s s' : Client} {o : Choice} {i : SetupStep} {todo : List SetupStep}
    (h : i.exec s o = .next s' todo) :
    ∃ n P K, s' = { s with
      amqp := { s.amqp with channels := n }, producers := P, consumers := K } := by
  rcases SetupStep.exec_next h with ⟨_, -, -, rfl, -⟩ | ⟨_, _, -, rfl, -⟩ | ⟨_, _, -, rfl, -⟩ |
    ⟨_, _, -, rfl, -⟩
  · exact ⟨_, s.producers, s.consumers, rfl⟩
  · exact ⟨s'.amqp.channels, s'.producers, s'.consumers, rfl⟩
  · exact ⟨s.amqp.channels, _, s.consumers, rfl⟩
  · exact ⟨s.amqp.channels, s.producers, _, rfl⟩

/-- A set-up step that fails has at most closed its channel. -/
theorem SetupStep.exec_fail {s s' : Client} {o : Choice} {i : SetupStep} {e : GoError}
    (h : i.exec s o = .fail s' e) :
    ∃ f, s.amqp.StillClosed f ∧ s' = { s with amqp := { s.amqp with chanClosed := f } } := by
  cases i with
  | createProducer p => exact ⟨_, .refl s.amqp, Client.openChannel_fail h⟩
  | createConsumer k => exact ⟨_, .refl s.amqp, Client.openChannel_fail h⟩
  | request r ch =>
      rw [SetupStep.exec] at h
      split at h
      · cases h
        exact ⟨_, .closeChannel s.amqp ch, rfl⟩
      · cases h
  | registerProducer name ch => cases h
  | registerConsumer name ch => cases h

/-- A set-up step panics only on a nil connection it calls `Channel()` on. -/
theorem SetupStep.exec_panic {s : Client} {o : Choice} {i : SetupStep}
    (h : i.exec s o = .panic) : i.opens = true ∧ s.connection = none := by
  cases i with
  | createProducer p => exact ⟨rfl, Client.openChannel_panic h⟩
  | createConsumer k => exact ⟨rfl, Client.openChannel_panic h⟩
  | request r ch =>
      rw [SetupStep.exec] at h
      split at h <;> cases h
  | registerProducer name ch => cases h
  | registerConsumer name ch => cases h

/-! ### Dispatch -/

/-- The connection a `startDispatchLoop` has read, once it has read one. -/
def DispatchStep.conn? : DispatchStep → Option ConnId
  | .liveConnection => none
  | .openChannel c => some c
  | .qos ch => some ch.conn
  | .consume ch => some ch.conn
  | .start ch => some ch.conn

/-- What one step of `startDispatchLoop` can come to. -/
inductive DispatchStep.Executes (s : Client) (o : Choice) (ctx : Option ℕ) (rb : Option ConnId)
    (sub : Subscription) : DispatchStep → Progress (DispatchStep ⊕ Loop) → Prop
  | noConnection : s.connection = none →
      Executes s o ctx rb sub .liveConnection (.fail s (.var .consumerNotReady))
  | deadConnection {c : ConnId} : s.connection = some c → s.amqp.closed c = true →
      Executes s o ctx rb sub .liveConnection (.fail s (.var .consumerNotReady))
  | live {c : ConnId} : s.connection = some c → s.amqp.closed c = false →
      Executes s o ctx rb sub .liveConnection (.next s (.inl (.openChannel c)))
  | refused {c : ConnId} (text : String) : s.amqp.closed c = true ∨ o.err.isSome = true →
      Executes s o ctx rb sub (.openChannel c) (.fail s (subscribeFailure text))
  | opened {c : ConnId} : s.amqp.closed c = false → o.err = none →
      Executes s o ctx rb sub (.openChannel c)
        (.next { s with amqp := { s.amqp with channels := s.amqp.channels + 1 } } (.inl
          (if (s.config.dispatchSettings sub.consumerName).2 > 0 then .qos ⟨s.amqp.channels, c⟩
            else .consume ⟨s.amqp.channels, c⟩)))
  | qosFails {ch : Channel} {text : String} : s.amqp.callErr ch o = some text →
      Executes s o ctx rb sub (.qos ch)
        (.fail { s with amqp := s.amqp.closeChannel ch } (subscribeFailure text))
  | qos {ch : Channel} : s.amqp.callErr ch o = none →
      Executes s o ctx rb sub (.qos ch) (.next s (.inl (.consume ch)))
  | consumeFails {ch : Channel} {text : String} : s.amqp.callErr ch o = some text →
      Executes s o ctx rb sub (.consume ch)
        (.fail { s with amqp := s.amqp.closeChannel ch } (subscribeFailure text))
  | consume {ch : Channel} : s.amqp.callErr ch o = none →
      Executes s o ctx rb sub (.consume ch) (.next s (.inl (.start ch)))
  | start (ch : Channel) :
      Executes s o ctx rb sub (.start ch) (.next { s with subscriptionWG := s.subscriptionWG + 1 }
        (.inr ⟨sub, ch, (s.config.dispatchSettings sub.consumerName).1, ctx, rb⟩))

theorem DispatchStep.executes_of_exec {s : Client} {o : Choice} {ctx : Option ℕ}
    {rb : Option ConnId} {sub : Subscription} {d : DispatchStep}
    {q : Progress (DispatchStep ⊕ Loop)} (h : d.exec s o ctx rb sub = q) :
    d.Executes s o ctx rb sub q := by
  subst h
  cases d with
  | liveConnection =>
      rw [DispatchStep.exec]
      split
      · exact .noConnection ‹_›
      · rename_i c hc
        split_ifs with ho
        · exact .deadConnection hc ho
        · exact .live hc (by simpa using ho)
  | openChannel c =>
      rw [DispatchStep.exec]
      split
      · exact .refused _ (Broker.channel_error ‹_›)
      · rename_i b ch hb
        obtain ⟨rfl, rfl, ho⟩ := Broker.channel_ok hb
        exact .opened ho (Broker.err_of_channel_ok hb)
  | qos ch =>
      rw [DispatchStep.exec]
      split
      · exact .qosFails ‹_›
      · exact .qos ‹_›
  | consume ch =>
      rw [DispatchStep.exec]
      split
      · exact .consumeFails ‹_›
      · exact .consume ‹_›
  | start ch => exact .start ch

/-- **A step inside `startDispatchLoop`** keeps the connection it has read, or
reads the stored one, which is open then. -/
theorem DispatchStep.exec_inl {s s' : Client} {o : Choice} {ctx : Option ℕ} {rb : Option ConnId}
    {sub : Subscription} {d d' : DispatchStep} (h : d.exec s o ctx rb sub = .next s' (.inl d')) :
    (∃ n, s' = { s with amqp := { s.amqp with channels := n } }) ∧
      ((d = .liveConnection ∧ ∃ c, s.connection = some c ∧ s.amqp.closed c = false ∧
          d'.conn? = some c) ∨
        ∃ c, d.conn? = some c ∧ d'.conn? = some c) := by
  cases DispatchStep.executes_of_exec h with
  | live hc ho => exact ⟨⟨s.amqp.channels, rfl⟩, .inl ⟨rfl, _, hc, ho, rfl⟩⟩
  | opened ho he =>
      refine ⟨⟨_, rfl⟩, .inr ⟨_, rfl, ?_⟩⟩
      split_ifs <;> rfl
  | qos hok => exact ⟨⟨s.amqp.channels, rfl⟩, .inr ⟨_, rfl, rfl⟩⟩
  | consume hok => exact ⟨⟨s.amqp.channels, rfl⟩, .inr ⟨_, rfl, rfl⟩⟩

/-- **The step that starts a loop** adds one to `subscriptionWG`, for `sub`, on
the connection read before. -/
theorem DispatchStep.exec_inr {s s' : Client} {o : Choice} {ctx : Option ℕ} {rb : Option ConnId}
    {sub : Subscription} {d : DispatchStep} {l : Loop}
    (h : d.exec s o ctx rb sub = .next s' (.inr l)) :
    s' = { s with subscriptionWG := s.subscriptionWG + 1 } ∧ d = .start l.channel ∧
      l.sub = sub ∧ l.ctx = ctx ∧ l.rebuild = rb := by
  cases DispatchStep.executes_of_exec h
  exact ⟨rfl, rfl, rfl, rfl, rfl⟩

theorem DispatchStep.exec_fail {s s' : Client} {o : Choice} {ctx : Option ℕ} {rb : Option ConnId}
    {sub : Subscription} {d : DispatchStep} {e : GoError}
    (h : d.exec s o ctx rb sub = .fail s' e) :
    ∃ f, s.amqp.StillClosed f ∧ s' = { s with amqp := { s.amqp with chanClosed := f } } := by
  cases DispatchStep.executes_of_exec h with
  | qosFails hb => exact ⟨_, .closeChannel s.amqp _, rfl⟩
  | consumeFails hb => exact ⟨_, .closeChannel s.amqp _, rfl⟩
  | _ => exact ⟨_, .refl s.amqp, rfl⟩

theorem DispatchStep.exec_ne_panic {s : Client} {o : Choice} {ctx : Option ℕ} {rb : Option ConnId}
    {sub : Subscription} {d : DispatchStep} : d.exec s o ctx rb sub ≠ .panic := by
  intro h
  cases DispatchStep.executes_of_exec h

/-! ### The reconnect callback -/

/-- What a step of the reconnect callback that goes on does: one constructor for
each transition of `Callback.step`, with the state after it and what is next. -/
inductive Callback.Moves (s : Client) (o : Choice) :
    Callback → Client → Callback ⊕ ConnId → List Spawn → Prop
  | dial : Moves s o .dial { s with amqp := s.amqp.dial } (.inl (.store s.amqp.dialled)) []
  | store (c : ConnId) :
      Moves s o (.store c) { s with connection := some c } (.inl (.clearProducers c)) []
  | clearProducers (c : ConnId) :
      Moves s o (.clearProducers c) { s with producers := ∅ } (.inl (.clearConsumers c)) []
  | clearConsumers (c : ConnId) :
      Moves s o (.clearConsumers c) { s with consumers := ∅ }
        (.inl (.rebuild c (s.config.initializeProducers ++ s.config.initializeConsumers))) []
  | setup (c : ConnId) {i : SetupStep} {rest todo : List SetupStep} {s' : Client} :
      i.exec s o = .next s' todo →
        Moves s o (.rebuild c (i :: rest)) s' (.inl (.rebuild c (todo ++ rest))) []
  | snapshot (c : ConnId) :
      Moves s o (.rebuild c []) s (.inl (.restart c [] s.subscriptions)) []
  | found (c : ConnId) (started : List Subscription) {sub : Subscription}
      {pending : List Subscription} {ch : Channel} :
      s.consumers.lookup sub.consumerName = some (some ch) →
        Moves s o (.restart c started (sub :: pending)) s
          (.inl (.dispatch c started sub pending .liveConnection)) []
  | skip (c : ConnId) (started : List Subscription) {sub : Subscription}
      {pending : List Subscription} :
      (∀ ch, s.consumers.lookup sub.consumerName ≠ some (some ch)) →
        Moves s o (.restart c started (sub :: pending)) s
          (.inl (.restart c (started ++ [sub]) pending)) []
  | dispatch (c : ConnId) (started : List Subscription) {sub : Subscription}
      (pending : List Subscription) {d d' : DispatchStep} {s' : Client} :
      d.exec s o none (some c) sub = .next s' (.inl d') →
        Moves s o (.dispatch c started sub pending d) s'
          (.inl (.dispatch c started sub pending d')) []
  | start (c : ConnId) (started : List Subscription) {sub : Subscription}
      (pending : List Subscription) {d : DispatchStep} {l : Loop} {s' : Client} :
      d.exec s o none (some c) sub = .next s' (.inr l) →
        Moves s o (.dispatch c started sub pending d) s'
          (.inl (.restart c (started ++ [sub]) pending)) [.loop l]
  | finish (c : ConnId) (started : List Subscription) :
      Moves s o (.restart c started []) s (.inr c) []

theorem Callback.moves_of_step {s s' : Client} {o : Choice} {cb : Callback}
    {q : Callback ⊕ ConnId} {new : List Spawn} (h : cb.step s o = .next s' (q, new)) :
    cb.Moves s o s' q new := by
  cases cb with
  | dial =>
      rw [Callback.step] at h
      split at h
      · cases h
      · rename_i s₁ c hd
        obtain ⟨rfl, rfl⟩ := Client.dial_ok hd
        cases h
        exact .dial
  | store c => cases h; exact .store c
  | clearProducers c => cases h; exact .clearProducers c
  | clearConsumers c => cases h; exact .clearConsumers c
  | rebuild c todo =>
      cases todo with
      | nil => cases h; exact .snapshot c
      | cons i rest =>
          rw [Callback.step] at h
          split at h <;> cases h
          exact .setup c ‹_›
  | restart c started pending =>
      cases pending with
      | nil => cases h; exact .finish c started
      | cons sub pending =>
          rw [Callback.step] at h
          split at h <;> cases h
          · exact .found c started ‹_›
          · exact .skip c started fun ch hch => by simp_all
  | dispatch c started sub pending d =>
      rw [Callback.step] at h
      split at h <;> cases h
      · exact .dispatch c started pending ‹_›
      · exact .start c started pending ‹_›

/-- The callback is in a call that can return an error. -/
def Callback.fallible : Callback → Bool
  | .dial => true
  | .rebuild _ _ => true
  | .dispatch _ _ _ _ _ => true
  | _ => false

/-- A callback that fails was in such a call, and has at most closed a channel. -/
theorem Callback.step_fail {s s' : Client} {o : Choice} {cb : Callback} {e : GoError}
    (h : cb.step s o = .fail s' e) :
    cb.fallible = true ∧
      ∃ f, s.amqp.StillClosed f ∧ s' = { s with amqp := { s.amqp with chanClosed := f } } := by
  cases cb with
  | dial =>
      rw [Callback.step] at h
      split at h <;> cases h
      exact ⟨rfl, _, .refl s.amqp, rfl⟩
  | store c => cases h
  | clearProducers c => cases h
  | clearConsumers c => cases h
  | rebuild c todo =>
      refine ⟨rfl, ?_⟩
      cases todo with
      | nil => cases h
      | cons i rest =>
          rw [Callback.step] at h
          split at h <;> cases h
          exact SetupStep.exec_fail ‹_›
  | restart c started pending =>
      cases pending with
      | nil => cases h
      | cons sub pending =>
          rw [Callback.step] at h
          split at h <;> cases h
  | dispatch c started sub pending d =>
      rw [Callback.step] at h
      split at h <;> cases h
      exact ⟨rfl, DispatchStep.exec_fail ‹_›⟩

/-- A callback panics only where it is about to open the channel of an entry and
the stored connection is nil. -/
theorem Callback.step_panic {s : Client} {o : Choice} {cb : Callback}
    (h : cb.step s o = .panic) :
    ∃ c i rest, cb = .rebuild c (i :: rest) ∧ i.opens = true ∧ s.connection = none := by
  cases cb with
  | dial =>
      rw [Callback.step] at h
      split at h <;> cases h
  | store c => cases h
  | clearProducers c => cases h
  | clearConsumers c => cases h
  | rebuild c todo =>
      cases todo with
      | nil => cases h
      | cons i rest =>
          rw [Callback.step] at h
          split at h <;> cases h
          obtain ⟨hi, hc⟩ := SetupStep.exec_panic ‹_›
          exact ⟨c, i, rest, rfl, hi, hc⟩
  | restart c started pending =>
      cases pending with
      | nil => cases h
      | cons sub pending =>
          rw [Callback.step] at h
          split at h <;> cases h
  | dispatch c started sub pending d =>
      rw [Callback.step] at h
      split at h <;> cases h
      exact absurd ‹_› DispatchStep.exec_ne_panic

/-! ### Subscribe calls and dispatch loops -/

/-- The transitions of a `Subscribe` or `SubscribeWith` call. -/
inductive SubscribeCall.Moves (s : Client) (o : Choice) (id : ℕ) :
    SubscribeCall → Client → SubscribeCall → List Spawn → Prop
  | refuse (pc : SubscribeCall) (e : GoError) :
      (∀ sub, pc ≠ .record sub) → (∀ sub d, pc ≠ .dispatch sub d) →
        Moves s o id pc s (.returned (some e)) []
  | lookup {name queue : String} {handler : Handler} {ch : Channel} :
      s.consumers.lookup name = some (some ch) →
        Moves s o id (.lookup queue handler) s (.record ⟨id, name, queue, handler⟩) []
  | lookupWith {name queue : String} {handler : Handler} {ch : Channel} :
      validateQueue queue = none → s.consumers.lookup name = some (some ch) →
        Moves s o id (.lookupWith name queue handler) s (.record ⟨id, name, queue, handler⟩) []
  | record (sub : Subscription) :
      Moves s o id (.record sub) { s with subscriptions := s.subscriptions ++ [sub] }
        (.dispatch sub .liveConnection) []
  | dispatch {sub : Subscription} {d d' : DispatchStep} {s' : Client} :
      d.exec s o (some id) none sub = .next s' (.inl d') →
        Moves s o id (.dispatch sub d) s' (.dispatch sub d') []
  | start {sub : Subscription} {d : DispatchStep} {l : Loop} {s' : Client} :
      d.exec s o (some id) none sub = .next s' (.inr l) →
        Moves s o id (.dispatch sub d) s' (.returned none) [.loop l]
  | fail (sub : Subscription) (d : DispatchStep) (f : ℕ → Bool) (e : GoError) :
      s.amqp.StillClosed f → Moves s o id (.dispatch sub d)
        { s with amqp := { s.amqp with chanClosed := f } } (.returned (some e)) []

theorem SubscribeCall.moves_of_step {s s' : Client} {o : Choice} {id : ℕ} {pc pc' : SubscribeCall}
    {new : List Spawn} (h : pc.step s o id = some (s', pc', new)) : pc.Moves s o id s' pc' new := by
  cases pc with
  | lookup queue handler =>
      have hr : ∀ e, Moves s o id (.lookup queue handler) s (.returned (some e)) [] := fun e =>
        .refuse _ e (fun _ h => by cases h) fun _ _ h => by cases h
      rw [SubscribeCall.step] at h
      split at h
      · split at h <;> cases h
        · exact hr _
        · exact .lookup ‹_›
      · split_ifs at h
        cases h
        exact hr _
  | lookupWith name queue handler =>
      have hr : ∀ e, Moves s o id (.lookupWith name queue handler) s (.returned (some e)) [] :=
        fun e => .refuse _ e (fun _ h => by cases h) fun _ _ h => by cases h
      rw [SubscribeCall.step] at h
      split at h
      · cases h
        exact hr _
      · split at h <;> cases h
        · exact hr _
        · exact hr _
        · exact .lookupWith ‹_› ‹_›
  | record sub => cases h; exact .record sub
  | dispatch sub d =>
      rw [SubscribeCall.step] at h
      split at h <;> cases h
      · exact .dispatch ‹_›
      · exact .start ‹_›
      · obtain ⟨f, hcl, rfl⟩ := DispatchStep.exec_fail ‹_›
        exact .fail sub d f _ hcl
      · exact absurd ‹_› DispatchStep.exec_ne_panic
  | returned err => cases h

/-- The transitions of a dispatch loop. -/
inductive LoopPc.Moves (s : Client) (l : Loop) : LoopPc → Client → LoopPc → Prop
  | leave : Moves s l .select s .closing
  | deliver : s.amqp.chanOpen l.channel = true → Moves s l .select s .handling
  | handled (m : Metrics) (failed : Bool) :
      Moves s l .handling { s with metrics := m } (if l.autoAck then .select else .settling failed)
  | settled (failed : Bool) : Moves s l (.settling failed) s .select
  | close : Moves s l .closing { s with amqp := s.amqp.closeChannel l.channel } .finishing
  | finish : Moves s l .finishing { s with subscriptionWG := s.subscriptionWG - 1 } .returned

theorem LoopPc.moves_of_step {s s' : Client} {o : Choice} {l : Loop} {pc pc' : LoopPc}
    (h : pc.step s o l = some (s', pc')) : pc.Moves s l s' pc' := by
  cases pc with
  | select =>
      rw [LoopPc.step] at h
      split_ifs at h <;> cases h
      · exact .leave
      · exact .leave
      · exact .deliver ‹_›
      · exact .leave
  | handling => cases h; exact .handled _ _
  | settling failed => cases h; exact .settled failed
  | closing => cases h; exact .close
  | finishing => cases h; exact .finish
  | returned => cases h

/-! ### Watchers and `ForceReconnect` -/

/-- The transitions of a `watchConnection` goroutine. -/
inductive WatchConnection.Moves (s : Client) (o : Choice) :
    WatchConnection → Client → WatchConnection → List Spawn → Prop
  | stop (n : ℕ) : s.manager.stopChanClosed = true → Moves s o (.waiting n) s .returned []
  | receive {n : ℕ} : s.amqp.notify n = .error →
      Moves s o (.waiting n) { s with amqp := s.amqp.receive n } .disconnected []
  | closed {n : ℕ} : s.amqp.notify n = .closed → Moves s o (.waiting n) s .returned []
  | lower : Moves s o .disconnected (s.setConnected false) (.check 500) []
  | quit (ms : ℕ) : s.manager.stopChanClosed = true → Moves s o (.check ms) s .returned []
  | attempt (ms : ℕ) : s.manager.stopChanClosed = false →
      Moves s o (.check ms) s (.callback ms .dial) []
  | callback (ms : ℕ) {cb cb' : Callback} {s' : Client} {new : List Spawn} :
      cb.Moves s o s' (.inl cb') new → Moves s o (.callback ms cb) s' (.callback ms cb') new
  | success (ms : ℕ) {cb : Callback} {c : ConnId} {s' : Client} {new : List Spawn} :
      cb.Moves s o s' (.inr c) new → Moves s o (.callback ms cb) s' (.established c) new
  | failure (ms : ℕ) {cb : Callback} (f : ℕ → Bool) :
      cb.fallible = true → s.amqp.StillClosed f → Moves s o (.callback ms cb)
        { s with amqp := { s.amqp with chanClosed := f } } (.backoff ms) []
  | panic (ms : ℕ) (c : ConnId) {i : SetupStep} (rest : List SetupStep) :
      i.opens = true → s.connection = none →
        Moves s o (.callback ms (.rebuild c (i :: rest))) { s with panicked := true } .returned []
  | raise (c : ConnId) : Moves s o (.established c) (s.setConnected true) (.renotify c) []
  | renotify (c : ConnId) :
      Moves s o (.renotify c) { s with amqp := s.amqp.notifyClose c } (.handover s.amqp.notifies) []
  | handover (n : ℕ) : Moves s o (.handover n) s .returned [.watcher n]
  | quitBackoff (ms : ℕ) : s.manager.stopChanClosed = true →
      Moves s o (.backoff ms) s .returned []
  | retry (ms : ℕ) : Moves s o (.backoff ms) s (.check (min (2 * ms) 30000)) []

theorem WatchConnection.moves_of_step {s s' : Client} {o : Choice} {pc pc' : WatchConnection}
    {new : List Spawn} (h : pc.step s o = some (s', pc', new)) : pc.Moves s o s' pc' new := by
  cases pc with
  | waiting n =>
      rw [WatchConnection.step] at h
      split_ifs at h
      · cases h; exact .stop n ‹_›
      · split at h <;> cases h
        · exact .receive ‹_›
        · exact .closed ‹_›
  | disconnected => cases h; exact .lower
  | check ms =>
      rw [WatchConnection.step] at h
      split_ifs at h with hstop
      · cases h; exact .quit ms hstop
      · cases h; exact .attempt ms (by simpa using hstop)
  | callback ms cb =>
      rw [WatchConnection.step] at h
      split at h <;> cases h
      · exact .callback ms (Callback.moves_of_step ‹_›)
      · exact .success ms (Callback.moves_of_step ‹_›)
      · obtain ⟨hf, f, hcl, rfl⟩ := Callback.step_fail ‹_›
        exact .failure ms f hf hcl
      · obtain ⟨c, i, rest, rfl, hi, hc⟩ := Callback.step_panic ‹_›
        exact .panic ms c rest hi hc
  | established c => cases h; exact .raise c
  | renotify c => cases h; exact .renotify c
  | handover n => cases h; exact .handover n
  | backoff ms =>
      rw [WatchConnection.step] at h
      split_ifs at h
      · cases h; exact .quitBackoff ms ‹_›
      · cases h; exact .retry ms
  | returned => cases h

/-- The transitions of a `ForceReconnect` call. -/
inductive ForceReconnect.Moves (s : Client) (o : Choice) :
    ForceReconnect → Client → ForceReconnect → List Spawn → Prop
  | unwired : s.manager.reconnect = false → Moves s o .enter (s.setConnected true) .returned []
  | enter : s.manager.reconnect = true → Moves s o .enter s .lower []
  | lower : Moves s o .lower (s.setConnected false) (.callback .dial) []
  | callback {cb cb' : Callback} {s' : Client} {new : List Spawn} :
      cb.Moves s o s' (.inl cb') new → Moves s o (.callback cb) s' (.callback cb') new
  | success {cb : Callback} {c : ConnId} {s' : Client} {new : List Spawn} :
      cb.Moves s o s' (.inr c) new → Moves s o (.callback cb) s' .raise new
  | failure {cb : Callback} (f : ℕ → Bool) : cb.fallible = true → s.amqp.StillClosed f →
      Moves s o (.callback cb) { s with amqp := { s.amqp with chanClosed := f } } .returned []
  | panic (c : ConnId) {i : SetupStep} (rest : List SetupStep) :
      i.opens = true → s.connection = none →
        Moves s o (.callback (.rebuild c (i :: rest))) { s with panicked := true } .returned []
  | raise : Moves s o .raise (s.setConnected true) .returned []

theorem ForceReconnect.moves_of_step {s s' : Client} {o : Choice} {pc pc' : ForceReconnect}
    {new : List Spawn} (h : pc.step s o = some (s', pc', new)) : pc.Moves s o s' pc' new := by
  cases pc with
  | enter =>
      rw [ForceReconnect.step] at h
      split_ifs at h with hr
      · cases h; exact .enter hr
      · cases h; exact .unwired (by simpa using hr)
  | lower => cases h; exact .lower
  | callback cb =>
      rw [ForceReconnect.step] at h
      split at h <;> cases h
      · exact .callback (Callback.moves_of_step ‹_›)
      · exact .success (Callback.moves_of_step ‹_›)
      · obtain ⟨hf, f, hcl, rfl⟩ := Callback.step_fail ‹_›
        exact .failure f hf hcl
      · obtain ⟨c, i, rest, rfl, hi, hc⟩ := Callback.step_panic ‹_›
        exact .panic c rest hi hc
  | raise => cases h; exact .raise
  | returned => cases h

/-! ### Startup and cleanup -/

/-- **One step of a set-up inside `startupWithContext`**: the list is empty and
the loop ends, a step goes on, a step fails, or a step panics. -/
theorem setupStep_cases {s s' : Client} {o : Choice} {txt : String}
    {here : List SetupStep → StartupWithContext} {after pc' : StartupWithContext}
    {todo : List SetupStep} (h : setupStep s o txt here after todo = (s', pc')) :
    (todo = [] ∧ s' = s ∧ pc' = after) ∨
      (∃ i rest todo', todo = i :: rest ∧ i.exec s o = .next s' todo' ∧
        pc' = here (todo' ++ rest)) ∨
      (∃ f e, s.amqp.StillClosed f ∧
        s' = { s with amqp := { s.amqp with chanClosed := f } } ∧ pc' = .unpublish e) ∨
      ∃ i rest, todo = i :: rest ∧ i.opens = true ∧ s.connection = none ∧
        s' = { s with panicked := true } ∧ pc' = .returned none := by
  cases todo with
  | nil =>
      cases h
      exact .inl ⟨rfl, rfl, rfl⟩
  | cons i rest =>
      rw [setupStep] at h
      split at h
      · rename_i s₁ todo' hi
        cases h
        exact .inr (.inl ⟨i, rest, todo', rfl, hi, rfl⟩)
      · rename_i s₁ e hi
        cases h
        obtain ⟨f, hcl, rfl⟩ := SetupStep.exec_fail hi
        exact .inr (.inr (.inl ⟨f, _, hcl, rfl, rfl⟩))
      · rename_i hi
        cases h
        obtain ⟨ho, hc⟩ := SetupStep.exec_panic hi
        exact .inr (.inr (.inr ⟨i, rest, rfl, ho, hc, rfl, rfl⟩))

theorem StartupWithContext.step_producers {s s' : Client} {o : Choice} {todo : List SetupStep}
    {pc' : StartupWithContext} {new : List Spawn}
    (h : (StartupWithContext.producers todo).step s o = some (s', pc', new)) :
    setupStep s o "failed to initialize producers" .producers .afterProducers todo = (s', pc') ∧
      new = [] := by
  rw [StartupWithContext.step] at h
  cases hq : setupStep s o "failed to initialize producers" .producers .afterProducers todo with
  | mk s₁ pc₁ =>
      rw [hq] at h
      cases h
      exact ⟨rfl, rfl⟩

theorem StartupWithContext.step_consumers {s s' : Client} {o : Choice} {todo : List SetupStep}
    {pc' : StartupWithContext} {new : List Spawn}
    (h : (StartupWithContext.consumers todo).step s o = some (s', pc', new)) :
    setupStep s o "failed to initialize consumers" .consumers .startHealth todo = (s', pc') ∧
      new = [] := by
  rw [StartupWithContext.step] at h
  cases hq : setupStep s o "failed to initialize consumers" .consumers .startHealth todo with
  | mk s₁ pc₁ =>
      rw [hq] at h
      cases h
      exact ⟨rfl, rfl⟩

/-- The call is in a step before `Start` that can return an error. -/
def StartupWithContext.fallible : StartupWithContext → Bool
  | .dial => true
  | .afterConnect => true
  | .producers _ => true
  | .afterProducers => true
  | .consumers _ => true
  | _ => false

theorem StartupWithContext.settingUp_of_fallible {pc : StartupWithContext}
    (h : pc.fallible = true) : pc.settingUp = true := by
  cases pc <;> first | rfl | cases h

/-- The transitions of a `startupWithContext` call. -/
inductive StartupWithContext.Moves (s : Client) (o : Choice) :
    StartupWithContext → Client → StartupWithContext → List Spawn → Prop
  | refuse (e : GoError) : Moves s o .enter s (.returned (some e)) []
  | enter : Moves s o .enter s .publish []
  | publish : Moves s o .publish (s.publishRuntimeContract false false) .dial []
  | dial : Moves s o .dial { s with amqp := s.amqp.dial } (.store s.amqp.dialled) []
  | store (c : ConnId) :
      Moves s o (.store c) { s with connection := some c } (.setReconnectFunc c) []
  | setReconnectFunc (c : ConnId) :
      Moves s o (.setReconnectFunc c) { s with manager := { s.manager with reconnect := true } }
        (.notifyClose c) []
  | notifyClose (c : ConnId) :
      Moves s o (.notifyClose c) { s with amqp := s.amqp.notifyClose c }
        (.setConnectionNotify s.amqp.notifies) []
  | setConnectionNotify (n : ℕ) :
      Moves s o (.setConnectionNotify n)
        { s with manager := { s.manager with connNotify := some n } } .afterConnect []
  | afterConnect : Moves s o .afterConnect s (.producers s.config.initializeProducers) []
  | producer {i : SetupStep} {rest todo : List SetupStep} {s' : Client} :
      i.exec s o = .next s' todo →
        Moves s o (.producers (i :: rest)) s' (.producers (todo ++ rest)) []
  | producersDone : Moves s o (.producers []) s .afterProducers []
  | afterProducers : Moves s o .afterProducers s (.consumers s.config.initializeConsumers) []
  | consumer {i : SetupStep} {rest todo : List SetupStep} {s' : Client} :
      i.exec s o = .next s' todo →
        Moves s o (.consumers (i :: rest)) s' (.consumers (todo ++ rest)) []
  | consumersDone : Moves s o (.consumers []) s .startHealth []
  | abort {pc : StartupWithContext} (f : ℕ → Bool) (e : GoError) :
      pc.fallible = true → s.amqp.StillClosed f →
        Moves s o pc { s with amqp := { s.amqp with chanClosed := f } } (.unpublish e) []
  | panicProducer {i : SetupStep} (rest : List SetupStep) :
      i.opens = true → s.connection = none →
        Moves s o (.producers (i :: rest)) { s with panicked := true } (.returned none) []
  | panicConsumer {i : SetupStep} (rest : List SetupStep) :
      i.opens = true → s.connection = none →
        Moves s o (.consumers (i :: rest)) { s with panicked := true } (.returned none) []
  | startHealth : Moves s o .startHealth s .startManager [.health]
  | startManager :
      Moves s o .startManager (s.setConnected true) .registerShared
        (match s.manager.connNotify, s.manager.reconnect with
          | some n, true => [.watcher n]
          | _, _ => [])
  | registerShared : Moves s o .registerShared s (.checkHealth Client.healthParts) []
  | pass {part : Client.HealthPart} (parts : List Client.HealthPart) : s.checkPart part = none →
      Moves s o (.checkHealth (part :: parts)) s (.checkHealth parts) []
  | healthy : Moves s o (.checkHealth []) s .publishReady []
  | unregistered (e : GoError) : Moves s o .registerShared s (.unpublish e) []
  | unhealthy (parts : List Client.HealthPart) (e : GoError) :
      Moves s o (.checkHealth parts) s (.unpublish e) []
  | publishReady : Moves s o .publishReady (s.publishRuntimeContract true true) (.returned none) []
  | unpublish (e : GoError) :
      Moves s o (.unpublish e) (s.publishRuntimeContract false false) (.returned (some e)) []

theorem StartupWithContext.moves_of_step {s s' : Client} {o : Choice}
    {pc pc' : StartupWithContext} {new : List Spawn} (h : pc.step s o = some (s', pc', new)) :
    pc.Moves s o s' pc' new := by
  cases pc with
  | enter =>
      rw [StartupWithContext.step] at h
      split at h <;> cases h
      · exact .refuse _
      · exact .enter
  | publish => cases h; exact .publish
  | dial =>
      rw [StartupWithContext.step] at h
      split at h
      · cases h
        exact .abort _ _ rfl (.refl s.amqp)
      · rename_i s₁ c hd
        obtain ⟨rfl, rfl⟩ := Client.dial_ok hd
        cases h
        exact .dial
  | store c => cases h; exact .store c
  | setReconnectFunc c => cases h; exact .setReconnectFunc c
  | notifyClose c => cases h; exact .notifyClose c
  | setConnectionNotify n => cases h; exact .setConnectionNotify n
  | afterConnect =>
      rw [StartupWithContext.step] at h
      split at h <;> cases h
      · exact .abort _ _ rfl (.refl s.amqp)
      · exact .afterConnect
  | producers todo =>
      obtain ⟨hq, rfl⟩ := StartupWithContext.step_producers h
      rcases setupStep_cases hq with ⟨rfl, rfl, rfl⟩ | ⟨i, rest, todo', rfl, hi, rfl⟩ |
        ⟨f, e, hcl, rfl, rfl⟩ | ⟨i, rest, rfl, hi, hc, rfl, rfl⟩
      · exact .producersDone
      · exact .producer hi
      · exact .abort f e rfl hcl
      · exact .panicProducer rest hi hc
  | afterProducers =>
      rw [StartupWithContext.step] at h
      split at h <;> cases h
      · exact .abort _ _ rfl (.refl s.amqp)
      · exact .afterProducers
  | consumers todo =>
      obtain ⟨hq, rfl⟩ := StartupWithContext.step_consumers h
      rcases setupStep_cases hq with ⟨rfl, rfl, rfl⟩ | ⟨i, rest, todo', rfl, hi, rfl⟩ |
        ⟨f, e, hcl, rfl, rfl⟩ | ⟨i, rest, rfl, hi, hc, rfl, rfl⟩
      · exact .consumersDone
      · exact .consumer hi
      · exact .abort f e rfl hcl
      · exact .panicConsumer rest hi hc
  | startHealth => cases h; exact .startHealth
  | startManager => cases h; exact .startManager
  | registerShared =>
      rw [StartupWithContext.step] at h
      split at h <;> cases h
      · exact .unregistered _
      · exact .registerShared
  | checkHealth parts =>
      cases parts with
      | nil => cases h; exact .healthy
      | cons part parts =>
          rw [StartupWithContext.step] at h
          split at h <;> cases h
          · exact .unhealthy _ _
          · exact .pass parts ‹_›
  | publishReady => cases h; exact .publishReady
  | unpublish e => cases h; exact .unpublish e
  | returned err => cases h

/-- The transitions of a `cleanupWithContext` call. -/
inductive CleanupWithContext.Moves (s : Client) (o : Choice) :
    CleanupWithContext → Client → CleanupWithContext → Prop
  | cancel : Moves s o .enter s .canceled
  | enter : Moves s o .enter s .publish
  | publish : Moves s o .publish (s.publishRuntimeContract false false) .setClosed
  | setClosed : Moves s o .setClosed { s with closed := true } .closeCloseChan
  | closeCloseChan : Moves s o .closeCloseChan { s with closeChanClosed := true } .stopHealth
  | stopHealth :
      Moves s o .stopHealth
        { s with health := { s.health with stopChanClosed := true, stopped := true } } .stopManager
  | stopManager :
      Moves s o .stopManager
        { s with manager := { s.manager with connected := false, stopped := true } }
        (if s.manager.stopped then .waitSubscriptions else .closeStopChan)
  | closeStopChan :
      Moves s o .closeStopChan { s with manager := { s.manager with stopChanClosed := true } }
        .waitSubscriptions
  | waitSubscriptions : s.subscriptionWG = 0 → Moves s o .waitSubscriptions s .waitPool
  | waitPool : Moves s o .waitPool s .closeConsumers
  | closeConsumers :
      Moves s o .closeConsumers { s with amqp := s.amqp.closeAll s.consumers, consumers := ∅ }
        .closeProducers
  | closeProducers :
      Moves s o .closeProducers { s with amqp := s.amqp.closeAll s.producers, producers := ∅ }
        .closeConnection
  | noConnection : s.connection = none → Moves s o .closeConnection s (.returned none)
  | alreadyClosed {c : ConnId} (e : GoError) : s.connection = some c → s.amqp.closed c = true →
      Moves s o .closeConnection s (.returned (some e))
  | closeFails {c : ConnId} (e : GoError) : s.connection = some c → s.amqp.closed c = false →
      Moves s o .closeConnection { s with amqp := s.amqp.shutdown c } (.returned (some e))
  | close {c : ConnId} : s.connection = some c → s.amqp.closed c = false → o.err = none →
      Moves s o .closeConnection { s with amqp := s.amqp.shutdown c, connection := none }
        (.returned none)

theorem CleanupWithContext.moves_of_step {s s' : Client} {o : Choice} {pc pc' : CleanupWithContext}
    (h : pc.step s o = some (s', pc')) : pc.Moves s o s' pc' := by
  cases pc with
  | enter =>
      rw [CleanupWithContext.step] at h
      split at h <;> cases h
      · exact .cancel
      · exact .enter
  | publish => cases h; exact .publish
  | setClosed => cases h; exact .setClosed
  | closeCloseChan => cases h; exact .closeCloseChan
  | stopHealth => cases h; exact .stopHealth
  | stopManager => cases h; exact .stopManager
  | closeStopChan => cases h; exact .closeStopChan
  | waitSubscriptions =>
      rw [CleanupWithContext.step] at h
      split_ifs at h
      cases h
      exact .waitSubscriptions ‹_›
  | waitPool => cases h; exact .waitPool
  | closeConsumers => cases h; exact .closeConsumers
  | closeProducers => cases h; exact .closeProducers
  | closeConnection =>
      rw [CleanupWithContext.step] at h
      split at h
      · cases h; exact .noConnection ‹_›
      · rename_i c hc
        split_ifs at h with ho
        · cases h; exact .alreadyClosed _ hc ho
        · split at h <;> cases h
          · exact .closeFails _ hc (by simpa using ho)
          · exact .close hc (by simpa using ho) ‹_›
  | canceled => cases h
  | returned err => cases h

/-! ### Goroutines -/

/-- The transitions of a goroutine are those of the routine it is in. -/
inductive Thread.Moves (s : Client) (o : Choice) :
    Thread → Client → Thread → List Thread → Prop
  | watcher {pc pc' : WatchConnection} {s' : Client} {new : List Spawn} :
      pc.Moves s o s' pc' new → Moves s o (.watcher pc) s' (.watcher pc') (new.map Spawn.thread)
  | force {pc pc' : ForceReconnect} {s' : Client} {new : List Spawn} :
      pc.Moves s o s' pc' new → Moves s o (.force pc) s' (.force pc') (new.map Spawn.thread)
  | subscribe (id : ℕ) {pc pc' : SubscribeCall} {s' : Client} {new : List Spawn} :
      pc.Moves s o id s' pc' new →
        Moves s o (.subscribe id pc) s' (.subscribe id pc') (new.map Spawn.thread)
  | loop (l : Loop) {pc pc' : LoopPc} {s' : Client} :
      pc.Moves s l s' pc' → Moves s o (.loop l pc) s' (.loop l pc') []
  | cleanup {pc pc' : CleanupWithContext} {s' : Client} :
      pc.Moves s o s' pc' → Moves s o (.cleanup pc) s' (.cleanup pc') []
  | startup {pc pc' : StartupWithContext} {s' : Client} {new : List Spawn} :
      pc.Moves s o s' pc' new → Moves s o (.startup pc) s' (.startup pc') (new.map Spawn.thread)
  | health {pc pc' : HealthRun} {s' : Client} :
      pc.step s o = some (s', pc') → Moves s o (.health pc) s' (.health pc') []

theorem Thread.moves_of_step {s s' : Client} {t t' : Thread} {o : Choice} {new : List Thread}
    (h : t.step s o = some (s', t', new)) : t.Moves s o s' t' new := by
  cases t <;> obtain ⟨q, hq, he⟩ := Option.map_eq_some_iff.1 h <;> cases he
  · exact .watcher (WatchConnection.moves_of_step hq)
  · exact .force (ForceReconnect.moves_of_step hq)
  · exact .subscribe _ (SubscribeCall.moves_of_step hq)
  · exact .loop _ (LoopPc.moves_of_step hq)
  · exact .cleanup (CleanupWithContext.moves_of_step hq)
  · exact .startup (StartupWithContext.moves_of_step hq)
  · exact .health hq

/-- **The transitions of the system.**  A goroutine takes a step, between the
goroutines `l` before it and `r` after it; the broker drops a connection; a call
is made; a context is cancelled. -/
inductive Moves (p : State) : Action → State → Prop
  | run {i : ℕ} {o : Choice} {l r new : List Thread} {t t' : Thread} {s' : Client} :
      p.threads = l ++ t :: r → p.threads[i]? = some t → t.Moves p.shared o s' t' new →
        l.length = i → Moves p (.run i o) ⟨s', l ++ t' :: r ++ new⟩
  | drop {c : ConnId} : c < p.shared.amqp.dialled → p.shared.amqp.closed c = false →
      Moves p (.drop c) ⟨{ p.shared with amqp := p.shared.amqp.drop c }, p.threads⟩
  | call (k : Call) : Moves p (.call k) ⟨p.shared, p.threads ++ [k.thread p.threads.length]⟩
  | cancel (id : ℕ) :
      Moves p (.cancel id)
        ⟨{ p.shared with cancelled := Function.update p.shared.cancelled id true }, p.threads⟩

/-- A step of a goroutine, with what its program computes. -/
theorem step_run_focus {p p' : State} {i : ℕ} {o : Choice} (h : step p (.run i o) = some p') :
    ∃ l t r s' t' new, p.threads = l ++ t :: r ∧ l.length = i ∧ p.threads[i]? = some t ∧
      t.step p.shared o = some (s', t', new) ∧ p' = ⟨s', l ++ t' :: r ++ new⟩ := by
  unfold step at h
  split at h
  · cases h
  · exact Pool.step_focus h

/-- Such a step is a step of the system while the process is there. -/
theorem step_of_focus {p : State} {o : Choice} {l r new : List Thread} {t t' : Thread}
    {s' : Client} (halive : p.shared.panicked = false) (hl : p.threads = l ++ t :: r)
    (h : t.step p.shared o = some (s', t', new)) :
    step p (.run l.length o) = some ⟨s', l ++ t' :: r ++ new⟩ := by
  unfold step
  rw [halive, if_neg Bool.false_ne_true]
  exact Pool.step_of_focus hl h

theorem moves_of_step {p p' : State} {a : Action} (h : step p a = some p') :
    p.shared.panicked = false ∧ Moves p a p' := by
  unfold step at h
  split at h
  · cases h
  · rename_i hp
    refine ⟨by simpa using hp, ?_⟩
    cases a with
    | run i o =>
        obtain ⟨l, t, r, s', t', new, hl, hn, ht, ha, rfl⟩ := Pool.step_focus h
        exact .run hl ht (Thread.moves_of_step ha) hn
    | drop c =>
        simp only [Option.ite_none_right_eq_some, Option.some.injEq] at h
        obtain ⟨⟨hc, ho⟩, rfl⟩ := h
        exact .drop hc ho
    | call k =>
        obtain rfl := Option.some.inj h
        exact .call k
    | cancel id =>
        obtain rfl := Option.some.inj h
        exact .cancel id

end LynxRabbit
