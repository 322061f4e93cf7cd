/-
# A `Subscribe` call that fails

`subscribeWithChannel` appends the subscription to `r.subscriptions` before it calls
`startDispatchLoop`, and nothing takes it out again when that fails.  The caller is
told that there is no subscription, and the next rebuild starts a dispatch loop for
it.

The call is followed from its start to its return, alone, under the answers of the
broker.  It leaves no trace when validation or lookup refuse it, which comes before
the append; once it has appended, it leaves none to complain about only when
`startDispatchLoop` succeeds.
-/

import LynxRabbit.Subscriptions.Calls

namespace LynxRabbit

open Runs

/-- The call is `Subscribe` or `SubscribeWith`. -/
def Call.subscribes : Call → Bool
  | .subscribe _ _ => true
  | .subscribeWith _ _ _ => true
  | _ => false

/-- The call is made in `p` and its goroutine takes the steps `os`, alone. -/
def subscribeAlone (p : State) (k : Call) (os : List Choice) : Option State :=
  replay step always p (.call k :: os.map (.run p.threads.length))

/-- Between `p`, in which the next call gets number `p.threads.length`, and `q`,
after that call: `r.subscriptions` is what it was, and in no later run is there a
dispatch loop of the call. -/
structure NoTrace (p q : State) : Prop where
  subscriptions : q.shared.subscriptions = p.shared.subscriptions
  never : ∀ r, Run step always q r → ∀ l pc, .loop l pc ∈ r.threads →
    l.sub.id ≠ p.threads.length

/-- The consumer name the call looks up; `Subscribe` takes the first entry its
`range` meets. -/
def Call.consumerName? (o : Choice) : Call → Option String
  | .subscribe _ _ => o.first
  | .subscribeWith name _ _ => some name
  | _ => none

/-- Validation or lookup refuse the call. -/
def Call.refused (s : Client) (o : Choice) (k : Call) : Bool :=
  (match k with
    | .subscribeWith _ queue _ => (validateQueue queue).isSome
    | _ => false) ||
    !(k.consumerName? o).any s.isConsumerReady

/-- The stored connection gives an open channel, and the broker answers without an
error to `Channel()`, to `Qos` if the consumer has a prefetch count, and to
`Consume`. -/
def Client.accepts (s : Client) (name : String) (answers : List Choice) : Bool :=
  s.connection.any (fun c => s.amqp.chanOpen ⟨s.amqp.channels, c⟩) &&
    (answers.take (if (s.config.dispatchSettings name).2 > 0 then 3 else 2)).all fun o =>
      o.err.isNone

/-- What the call needs to leave no trace behind an error: it is refused, or
`startDispatchLoop` succeeds and there is no error.  The first choice is the
lookup's; the append and the read of the connection take two more, and then come
the broker's answers. -/
def Call.clean (s : Client) (k : Call) : List Choice → Bool
  | [] => false
  | o :: os => k.refused s o || (k.consumerName? o).any fun name => s.accepts name (os.drop 2)

/-! ### The call alone -/

/-- A step of a goroutine in a `Subscribe` call. -/
theorem step_call {s : Client} {ts rest : List Thread} {pc : SubscribeCall} {id : ℕ} {o : Choice}
    {q : State} (h : step ⟨s, ts ++ .subscribe id pc :: rest⟩ (.run ts.length o) = some q) :
    ∃ s' pc' new, pc.step s o id = some (s', pc', new) ∧
      q = ⟨s', ts ++ .subscribe id pc' :: (rest ++ new.map Spawn.thread)⟩ := by
  have hix : (ts ++ .subscribe id pc :: rest)[ts.length]? = some (.subscribe id pc) := by simp
  unfold step at h
  split at h
  · cases h
  · simp only [Pool.step, hix] at h
    obtain ⟨⟨s', t', new⟩, ht, rfl⟩ := Option.map_eq_some_iff.1 h
    obtain ⟨⟨s₁, pc', sp⟩, hpc, he⟩ := Option.map_eq_some_iff.1 ht
    cases he
    refine ⟨s₁, pc', sp, hpc, ?_⟩
    simp

/-- Where a call ends: it has returned `err`, with no step left. -/
theorem replay_returned {s : Client} {ts rest : List Thread} {id : ℕ} {err : Option GoError}
    {os : List Choice} {q : State}
    (h : replay step always ⟨s, ts ++ .subscribe id (.returned err) :: rest⟩
      (os.map (.run ts.length)) = some q) :
    q = ⟨s, ts ++ .subscribe id (.returned err) :: rest⟩ := by
  cases os with
  | nil => exact (Option.some.inj h).symm
  | cons o os =>
      obtain ⟨q₁, hq₁, -⟩ := Option.bind_eq_some_iff.1 h
      obtain ⟨s', pc', new, hpc, -⟩ := step_call hq₁
      cases hpc

/-- What is still needed for a `startDispatchLoop` at `d` to succeed under the
answers `os` of its remaining steps. -/
def DispatchStep.succeeds (s : Client) (name : String) : DispatchStep → List Choice → Bool
  | .liveConnection, os => s.accepts name (os.drop 1)
  | .openChannel c, os =>
    s.amqp.chanOpen ⟨s.amqp.channels, c⟩ &&
      (os.take (if (s.config.dispatchSettings name).2 > 0 then 3 else 2)).all fun o => o.err.isNone
  | .qos ch, os => s.amqp.chanOpen ch && (os.take 2).all fun o => o.err.isNone
  | .consume ch, os => s.amqp.chanOpen ch && (os.take 1).all fun o => o.err.isNone
  | .start _, _ => true

theorem Broker.isNone_callErr (b : Broker) (ch : Channel) (o : Choice) :
    (b.callErr ch o).isNone = (b.chanOpen ch && o.err.isNone) := by
  unfold Broker.callErr
  cases b.chanOpen ch <;> rfl

/-- The first of the answers a request on `ch` waits for. -/
theorem Broker.chanOpen_and_all_cons (b : Broker) (ch : Channel) (o : Choice) (os : List Choice)
    (n : ℕ) :
    (b.chanOpen ch && ((o :: os).take (n + 1)).all fun o => o.err.isNone) =
      ((b.callErr ch o).isNone && (os.take n).all fun o => o.err.isNone) := by
  rw [List.take_succ_cons, List.all_cons, ← Bool.and_assoc, Broker.isNone_callErr]

/-- A step that goes on leaves the rest of the answers to decide. -/
theorem DispatchStep.succeeds_of_exec {s s' : Client} {o : Choice} {os : List Choice}
    {ctx : Option ℕ} {rb : Option ConnId} {sub : Subscription} {d d' : DispatchStep}
    (h : d.exec s o ctx rb sub = .next s' (.inl d')) :
    d.succeeds s sub.consumerName (o :: os) = d'.succeeds s' sub.consumerName os := by
  cases DispatchStep.executes_of_exec h with
  | live hc ho => simp [DispatchStep.succeeds, Client.accepts, hc]
  | opened ho he => split_ifs with hpre <;> simp [DispatchStep.succeeds, hpre, he, Broker.chanOpen]
  | qos hok =>
      rw [DispatchStep.succeeds, Broker.chanOpen_and_all_cons, hok, DispatchStep.succeeds,
        Broker.callErr_none hok]
      rfl
  | consume hok =>
      rw [DispatchStep.succeeds, Broker.chanOpen_and_all_cons, hok]
      rfl

theorem DispatchStep.not_succeeds_of_fail {s s' : Client} {o : Choice} {os : List Choice}
    {ctx : Option ℕ} {rb : Option ConnId} {sub : Subscription} {d : DispatchStep} {e : GoError}
    (h : d.exec s o ctx rb sub = .fail s' e) :
    d.succeeds s sub.consumerName (o :: os) = false := by
  cases DispatchStep.executes_of_exec h with
  | noConnection hc => simp [DispatchStep.succeeds, Client.accepts, hc]
  | deadConnection hc ho => simp [DispatchStep.succeeds, Client.accepts, hc, Broker.chanOpen, ho]
  | refused text hr =>
      rw [DispatchStep.succeeds]
      rcases hr with ho | he
      · simp [Broker.chanOpen, ho]
      · split_ifs <;> simp [Option.isSome_iff_ne_none.1 he]
  | qosFails hb =>
      rw [DispatchStep.succeeds, Broker.chanOpen_and_all_cons, hb]
      rfl
  | consumeFails hb =>
      rw [DispatchStep.succeeds, Broker.chanOpen_and_all_cons, hb]
      rfl

/-- **A call behind its append** leaves `r.subscriptions` alone, and returns nil
exactly when `startDispatchLoop` succeeds. -/
theorem dispatch_alone {ts : List Thread} {id : ℕ} {sub : Subscription} {q : State}
    {err : Option GoError} (hret : q.threads[ts.length]? = some (.subscribe id (.returned err))) :
    ∀ {os : List Choice} {s : Client} {d : DispatchStep} {rest : List Thread},
      replay step always ⟨s, ts ++ .subscribe id (.dispatch sub d) :: rest⟩
        (os.map (.run ts.length)) = some q →
      q.shared.subscriptions = s.subscriptions ∧
        (err = none ↔ d.succeeds s sub.consumerName os = true) := by
  have hat : ∀ {s pc rest}, q = ⟨s, ts ++ .subscribe id pc :: rest⟩ → pc = .returned err := by
    rintro s pc rest rfl
    simpa using hret
  intro os
  induction os with
  | nil =>
      intro s d rest h
      cases hat (Option.some.inj h).symm
  | cons o os ih =>
      intro s d rest h
      obtain ⟨q₁, hq₁, hrest⟩ := Option.bind_eq_some_iff.1 h
      obtain ⟨s', pc', new, hpc, rfl⟩ := step_call hq₁
      rw [SubscribeCall.step] at hpc
      split at hpc <;> cases hpc
      · rename_i d' hd
        obtain ⟨hsubs, hiff⟩ := ih hrest
        obtain ⟨⟨n, rfl⟩, -⟩ := DispatchStep.exec_inl hd
        rw [DispatchStep.succeeds_of_exec hd]
        exact ⟨hsubs, hiff⟩
      · rename_i l hd
        have hq := replay_returned hrest
        obtain ⟨rfl, rfl, -⟩ := DispatchStep.exec_inr hd
        cases hat hq
        exact ⟨congrArg (·.shared.subscriptions) hq, iff_of_true rfl rfl⟩
      · rename_i e hd
        have hq := replay_returned hrest
        rw [DispatchStep.not_succeeds_of_fail hd]
        obtain ⟨f, -, rfl⟩ := DispatchStep.exec_fail hd
        cases hat hq
        exact ⟨congrArg (·.shared.subscriptions) hq, by simp⟩
      · exact absurd ‹_› DispatchStep.exec_ne_panic

/-- **The lookup**: the call is refused, or goes on to record a subscription for
the consumer it has found. -/
theorem lookup_alone {s s' : Client} {k : Call} {id : ℕ} {pc pc' : SubscribeCall} {o : Choice}
    {new : List Spawn} (hk : k.thread id = .subscribe id pc)
    (h : pc.step s o id = some (s', pc', new)) :
    s' = s ∧ new = [] ∧
      ((k.refused s o = true ∧ ∃ e, pc' = .returned (some e)) ∨
        (k.refused s o = false ∧
          ∃ sub, pc' = .record sub ∧ k.consumerName? o = some sub.consumerName)) := by
  cases k with
  | subscribe queue handler =>
      cases hk
      rw [SubscribeCall.step] at h
      split at h
      · rename_i name hname
        split at h <;> cases h
        · rename_i hl
          refine ⟨rfl, rfl, .inl ⟨?_, _, rfl⟩⟩
          simp [Call.refused, Call.consumerName?, hname, Client.isConsumerReady, hl]
        · rename_i ch hl
          refine ⟨rfl, rfl, .inr ⟨?_, _, rfl, hname⟩⟩
          simp [Call.refused, Call.consumerName?, hname, Client.isConsumerReady, hl]
      · rename_i hname
        split_ifs at h
        cases h
        refine ⟨rfl, rfl, .inl ⟨?_, _, rfl⟩⟩
        simp [Call.refused, Call.consumerName?, hname]
  | subscribeWith name queue handler =>
      cases hk
      rw [SubscribeCall.step] at h
      split at h
      · rename_i e hq
        cases h
        refine ⟨rfl, rfl, .inl ⟨?_, _, rfl⟩⟩
        simp [Call.refused, hq]
      · rename_i hq
        split at h <;> cases h
        · rename_i hl
          refine ⟨rfl, rfl, .inl ⟨?_, _, rfl⟩⟩
          simp [Call.refused, Call.consumerName?, hq, Client.isConsumerReady, hl]
        · rename_i hl
          refine ⟨rfl, rfl, .inl ⟨?_, _, rfl⟩⟩
          simp [Call.refused, Call.consumerName?, hq, Client.isConsumerReady, hl]
        · rename_i ch hl
          refine ⟨rfl, rfl, .inr ⟨?_, _, rfl, rfl⟩⟩
          simp [Call.refused, Call.consumerName?, hq, Client.isConsumerReady, hl]
  | _ => cases hk

theorem Call.thread_of_subscribes {k : Call} (hk : k.subscribes = true) (id : ℕ) :
    ∃ pc, k.thread id = .subscribe id pc ∧ pc.looking = true := by
  cases k with
  | subscribe queue handler => exact ⟨_, rfl, rfl⟩
  | subscribeWith name queue handler => exact ⟨_, rfl, rfl⟩
  | _ => cases hk

/-- **The whole call.**  It is refused and nothing has changed, or it has appended
its subscription and returns nil exactly when `startDispatchLoop` succeeds. -/
theorem subscribeAlone_cases {p q : State} {k : Call} {os : List Choice} {err : Option GoError}
    (hk : k.subscribes = true) (h : subscribeAlone p k os = some q)
    (hret : q.threads[p.threads.length]? = some (.subscribe p.threads.length (.returned err))) :
    ∃ o rest, os = o :: rest ∧
      ((k.refused p.shared o = true ∧ err ≠ none ∧
          q = ⟨p.shared, p.threads ++ [.subscribe p.threads.length (.returned err)]⟩) ∨
        (k.refused p.shared o = false ∧ ∃ sub, k.consumerName? o = some sub.consumerName ∧
          q.shared.subscriptions = p.shared.subscriptions ++ [sub] ∧
          (err = none ↔ p.shared.accepts sub.consumerName (rest.drop 2) = true))) := by
  obtain ⟨pc, hpc, hlook⟩ := k.thread_of_subscribes hk p.threads.length
  have hat : ∀ {s pc rest}, q = ⟨s, p.threads ++ .subscribe p.threads.length pc :: rest⟩ →
      pc = .returned err := by
    rintro s pc rest rfl
    simpa using hret
  obtain ⟨p₁, hp₁, hrun⟩ := Option.bind_eq_some_iff.1 h
  obtain rfl : p₁ = ⟨p.shared, p.threads ++ [.subscribe p.threads.length pc]⟩ := by
    unfold step at hp₁
    split at hp₁
    · cases hp₁
    · rw [← hpc]
      exact (Option.some.inj hp₁).symm
  cases os with
  | nil =>
      rw [hat (Option.some.inj hrun).symm] at hlook
      cases hlook
  | cons o rest =>
      refine ⟨o, rest, rfl, ?_⟩
      obtain ⟨q₁, hq₁, hrest⟩ := Option.bind_eq_some_iff.1 hrun
      obtain ⟨s', pc', new, hstep, rfl⟩ := step_call hq₁
      obtain ⟨rfl, rfl, ⟨href, e, rfl⟩ | ⟨href, sub, rfl, hname⟩⟩ := lookup_alone hpc hstep
      · have hq := replay_returned hrest
        cases hat hq
        exact .inl ⟨href, Option.some_ne_none e, hq⟩
      · refine .inr ⟨href, sub, hname, ?_⟩
        cases rest with
        | nil => cases hat (Option.some.inj hrest).symm
        | cons o₁ rest =>
            obtain ⟨q₂, hq₂, hrest₂⟩ := Option.bind_eq_some_iff.1 hrest
            obtain ⟨s₂, pc₂, new₂, hstep₂, rfl⟩ := step_call hq₂
            cases hstep₂
            exact dispatch_alone hret hrest₂

/-! ### A call that left nothing behind -/

/-- Call `n` was made, and no subscription of it is anywhere or to come. -/
structure Absent (n : ℕ) (p : State) : Prop where
  made : n < p.threads.length
  subs : Within (fun sub => sub.id ≠ n) p
  settled : ∀ t ∈ p.threads, t.looksFor n = false

/-- **What is absent stays absent.** -/
theorem Absent.step {n : ℕ} {p p' : State} {a : Action} (hi : Absent n p) (h : Moves p a p') :
    Absent n p' := by
  refine ⟨hi.made.trans_le h.length_le, hi.subs.step h fun t ht sub hf he => ?_, ?_⟩
  · have := hf.looksFor
    rw [he, hi.settled t ht] at this
    cases this
  · cases h with
    | run hl hix ht =>
        exact forall_focus (hl ▸ hi.settled) (fun u _ hu => hu) (ht.looksFor n).1 (ht.looksFor n).2
    | call k =>
        refine List.forall_mem_append.2 ⟨hi.settled, List.forall_mem_singleton.2 ?_⟩
        by_contra hlook
        exact hi.made.ne (Call.looksFor_thread (by simpa using hlook))
    | drop hc ho => exact hi.settled
    | cancel id => exact hi.settled

/-- A call that has returned and recorded nothing is absent. -/
theorem absent_of_returned {p : State} (hp : Allocated p) (err : Option GoError) :
    Absent p.threads.length
      ⟨p.shared, p.threads ++ [.subscribe p.threads.length (.returned err)]⟩ := by
  refine ⟨by simp, ⟨fun sub hs => (hp.subs.recorded sub hs).ne, ?_⟩, ?_⟩
  · refine List.forall_mem_append.2 ⟨fun t ht sub hs => (hp.subs.held t ht sub hs).ne, ?_⟩
    exact List.forall_mem_singleton.2 fun sub hs => by cases hs
  · refine List.forall_mem_append.2 ⟨fun t ht => ?_, List.forall_mem_singleton.2 ?_⟩
    · by_contra hlook
      exact absurd (hp.calls t ht _ (by simpa using hlook)) (Nat.lt_irrefl _)
    · exact Bool.and_false _

/-- **A failed `Subscribe` leaves no trace exactly when it is refused before the
append.**  For every state in which the numbers of the calls are below that of the
next one, every `Subscribe` or `SubscribeWith` call that runs alone and returns
`err`, under any answers: an error leaves no trace if and only if the call is
refused by validation or lookup, or `startDispatchLoop` succeeds and there is no
error. -/
theorem failed_subscribe_leaves_no_trace_iff (p q : State) (hp : Allocated p) (k : Call)
    (hk : k.subscribes = true) (os : List Choice) (err : Option GoError)
    (h : subscribeAlone p k os = some q)
    (hret : q.threads[p.threads.length]? =
      some (.subscribe p.threads.length (.returned err))) :
    (err ≠ none → NoTrace p q) ↔ k.clean p.shared os = true := by
  obtain ⟨o, rest, rfl, ⟨href, -, rfl⟩ | ⟨href, sub, hname, hsubs, herr⟩⟩ :=
    subscribeAlone_cases hk h hret
  · refine iff_of_true (fun _ => ⟨rfl, fun r hr l pc hl => ?_⟩) (by rw [Call.clean, href]; rfl)
    have hi := hr.invariant (I := Absent p.threads.length) (absent_of_returned hp err)
      fun _ _ _ hi _ h => hi.step (moves_of_step h).2
    exact hi.subs.held _ hl l.sub (List.mem_singleton_self _)
  · rw [Call.clean, href, hname, Option.any_some, Bool.false_or, ← herr]
    refine ⟨fun hno => ?_, fun he hne => absurd he hne⟩
    by_contra hne
    have hsame := (hno hne).subscriptions
    rw [hsubs] at hsame
    exact absurd hsame (by simp)

/-- `SubscribeWith` for a consumer that does not exist. -/
theorem failed_subscribe_leaves_no_trace_unknown :
    ∃ p q : State, Run step always (fresh defaultRabbitMQConfig) p ∧
      subscribeAlone p (.subscribeWith "nobody" "lynx.queue" 0) [.ok] = some q ∧
      NoTrace p q := by
  obtain ⟨p, hr, hp⟩ := exists_run_of_replay step always (fresh defaultRabbitMQConfig)
    (fun p => p.threads.length == 3 && (subscribeAlone p (.subscribeWith "nobody" "lynx.queue" 0)
      [.ok]).any fun q => q.threads[3]? == some (.subscribe 3 (.returned
        (some (wrapError (.var .consumerNotFound) "consumer: nobody")))) &&
          Call.clean p.shared (.subscribeWith "nobody" "lynx.queue" 0) [.ok])
    boot (by decide)
  simp only [Bool.and_eq_true, beq_iff_eq, Option.any_eq_true] at hp
  obtain ⟨hlen, q, hq, hret, hclean⟩ := hp
  have hall : Allocated p := hr.invariant (allocated_fresh defaultRabbitMQConfig)
    fun _ _ _ hi _ h => hi.step (moves_of_step h).2
  rw [← hlen] at hret
  exact ⟨p, q, hr, hq, (failed_subscribe_leaves_no_trace_iff p q hall _ rfl _ _ hq hret).2 hclean
    (Option.some_ne_none _)⟩

/-- **A call that failed, and its handler.**  Connection 0 is dead and the watcher
has not noticed; `SubscribeWith` appends its subscription and returns
`ErrConsumerNotReady`.  The reconnect that follows starts a loop for it, which
handles a delivery. -/
theorem failed_subscribe_invoked :
    ∃ p q r : State, Run step supervised (fresh defaultRabbitMQConfig) p ∧
      subscribeAlone p (.subscribeWith "default-consumer" "lynx.queue" 0) [.ok, .ok, .ok] =
        some q ∧
      q.threads[p.threads.length]? =
        some (.subscribe p.threads.length (.returned (some (.var .consumerNotReady)))) ∧
      q.shared.subscriptions ≠ p.shared.subscriptions ∧ Run step supervised q r ∧
      ∃ l, .loop l .handling ∈ r.threads ∧ l.sub.id = p.threads.length := by
  obtain ⟨p, hr, hp⟩ := exists_run_of_replay step supervised (fresh defaultRabbitMQConfig)
    (fun p => p.threads.length == 3 && p.shared.subscriptions == [] &&
      (subscribeAlone p (.subscribeWith "default-consumer" "lynx.queue" 0)
        [.ok, .ok, .ok]).any fun q => q.threads[3]? == some (.subscribe 3 (.returned
          (some (.var .consumerNotReady)))) && !q.shared.subscriptions.isEmpty &&
          (replay step supervised q (solo 2 22 ++ solo 4 1)).any fun r => r.threads.contains
            (.loop ⟨⟨3, "default-consumer", "lynx.queue", 0⟩, ⟨4, 1⟩, false, none, some 1⟩
              .handling))
    (boot ++ [.drop 0]) (by decide)
  simp only [Bool.and_eq_true, beq_iff_eq, Option.any_eq_true, Bool.not_eq_true'] at hp
  obtain ⟨⟨hlen, hbefore⟩, q, hq, ⟨hret, hafter⟩, r, hrun, hloop⟩ := hp
  refine ⟨p, q, r, hr, hq, by rw [hlen]; exact hret, fun he => ?_, .of_replay .refl hrun, _,
    List.contains_iff_mem.1 hloop, hlen.symm⟩
  rw [he, hbefore] at hafter
  cases hafter

end LynxRabbit
