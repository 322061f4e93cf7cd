/-
# `Subscribe` against `SubscribeWith`

Both end in `subscribeWithChannel` and guard it on their own.  `SubscribeWith`
validates the queue name, looks its consumer up, and wraps `ErrConsumerNotReady`
with the consumer's name.  `Subscribe` takes the first entry of a `range` over the
map, does not validate the queue, and returns `ErrConsumerNotReady` as it is.

The two calls are made in the same state, with the `range` of `Subscribe` meeting
the consumer `SubscribeWith` is given, and run alone under the same answers.
`subscribes_agree_iff` says when nothing tells them apart: exactly when the queue
name is valid and the consumer's channel is there.
-/

import LynxRabbit.Subscriptions.Failed

namespace LynxRabbit

open Runs

/-- The goroutine of the call is about to ask the broker to consume. -/
def Thread.asksToConsume : Thread → Bool
  | .subscribe _ (.dispatch _ (.consume _)) => true
  | _ => false

/-- For the consumer `n`: both calls go through the same states, whatever the broker
answers, and neither records a queue name that `validateQueue` refuses or asks the
broker to consume from it. -/
structure SubscribesAgree (p : State) (n queue : String) (handler : Handler) : Prop where
  same : ∀ os, subscribeAlone p (.subscribe queue handler) (.pick n :: os) =
    subscribeAlone p (.subscribeWith n queue handler) (.pick n :: os)
  refused : validateQueue queue ≠ none →
    ∀ k ∈ [Call.subscribe queue handler, Call.subscribeWith n queue handler], ∀ os q,
      subscribeAlone p k (.pick n :: os) = some q →
        q.shared.subscriptions = p.shared.subscriptions ∧
          q.threads[p.threads.length]?.any Thread.asksToConsume = false

/-- **The first step of a call**, and the rest of it. -/
theorem subscribeAlone_cons {p : State} {k : Call} {pc : SubscribeCall} {o : Choice}
    (os : List Choice) (halive : p.shared.panicked = false)
    (hk : k.thread p.threads.length = .subscribe p.threads.length pc) :
    subscribeAlone p k (o :: os) =
      (pc.step p.shared o p.threads.length).bind fun q =>
        replay step always
          ⟨q.1, p.threads ++ .subscribe p.threads.length q.2.1 :: q.2.2.map Spawn.thread⟩
          (os.map (.run p.threads.length)) := by
  have hcall : step p (.call k) =
      some ⟨p.shared, p.threads ++ [.subscribe p.threads.length pc]⟩ := by
    unfold step
    rw [halive, ← hk]
    rfl
  have hix : (p.threads ++ [Thread.subscribe p.threads.length pc])[p.threads.length]? =
      some (.subscribe p.threads.length pc) := by simp
  have hrun : step ⟨p.shared, p.threads ++ [.subscribe p.threads.length pc]⟩
      (.run p.threads.length o) =
      (pc.step p.shared o p.threads.length).map fun q =>
        ⟨q.1, p.threads ++ .subscribe p.threads.length q.2.1 :: q.2.2.map Spawn.thread⟩ := by
    unfold step
    simp only [halive, Bool.false_eq_true, if_false, Pool.step, hix, Thread.step, Option.map_map]
    congr 1
    funext q
    simp
  rw [subscribeAlone, replay_always, hcall, Option.bind_some, List.map_cons, replay_always, hrun]
  cases pc.step p.shared o p.threads.length <;> rfl

/-- The lookup of `Subscribe`, with a `range` that meets `n` first. -/
theorem step_lookup_pick {s : Client} {n queue : String} {handler : Handler} {id : ℕ}
    (hn : n ∈ s.consumers) :
    (SubscribeCall.lookup queue handler).step s (.pick n) id =
      some (s, if s.isConsumerReady n then .record ⟨id, n, queue, handler⟩
        else .returned (some (.var .consumerNotReady)), []) := by
  obtain ⟨v, hv⟩ := Option.isSome_iff_exists.1 (AList.lookup_isSome.2 hn)
  cases v <;> simp [SubscribeCall.step, Choice.first, Client.isConsumerReady, hv]

/-- The lookup of `SubscribeWith` for a name in the map. -/
theorem step_lookupWith {s : Client} {o : Choice} {n queue : String} {handler : Handler} {id : ℕ}
    (hn : n ∈ s.consumers) (hq : validateQueue queue = none) :
    (SubscribeCall.lookupWith n queue handler).step s o id =
      some (s, if s.isConsumerReady n then .record ⟨id, n, queue, handler⟩
        else .returned (some (wrapError (.var .consumerNotReady) ("consumer: " ++ n))), []) := by
  obtain ⟨v, hv⟩ := Option.isSome_iff_exists.1 (AList.lookup_isSome.2 hn)
  cases v <;> simp [SubscribeCall.step, Client.isConsumerReady, hq, hv]

theorem validateQueue_ne_consumerNotReady {queue : String} :
    validateQueue queue ≠ some (.var .consumerNotReady) := by
  intro h
  unfold validateQueue validateName at h
  split_ifs at h
  · simp at h
  · simp [wrapError] at h
  · simp [wrapError] at h

/-- **`Subscribe` and `SubscribeWith` agree exactly on valid queues and consumers that
are there.**  For every state of a live process, every registered consumer `n`, every
queue string and every handler. -/
theorem subscribes_agree_iff (p : State) (n queue : String) (handler : Handler)
    (halive : p.shared.panicked = false) (hn : n ∈ p.shared.consumers) :
    SubscribesAgree p n queue handler ↔
      validateQueue queue = none ∧ p.shared.isConsumerReady n = true := by
  have hplain (os : List Choice) :=
    subscribeAlone_cons (k := .subscribe queue handler) (o := .pick n) os halive rfl
  have hwith (os : List Choice) :=
    subscribeAlone_cons (k := .subscribeWith n queue handler) (o := .pick n) os halive rfl
  simp only [step_lookup_pick hn, Option.bind_some] at hplain
  constructor
  · intro hagree
    have hsame := hagree.same []
    rw [hplain, hwith] at hsame
    cases hq : validateQueue queue with
    | some e =>
        -- `SubscribeWith` has returned `e`; `Subscribe` goes on, or returns another error
        simp only [SubscribeCall.step, hq, Option.bind_some, List.map_nil, replay,
          Option.some.injEq, Pool.mk.injEq, List.append_cancel_left_eq, List.cons.injEq,
          Thread.subscribe.injEq, true_and, and_true] at hsame
        split_ifs at hsame with hready
        obtain rfl : e = .var .consumerNotReady := by simpa using hsame.symm
        exact absurd hq validateQueue_ne_consumerNotReady
    | none =>
        refine ⟨rfl, ?_⟩
        rw [step_lookupWith hn hq] at hsame
        simp only [Option.bind_some, List.map_nil, replay, Option.some.injEq, Pool.mk.injEq,
          List.append_cancel_left_eq, List.cons.injEq, Thread.subscribe.injEq, true_and,
          and_true] at hsame
        split_ifs at hsame with hready
        · exact hready
        · cases hsame
  · rintro ⟨hq, hready⟩
    refine ⟨fun os => ?_, fun hbad => absurd hq hbad⟩
    rw [hplain, hwith, step_lookupWith hn hq, Option.bind_some, hready]
    rfl

/-- The default client after its startup, and a queue name that is valid. -/
theorem subscribes_agree_default :
    ∃ p, Run step always (fresh defaultRabbitMQConfig) p ∧ "default-consumer" ∈ p.shared.consumers ∧
      SubscribesAgree p "default-consumer" "lynx.queue" 0 := by
  obtain ⟨p, hr, hp⟩ := exists_run_of_replay step always (fresh defaultRabbitMQConfig)
    (fun p => !p.shared.panicked && decide ("default-consumer" ∈ p.shared.consumers) &&
      p.shared.isConsumerReady "default-consumer") boot (by decide)
  simp only [Bool.and_eq_true, Bool.not_eq_true', decide_eq_true_eq] at hp
  obtain ⟨⟨halive, hn⟩, hready⟩ := hp
  exact ⟨p, hr, hn, (subscribes_agree_iff p "default-consumer" "lynx.queue" 0 halive hn).2
    ⟨by decide, hready⟩⟩

/-- **A queue name only one of them refuses.**  The default client after its startup
and a queue name with a space: `SubscribeWith` returns `ErrInvalidQueue` and records
nothing, `Subscribe` records the subscription and asks the broker to consume.  So the two
do not agree there. -/
theorem subscribe_skips_validation :
    ∃ p, Run step always (fresh defaultRabbitMQConfig) p ∧
      validateQueue "lynx queue" =
        some (wrapError (.var .invalidQueue) "queue contains invalid character:  ") ∧
      ¬ SubscribesAgree p "default-consumer" "lynx queue" 0 ∧
      (∃ q, subscribeAlone p (.subscribeWith "default-consumer" "lynx queue" 0)
          [.pick "default-consumer"] = some q ∧
        q.threads[p.threads.length]? = some (.subscribe p.threads.length (.returned
          (some (wrapError (.var .invalidQueue) "queue contains invalid character:  ")))) ∧
        q.shared.subscriptions = []) ∧
      (∃ q, subscribeAlone p (.subscribe "lynx queue" 0)
          [.pick "default-consumer", .ok, .ok, .ok, .ok] = some q ∧
        q.threads[p.threads.length]?.any Thread.asksToConsume = true ∧
        q.shared.subscriptions =
          [⟨p.threads.length, "default-consumer", "lynx queue", 0⟩]) := by
  obtain ⟨p, hr, hp⟩ := exists_run_of_replay step always (fresh defaultRabbitMQConfig)
    (fun p => p.threads.length == 3 &&
      ((subscribeAlone p (.subscribeWith "default-consumer" "lynx queue" 0)
        [.pick "default-consumer"]).any fun q => q.threads[3]? == some (.subscribe 3 (.returned
          (some (wrapError (.var .invalidQueue) "queue contains invalid character:  ")))) &&
          q.shared.subscriptions == []) &&
      ((subscribeAlone p (.subscribe "lynx queue" 0)
        [.pick "default-consumer", .ok, .ok, .ok, .ok]).any fun q =>
          q.threads[3]?.any Thread.asksToConsume &&
          q.shared.subscriptions == [⟨3, "default-consumer", "lynx queue", 0⟩]))
    boot (by decide)
  simp only [Bool.and_eq_true, beq_iff_eq, Option.any_eq_true] at hp
  obtain ⟨⟨hlen, q, hq, hret, hnone⟩, q', hq', hcons, hrec⟩ := hp
  rw [← hlen] at hret hrec
  have hasks : q'.threads[p.threads.length]?.any Thread.asksToConsume = true := by
    rw [hlen]
    simpa [Option.any_eq_true] using hcons
  refine ⟨p, hr, by decide, fun hagree => ?_, ⟨q, hq, hret, hnone⟩, q', hq', hasks, hrec⟩
  have hsilent := (hagree.refused (by decide) _ List.mem_cons_self _ q' hq').2
  rw [hasks] at hsilent
  cases hsilent

end LynxRabbit
