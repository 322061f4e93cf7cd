/-
# A subscription whose context is cancelled

`startDispatchLoop` binds the loop to the context it is given.  A `Subscribe` call
gives it the caller's; `rebuildAfterReconnect` gives it `context.Background()`,
because the record of a subscription keeps no context.  So the first loop ends when
the caller cancels, and the next rebuild starts the subscription again with a loop
that nothing but the shutdown of the client ends.

The loop a `Subscribe` call starts is its own, and there is at most one of them
(`OwnInv`).  Once it has returned under a cancelled context, only the loops of
rebuilds are left.  The condition is on these two steps of theirs: a rebuild starts
a loop, and such a loop takes a delivery, only while the context of the call is not
cancelled.
-/

import LynxRabbit.Subscriptions.Calls

namespace LynxRabbit

open Runs

/-- A dispatch loop of call `k`. -/
def Thread.loopOf (k : ℕ) : Thread → Bool
  | .loop l _ => l.sub.id == k
  | _ => false

/-- The handler of call `k` is running. -/
def Thread.handles (k : ℕ) : Thread → Bool
  | .loop l .handling => l.sub.id == k
  | _ => false

/-- The step starts a dispatch loop of call `k`. -/
def startsLoop (k : ℕ) (p p' : State) : Bool :=
  decide (p.threads.countP (Thread.loopOf k) < p'.threads.countP (Thread.loopOf k))

/-- The step invokes the handler of call `k`. -/
def invokesHandler (k : ℕ) (p p' : State) : Bool :=
  decide (p.threads.countP (Thread.handles k) < p'.threads.countP (Thread.handles k))

/-- The dispatch loop that call `k` started has returned. -/
def loopReturned (k : ℕ) (p : State) : Bool :=
  p.threads.any fun
    | .loop l .returned => l.sub.id == k && l.rebuild.isNone
    | _ => false

/-- A rebuild starts a loop only while the context of the subscription's call is not
cancelled, and the loop of a rebuild takes a delivery only while it is not. -/
def heedsContext (p : State) : Action → Bool
  | .run i o =>
    match p.threads[i]? with
    | some (.loop l .select) =>
      l.rebuild.isNone || !p.shared.cancelled l.sub.id || o == .stop ||
        !p.shared.amqp.chanOpen l.channel
    | some t =>
      match t.callback? with
      | some (.dispatch _ _ sub _ (.start _)) => !p.shared.cancelled sub.id
      | _ => true
    | none => true
  | _ => true

/-! ### The loop of the call itself -/

def SubscribeCall.owns (k id : ℕ) : SubscribeCall → Bool
  | .lookup _ _ => id == k
  | .lookupWith _ _ _ => id == k
  | .record sub => sub.id == k
  | .dispatch sub _ => sub.id == k
  | .returned _ => false

/-- The goroutine is call `k` before it has started its loop, or that loop. -/
def Thread.owns (k : ℕ) : Thread → Bool
  | .subscribe id pc => pc.owns k id
  | .loop l _ => l.sub.id == k && l.rebuild.isNone
  | _ => false

/-- Each call has at most one loop of its own. -/
structure OwnInv (p : State) : Prop where
  allocated : Allocated p
  own : ∀ k, p.threads.countP (Thread.owns k) ≤ 1

theorem SubscribeCall.Moves.owns {s s' : Client} {o : Choice} {id : ℕ} {pc pc' : SubscribeCall}
    {new : List Spawn} (h : pc.Moves s o id s' pc' new) (k : ℕ) :
    (pc'.owns k id).toNat + (new.map Spawn.thread).countP (Thread.owns k) ≤
      (pc.owns k id).toNat := by
  cases h with
  | @start sub d l s' hd =>
      obtain ⟨-, -, rfl, -, hrb⟩ := DispatchStep.exec_inr hd
      have hcount := countP_snoc [] (Thread.loop l .select) (Thread.owns k)
      have howns : (Thread.loop l .select).owns k = (l.sub.id == k) := by
        rw [Thread.owns, hrb]
        exact Bool.and_true _
      rw [howns, List.countP_nil, Nat.zero_add] at hcount
      exact ((Nat.zero_add _).trans hcount).le
  | refuse pc e hr hd => exact Nat.zero_le _
  | fail sub d f e hcl => exact Nat.zero_le _
  | _ => exact le_rfl

/-- The callback starts no loop of a call's own. -/
theorem Callback.Moves.owns {s s' : Client} {o : Choice} {cb : Callback}
    {q : Callback ⊕ ConnId} {new : List Spawn} (h : cb.Moves s o s' q new) (k : ℕ) :
    (new.map Spawn.thread).countP (Thread.owns k) = 0 := by
  cases h with
  | @start c started sub pending d l s' hd =>
      obtain ⟨-, -, -, -, hrb⟩ := DispatchStep.exec_inr hd
      refine List.countP_eq_zero.2 (List.forall_mem_singleton.2 ?_)
      rw [Spawn.thread, Thread.owns, hrb]
      simp
  | _ => rfl

/-- **A step hands the call's own loop on, and never makes a second one.** -/
theorem Thread.Moves.owns {s s' : Client} {t t' : Thread} {o : Choice} {new : List Thread}
    (h : t.Moves s o s' t' new) (k : ℕ) :
    (t'.owns k).toNat + new.countP (Thread.owns k) ≤ (t.owns k).toNat := by
  cases h with
  | watcher h =>
      cases h with
      | callback ms hm => rw [hm.owns k]; exact le_rfl
      | success ms hm => rw [hm.owns k]; exact le_rfl
      | _ => exact Nat.zero_le _
  | force h =>
      cases h with
      | callback hm => rw [hm.owns k]; exact le_rfl
      | success hm => rw [hm.owns k]; exact le_rfl
      | _ => exact Nat.zero_le _
  | subscribe id h => exact h.owns k
  | loop l h => exact le_rfl
  | cleanup h => exact Nat.zero_le _
  | health h => exact Nat.zero_le _
  | startup h =>
      cases h with
      | startManager => split <;> exact Nat.zero_le _
      | _ => exact Nat.zero_le _

/-- Whoever owns the loop of a call belongs to a call that was made. -/
theorem Allocated.of_owns {p : State} (hi : Allocated p) {t : Thread} (ht : t ∈ p.threads)
    {k : ℕ} (h : t.owns k = true) : k < p.threads.length := by
  have hsub : ∀ {sub : Subscription}, sub ∈ t.subs → (sub.id == k) = true →
      k < p.threads.length := fun hs hk => beq_iff_eq.1 hk ▸ hi.subs.held t ht _ hs
  cases t with
  | subscribe id pc =>
      cases pc with
      | record sub => exact hsub (List.mem_singleton_self _) h
      | dispatch sub d => exact hsub (List.mem_singleton_self _) h
      | returned err => cases h
      | lookup queue handler => exact hi.calls _ ht k (Bool.and_eq_true_iff.2 ⟨h, rfl⟩)
      | lookupWith name queue handler => exact hi.calls _ ht k (Bool.and_eq_true_iff.2 ⟨h, rfl⟩)
  | loop l pc => exact hsub (List.mem_singleton_self _) (Bool.and_eq_true_iff.1 h).1
  | _ => cases h

theorem Call.owns_thread {k : Call} {n j : ℕ} (h : (k.thread n).owns j = true) : j = n := by
  cases k with
  | subscribe queue handler => exact (beq_iff_eq.1 h).symm
  | subscribeWith name queue handler => exact (beq_iff_eq.1 h).symm
  | _ => cases h

theorem ownInv_fresh (cfg : RabbitMQ) : OwnInv (fresh cfg) :=
  ⟨allocated_fresh cfg, fun _ => Nat.zero_le 1⟩

/-- **Every step keeps the invariant.** -/
theorem OwnInv.step {p p' : State} {a : Action} (hi : OwnInv p) (h : Moves p a p') :
    OwnInv p' := by
  refine ⟨hi.allocated.step h, fun k => ?_⟩
  have hbound := hi.own k
  cases h with
  | @run i o l r new t t' s' hl hix ht =>
      have hcount := countP_focus l r new t t' (Thread.owns k)
      have hmove := ht.owns k
      rw [hl] at hbound
      exact (by omega : (l ++ t' :: r ++ new).countP (Thread.owns k) ≤ 1)
  | drop hc ho => exact hbound
  | call c =>
      refine (countP_snoc p.threads (c.thread p.threads.length) _).le.trans ?_
      cases hown : (c.thread p.threads.length).owns k with
      | false => exact hbound
      | true =>
          -- the call owns its own number, which nobody owned before
          have hnone : p.threads.countP (Thread.owns k) = 0 :=
            List.countP_eq_zero.2 fun t ht h =>
              (hi.allocated.of_owns ht h).ne (Call.owns_thread hown)
          exact (congrArg (· + 1) hnone).le
  | cancel id => exact hbound

/-! ### After the cancellation -/

/-- Call `k` was cancelled, and its own loop has returned. -/
structure Silenced (k : ℕ) (p : State) : Prop where
  own : OwnInv p
  cancelled : p.shared.cancelled k = true
  returned : ∃ l, .loop l .returned ∈ p.threads ∧ l.sub.id = k ∧ l.rebuild = none

theorem loopReturned_iff {k : ℕ} {p : State} :
    loopReturned k p = true ↔
      ∃ l, .loop l .returned ∈ p.threads ∧ l.sub.id = k ∧ l.rebuild = none := by
  rw [loopReturned, List.any_eq_true]
  constructor
  · rintro ⟨t, ht, h⟩
    split at h
    · rw [Bool.and_eq_true, beq_iff_eq, Option.isNone_iff_eq_none] at h
      exact ⟨_, ht, h⟩
    · cases h
  · rintro ⟨l, hl, hk, hrb⟩
    exact ⟨_, hl, by simp [hk, hrb]⟩

/-- Nobody but the returned loop is the call or its own loop. -/
theorem Silenced.owner {k : ℕ} {p : State} (hi : Silenced k p) {t : Thread} (ht : t ∈ p.threads)
    (h : t.owns k = true) : ∃ l, t = .loop l .returned := by
  obtain ⟨l, hl, hk, hrb⟩ := hi.returned
  have howns : (Thread.loop l .returned).owns k = true := by simp [Thread.owns, hk, hrb]
  obtain ⟨a, b, hab⟩ := List.append_of_mem hl
  have hone := hi.own.own k
  rw [hab] at hone ht
  rcases eq_or_mem_others ht with rfl | hother
  · exact ⟨l, rfl⟩
  · rw [not_of_countP_le_one hone howns hother] at h
    cases h

theorem Silenced.step {k : ℕ} {p p' : State} {a : Action} (hi : Silenced k p)
    (h : Moves p a p') : Silenced k p' := by
  refine ⟨hi.own.step h, ?_, ?_⟩
  · cases h with
    | run hl hix ht => rw [ht.constant.2]; exact hi.cancelled
    | cancel id =>
        show Function.update p.shared.cancelled id true k = true
        rw [Function.update_apply]
        split_ifs
        · rfl
        · exact hi.cancelled
    | _ => exact hi.cancelled
  · obtain ⟨l, hl, hk⟩ := hi.returned
    cases h with
    | @run i o a b new t t' s' hab hix ht =>
        rw [hab] at hl
        rcases eq_or_mem_others hl with rfl | hother
        · -- a returned loop takes no step
          cases ht with
          | loop _ h => cases h
        · exact ⟨l, mem_focus_of_others hother t' new, hk⟩
    | call c => exact ⟨l, List.mem_append_left _ hl, hk⟩
    | _ => exact ⟨l, hl, hk⟩

/-- A loop comes into its handler from the `select`, by a delivery on an open
channel. -/
theorem LoopPc.step_handling {s s' : Client} {o : Choice} {l : Loop} {pc : LoopPc}
    (h : pc.step s o l = some (s', .handling)) :
    pc = .select ∧ o ≠ .stop ∧ s.amqp.chanOpen l.channel = true := by
  cases pc with
  | select =>
      rw [LoopPc.step] at h
      split_ifs at h with hd hctx hs hc ho <;> cases h
      exact ⟨rfl, hs, ho⟩
  | handling =>
      rw [LoopPc.step] at h
      split_ifs at h <;> cases h
  | _ => cases h

theorem Thread.step_handles {s s' : Client} {t t' : Thread} {o : Choice} {new : List Thread}
    {k : ℕ} (h : t.step s o = some (s', t', new)) (hk : t'.handles k = true) :
    ∃ l, t = .loop l .select ∧ l.sub.id = k ∧ o ≠ .stop ∧ s.amqp.chanOpen l.channel = true := by
  cases t with
  | loop l pc =>
      obtain ⟨⟨s₁, pc'⟩, hpc, he⟩ := Option.map_eq_some_iff.1 h
      cases he
      cases pc' with
      | handling =>
          obtain ⟨rfl, ho, hopen⟩ := LoopPc.step_handling hpc
          exact ⟨l, rfl, beq_iff_eq.1 hk, ho, hopen⟩
      | _ => cases hk
  | _ =>
      obtain ⟨q, hq, he⟩ := Option.map_eq_some_iff.1 h
      cases he
      cases hk

/-- The call has started its loop, and nothing is left of it that could start
another. -/
theorem Silenced.ne_of_subscribe {k id : ℕ} {p : State} (hi : Silenced k p) {sub : Subscription}
    {d : DispatchStep} (ht : .subscribe id (.dispatch sub d) ∈ p.threads) : sub.id ≠ k := by
  intro hk
  obtain ⟨l, hl⟩ := hi.owner ht (beq_iff_eq.2 hk)
  cases hl

/-- **The handler is not invoked.** -/
theorem Silenced.handles_run {k i : ℕ} {p : State} {t t' : Thread} {o : Choice}
    {new : List Thread} {s' : Client} (hi : Silenced k p) (hg : heedsContext p (.run i o) = true)
    (hix : p.threads[i]? = some t) (h : t.step p.shared o = some (s', t', new)) :
    t'.handles k = false := by
  by_contra hk
  obtain ⟨l, rfl, hid, ho, hopen⟩ := Thread.step_handles h (by simpa using hk)
  cases hrb : l.rebuild with
  | none =>
      have howns : (Thread.loop l .select).owns k = true := by simp [Thread.owns, hid, hrb]
      obtain ⟨l', hl'⟩ := hi.owner (List.mem_of_getElem? hix) howns
      cases hl'
  | some c =>
      have hcancel : p.shared.cancelled l.sub.id = true := hid ▸ hi.cancelled
      simp [heedsContext, hix, hrb, hcancel, ho, hopen] at hg

/-- A loop is started by a `Subscribe` call or by a rebuild, in the last step of
`startDispatchLoop`. -/
theorem Thread.Moves.loopOf {s s' : Client} {t t' : Thread} {o : Choice} {new : List Thread}
    (h : t.Moves s o s' t' new) (k : ℕ) :
    t'.loopOf k = t.loopOf k ∧
      ∀ u ∈ new, u.loopOf k = true →
        (∃ id sub d, t = .subscribe id (.dispatch sub d) ∧ sub.id = k) ∨
          ∃ c started sub pending ch,
            t.callback? = some (.dispatch c started sub pending (.start ch)) ∧ sub.id = k := by
  refine ⟨by cases h <;> rfl, fun u hu hk => ?_⟩
  cases u with
  | loop l pc =>
      have hid : l.sub.id = k := beq_iff_eq.1 hk
      obtain ⟨-, ⟨id, ht, -⟩ | ⟨c, started, pending, hcb, -⟩⟩ := h.loop_started hu
      · exact .inl ⟨id, _, _, ht, hid⟩
      · exact .inr ⟨c, started, _, pending, _, hcb, hid⟩
  | _ => cases hk

/-- **No loop is started.** -/
theorem Silenced.loopOf_run {k i : ℕ} {p : State} {t t' : Thread} {o : Choice}
    {new : List Thread} {s' : Client} (hi : Silenced k p) (hg : heedsContext p (.run i o) = true)
    (hix : p.threads[i]? = some t) (h : t.Moves p.shared o s' t' new) :
    t'.loopOf k = t.loopOf k ∧ new.countP (Thread.loopOf k) = 0 := by
  refine ⟨(h.loopOf k).1, List.countP_eq_zero.2 fun u hu hk => ?_⟩
  rcases (h.loopOf k).2 u hu hk with
    ⟨id, sub, d, rfl, hid⟩ | ⟨c, started, sub, pending, ch, hcb, hid⟩
  · exact hi.ne_of_subscribe (List.mem_of_getElem? hix) hid
  · have hcancel : p.shared.cancelled sub.id = true := hid ▸ hi.cancelled
    cases t with
    | loop l pc => cases hcb
    | _ => simp [heedsContext, hix, hcb, hcancel] at hg

/-- **A step that heeds the context leaves a silenced call alone.** -/
theorem quiet_of_silenced {k : ℕ} {p p' : State} {a : Action} (hi : Silenced k p)
    (hg : heedsContext p a = true) (h : step p a = some p') :
    invokesHandler k p p' = false ∧ startsLoop k p p' = false := by
  rw [invokesHandler, startsLoop, decide_eq_false_iff_not, decide_eq_false_iff_not, Nat.not_lt,
    Nat.not_lt]
  cases a with
  | run i o =>
      obtain ⟨l, t, r, s', t', new, hl, -, hix, ht, rfl⟩ := step_run_focus h
      have hm := Thread.moves_of_step ht
      have hself := hi.handles_run hg hix ht
      have hnew : new.countP (Thread.handles k) = 0 := by
        refine List.countP_eq_zero.2 fun u hu => ?_
        obtain ⟨x, rfl⟩ := hm.spawned u hu
        cases x <;> exact Bool.false_ne_true
      have hhandles := countP_focus l r new t t' (Thread.handles k)
      obtain ⟨hsame, hnone⟩ := hi.loopOf_run hg hix hm
      have hloops := countP_focus l r new t t' (Thread.loopOf k)
      rw [hself, hnew, Bool.toNat_false] at hhandles
      rw [hsame, hnone] at hloops
      rw [hl]
      constructor <;> dsimp only <;> omega
  | call c =>
      cases (moves_of_step h).2
      refine ⟨(countP_snoc ..).le.trans ?_, (countP_snoc ..).le.trans ?_⟩
      · cases c <;> exact le_rfl
      · cases c <;> exact le_rfl
  | drop c => cases (moves_of_step h).2; exact ⟨le_rfl, le_rfl⟩
  | cancel id => cases (moves_of_step h).2; exact ⟨le_rfl, le_rfl⟩

/-- **A cancelled subscription stays silent where the rebuilds heed its context.**
Call `k` is a `Subscribe` or `SubscribeWith` call whose context is cancelled and
whose dispatch loop has returned, in any state that can be reached.  In every run
from there in which every step meets the condition, with any calls, disconnects,
reconnects and failures: no step invokes the handler of the call or starts a dispatch
loop for it. -/
theorem cancelled_subscription_silent (cfg : RabbitMQ) (p q q' : State) (a : Action) (k : ℕ)
    (hp : Run step always (fresh cfg) p) (hcancel : p.shared.cancelled k = true)
    (hloop : loopReturned k p = true) (hq : Run step heedsContext p q)
    (hg : heedsContext q a = true) (ha : step q a = some q') :
    invokesHandler k q q' = false ∧ startsLoop k q q' = false := by
  have hown : OwnInv p :=
    hp.invariant (ownInv_fresh cfg) fun _ _ _ hi _ h => hi.step (moves_of_step h).2
  have hi : Silenced k q :=
    hq.invariant ⟨hown, hcancel, loopReturned_iff.1 hloop⟩ fun _ _ _ hi _ h =>
      hi.step (moves_of_step h).2
  exact quiet_of_silenced hi hg ha

/-- The default client with one subscription, cancelled; its loop has returned. -/
def cancelledOnce : List Action :=
  boot ++ .call (.subscribeWith "default-consumer" "lynx.queue" 0) :: solo 3 7 ++
    [.cancel 3, .run 4 .done, .run 4 .ok, .run 4 .ok]

/-- The cancelled client loses its connection, and the watcher starts to reconnect. -/
theorem cancelled_subscription_silent_disconnected :
    ∃ p q q', Run step always (fresh defaultRabbitMQConfig) p ∧ p.shared.cancelled 3 = true ∧
      loopReturned 3 p = true ∧ Run step heedsContext p q ∧ heedsContext q (.run 2 .ok) = true ∧
      step q (.run 2 .ok) = some q' ∧ q'.shared.connection = some 1 ∧
      invokesHandler 3 q q' = false ∧ startsLoop 3 q q' = false := by
  obtain ⟨p, hr, hp⟩ := exists_run_of_replay step always (fresh defaultRabbitMQConfig)
    (fun p => p.shared.cancelled 3 && loopReturned 3 p &&
      (replay step heedsContext p (.drop 0 :: solo 2 4)).any fun q =>
        heedsContext q (.run 2 .ok) &&
          (step q (.run 2 .ok)).any fun q' => q'.shared.connection == some 1)
    cancelledOnce (by decide)
  simp only [Bool.and_eq_true] at hp
  obtain ⟨⟨hcancel, hloop⟩, hrest⟩ := hp
  obtain ⟨q, hq, hany⟩ := exists_run_of_replay step heedsContext p _ _ hrest
  rw [Bool.and_eq_true, Option.any_eq_true] at hany
  obtain ⟨hg, q', hstep, hconn⟩ := hany
  exact ⟨p, q, q', hr, hcancel, hloop, hq, hg, hstep, beq_iff_eq.1 hconn,
    cancelled_subscription_silent defaultRabbitMQConfig p q q' _ 3 hr hcancel hloop hq hg hstep⟩

/-- **A reconnect brings a cancelled subscription back.**  The context of call 3 is
cancelled and its loop has returned; the broker drops the connection, the watcher
reconnects, the rebuild starts a loop for the call, and the loop invokes its
handler. -/
theorem cancelled_subscription_restarted :
    ∃ p, Run step supervised (fresh defaultRabbitMQConfig) p ∧ p.shared.cancelled 3 = true ∧
      loopReturned 3 p = true ∧
      (∃ q a q', Run step supervised p q ∧ supervised q a = true ∧ step q a = some q' ∧
        startsLoop 3 q q' = true) ∧
      ∃ q a q', Run step supervised p q ∧ supervised q a = true ∧ step q a = some q' ∧
        invokesHandler 3 q q' = true := by
  obtain ⟨p, hr, hp⟩ := exists_run_of_replay step supervised (fresh defaultRabbitMQConfig)
    (fun p => p.shared.cancelled 3 && loopReturned 3 p &&
      ((replay step supervised p (.drop 0 :: solo 2 21)).any fun q =>
        (step q (.run 2 .ok)).any (startsLoop 3 q)) &&
      (replay step supervised p (.drop 0 :: solo 2 22)).any fun q =>
        (step q (.run 5 .ok)).any (invokesHandler 3 q))
    cancelledOnce (by decide)
  simp only [Bool.and_eq_true] at hp
  obtain ⟨⟨⟨hcancel, hloop⟩, hstart⟩, hinvoke⟩ := hp
  refine ⟨p, hr, hcancel, hloop, ?_, ?_⟩
  · obtain ⟨q, hq, hany⟩ := exists_run_of_replay step supervised p _ _ hstart
    obtain ⟨q', hstep, hs⟩ := (Option.any_eq_true _ _).1 hany
    exact ⟨q, _, q', hq, rfl, hstep, hs⟩
  · obtain ⟨q, hq, hany⟩ := exists_run_of_replay step supervised p _ _ hinvoke
    obtain ⟨q', hstep, hs⟩ := (Option.any_eq_true _ _).1 hany
    exact ⟨q, _, q', hq, rfl, hstep, hs⟩

end LynxRabbit
