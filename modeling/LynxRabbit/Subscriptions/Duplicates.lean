/-
# One dispatch loop for each Subscribe call

A `Subscribe` call records its subscription and starts a loop for it; every
rebuild starts a loop for every recorded subscription.  Nothing checks that the
loop of the last time is gone: the comment in `rebuildAfterReconnect` takes the
old connection for closed, which it is not when `ForceReconnect` replaces a
healthy connection, when an earlier attempt failed after it had started some of
the loops, or when the `Subscribe` call itself is still about to start its loop.

A goroutine serves call `k` when it is a loop of `k` on an open connection, or is
on its way to start one.  The condition is on the one step of a rebuild that
decides to restart a subscription: nobody serves its call then.
-/

import LynxRabbit.Client.Connections
import LynxRabbit.Subscriptions.Calls

namespace LynxRabbit

open Runs

/-- A dispatch loop of call `k` that has not returned, on an open connection. -/
def Thread.consumes (k : ℕ) (s : Client) : Thread → Bool
  | .loop l pc => l.sub.id == k && pc != .returned && !s.amqp.closed l.channel.conn
  | _ => false

/-- The connection `startDispatchLoop` works on is not closed, as far as it has
read one. -/
def DispatchStep.alive (s : Client) (d : DispatchStep) : Bool :=
  d.conn?.all fun c => !s.amqp.closed c

def Callback.serves (k : ℕ) (s : Client) : Callback → Bool
  | .dispatch _ _ sub _ d => sub.id == k && d.alive s
  | _ => false

def SubscribeCall.serves (k : ℕ) (s : Client) (id : ℕ) : SubscribeCall → Bool
  | .lookup _ _ => id == k
  | .lookupWith _ _ _ => id == k
  | .record sub => sub.id == k
  | .dispatch sub d => sub.id == k && d.alive s
  | .returned _ => false

/-- The goroutine consumes for call `k`, or is on its way to start a loop that
does. -/
def Thread.serves (k : ℕ) (s : Client) : Thread → Bool
  | .watcher (.callback _ cb) => cb.serves k s
  | .force (.callback cb) => cb.serves k s
  | .subscribe id pc => pc.serves k s id
  | .loop l pc => l.sub.id == k && pc != .returned && !s.amqp.closed l.channel.conn
  | _ => false

/-- A rebuild restarts a subscription only when nobody serves its call. -/
def restartsAlone (p : State) (t : Thread) : Bool :=
  match t.callback? with
  | some (.restart _ _ (sub :: _)) =>
    !p.shared.isConsumerReady sub.consumerName ||
      p.threads.all fun u => !u.serves sub.id p.shared
  | _ => true

/-- At most one goroutine serves each call. -/
structure ServeInv (p : State) : Prop where
  known : Known p
  allocated : Allocated p
  alone : ∀ k, p.threads.countP (Thread.serves k p.shared) ≤ 1

/-! ### Serving does not start again by itself -/

theorem DispatchStep.alive_of_ages {s s' : Client} {d : DispatchStep}
    (ha : s.amqp.Ages s'.amqp) (hk : ∀ c, d.conn? = some c → c < s.amqp.dialled)
    (h : d.alive s' = true) : d.alive s = true := by
  unfold DispatchStep.alive at h ⊢
  cases hc : d.conn? with
  | none => rfl
  | some c =>
      rw [hc, Option.all_some, Bool.not_eq_true'] at h
      rw [Option.all_some, Bool.not_eq_true']
      exact ha.isOpen (hk c hc) h

/-- Whoever serves a call served it before, if it did not move. -/
theorem Thread.serves_of_ages {k : ℕ} {s s' : Client} {t : Thread} (ha : s.amqp.Ages s'.amqp)
    (hk : ∀ c, t.serving = some c → c < s.amqp.dialled) (h : t.serves k s' = true) :
    t.serves k s = true := by
  have hdispatch : ∀ {sub : Subscription} {d : DispatchStep},
      (∀ c, d.conn? = some c → c < s.amqp.dialled) → (sub.id == k && d.alive s') = true →
        (sub.id == k && d.alive s) = true := by
    intro sub d hk h
    rw [Bool.and_eq_true] at h ⊢
    exact ⟨h.1, DispatchStep.alive_of_ages ha hk h.2⟩
  have hcallback : ∀ {cb : Callback}, (∀ c, cb.serving = some c → c < s.amqp.dialled) →
      cb.serves k s' = true → cb.serves k s = true := by
    intro cb hk h
    cases cb with
    | dispatch c started sub pending d => exact hdispatch hk h
    | _ => cases h
  cases t with
  | watcher pc =>
      cases pc with
      | callback ms cb => exact hcallback hk h
      | _ => cases h
  | force pc =>
      cases pc with
      | callback cb => exact hcallback hk h
      | _ => cases h
  | subscribe id pc =>
      cases pc with
      | dispatch sub d => exact hdispatch hk h
      | _ => exact h
  | loop l pc =>
      simp only [Thread.serves, Bool.and_eq_true, Bool.not_eq_true'] at h ⊢
      exact ⟨h.1, ha.isOpen (hk _ rfl) h.2⟩
  | _ => cases h

/-! ### What a step does to the goroutines that serve a call -/

theorem toNat_le_of_imp {a b : Bool} (h : a = true → b = true) : a.toNat ≤ b.toNat := by
  cases a with
  | false => exact Nat.zero_le _
  | true => rw [h rfl]

/-- `startDispatchLoop` serves on as long as its connection is open. -/
theorem DispatchStep.alive_of_exec {s s' : Client} {o : Choice} {ctx : Option ℕ}
    {rb : Option ConnId} {sub : Subscription} {d d' : DispatchStep}
    (h : d.exec s o ctx rb sub = .next s' (.inl d')) (ha : d'.alive s' = true) :
    d.alive s = true := by
  obtain ⟨⟨n, rfl⟩, ⟨rfl, -⟩ | ⟨c, hd, hd'⟩⟩ := DispatchStep.exec_inl h
  · rfl
  · rw [DispatchStep.alive, hd'] at ha
    rw [DispatchStep.alive, hd]
    exact ha

/-- The loop it starts serves in its place. -/
theorem DispatchStep.serves_of_exec {s s' : Client} {o : Choice} {ctx : Option ℕ}
    {rb : Option ConnId} {sub : Subscription} {d : DispatchStep} {l : Loop} (k : ℕ)
    (h : d.exec s o ctx rb sub = .next s' (.inr l)) :
    ([Spawn.loop l].map Spawn.thread).countP (Thread.serves k s') ≤
      (sub.id == k && d.alive s).toNat := by
  obtain ⟨rfl, rfl, rfl, -⟩ := DispatchStep.exec_inr h
  have hcount : ([Spawn.loop l].map Spawn.thread).countP (Thread.serves k s) =
      ((Thread.loop l .select).serves k s).toNat := by
    rw [← Nat.zero_add (Bool.toNat _)]
    exact countP_snoc [] _ _
  refine hcount.le.trans (toNat_le_of_imp fun hs => ?_)
  simpa [Thread.serves, DispatchStep.alive, DispatchStep.conn?] using hs

/-- A rebuild is about to restart a subscription of call `k`. -/
def Callback.Restarts (k : ℕ) (s : Client) (cb : Callback) : Prop :=
  ∃ c started sub pending, cb = .restart c started (sub :: pending) ∧ sub.id = k ∧
    s.isConsumerReady sub.consumerName = true

/-- **A callback** comes to serve a call by restarting its subscription alone. -/
theorem Callback.Moves.serves {s s' : Client} {o : Choice} {cb : Callback}
    {q : Callback ⊕ ConnId} {new : List Spawn} (h : cb.Moves s o s' q new) (k : ℕ) :
    (q.elim (Callback.serves k s') (fun _ => false)).toNat +
        (new.map Spawn.thread).countP (Thread.serves k s') ≤ (cb.serves k s).toNat ∨
      cb.Restarts k s ∧ new = [] := by
  cases h with
  | @found c started sub pending ch hl =>
      by_cases hk : sub.id = k
      · exact .inr ⟨⟨c, started, sub, pending, rfl, hk, Client.isConsumerReady_iff.2 ⟨ch, hl⟩⟩, rfl⟩
      · have hne : (sub.id == k) = false := by simpa using hk
        rw [Sum.elim_inl, Callback.serves, hne]
        exact .inl (Nat.zero_le _)
  | dispatch c started pending hd =>
      refine .inl (Nat.add_le_add (toNat_le_of_imp fun hs => ?_) (Nat.le_refl 0))
      rw [Sum.elim_inl, Callback.serves, Bool.and_eq_true] at hs
      exact Bool.and_eq_true_iff.2 ⟨hs.1, DispatchStep.alive_of_exec hd hs.2⟩
  | start c started pending hd =>
      rw [Sum.elim_inl]
      exact .inl ((Nat.zero_add _).le.trans (DispatchStep.serves_of_exec k hd))
  | _ => exact .inl (Nat.zero_le _)

/-- A `Subscribe` call serves itself until its loop does. -/
theorem SubscribeCall.Moves.serves {s s' : Client} {o : Choice} {id : ℕ} {pc pc' : SubscribeCall}
    {new : List Spawn} (h : pc.Moves s o id s' pc' new) (k : ℕ) :
    (pc'.serves k s' id).toNat + (new.map Spawn.thread).countP (Thread.serves k s') ≤
      (pc.serves k s id).toNat := by
  cases h with
  | record sub =>
      refine Nat.add_le_add (toNat_le_of_imp fun hs => ?_) (Nat.le_refl 0)
      exact (Bool.and_eq_true_iff.1 hs).1
  | dispatch hd =>
      refine Nat.add_le_add (toNat_le_of_imp fun hs => ?_) (Nat.le_refl 0)
      rw [SubscribeCall.serves, Bool.and_eq_true] at hs
      exact Bool.and_eq_true_iff.2 ⟨hs.1, DispatchStep.alive_of_exec hd hs.2⟩
  | start hd => exact (Nat.zero_add _).le.trans (DispatchStep.serves_of_exec k hd)
  | lookup hl => exact le_rfl
  | lookupWith hq hl => exact le_rfl
  | _ => exact Nat.zero_le _

/-- **A goroutine** comes to serve a call by restarting its subscription in a
rebuild, and in no other way. -/
theorem Thread.Moves.serves {s s' : Client} {t t' : Thread} {o : Choice} {new : List Thread}
    (h : t.Moves s o s' t' new) (k : ℕ) :
    (t'.serves k s').toNat + new.countP (Thread.serves k s') ≤ (t.serves k s).toNat ∨
      (∃ cb, t.callback? = some cb ∧ cb.Restarts k s) ∧ new = [] := by
  have hcallback : ∀ {cb : Callback} {sp : List Spawn} {n : ℕ},
      n ≤ (cb.serves k s).toNat ∨ cb.Restarts k s ∧ sp = [] → t.callback? = some cb →
        n ≤ (cb.serves k s).toNat ∨
          (∃ cb, t.callback? = some cb ∧ cb.Restarts k s) ∧ sp.map Spawn.thread = [] := by
    rintro cb sp n (hle | ⟨hr, rfl⟩) hcb
    · exact .inl hle
    · exact .inr ⟨⟨cb, hcb, hr⟩, rfl⟩
  cases h with
  | watcher h =>
      cases h with
      | callback ms hm => exact hcallback (hm.serves k) rfl
      | success ms hm => exact hcallback (hm.serves k) rfl
      | _ => exact .inl (Nat.zero_le _)
  | force h =>
      cases h with
      | callback hm => exact hcallback (hm.serves k) rfl
      | success hm => exact hcallback (hm.serves k) rfl
      | _ => exact .inl (Nat.zero_le _)
  | subscribe id h => exact .inl (h.serves k)
  | loop l h =>
      refine .inl (Nat.add_le_add (toNat_le_of_imp fun hs => ?_) (Nat.le_refl 0))
      simp only [Thread.serves, Bool.and_eq_true, h.sameCore.closed] at hs ⊢
      refine ⟨⟨hs.1.1, ?_⟩, hs.2⟩
      cases h <;> rfl
  | cleanup h => exact .inl (Nat.zero_le _)
  | health h => exact .inl (Nat.zero_le _)
  | startup h =>
      cases h with
      | startManager => split <;> exact .inl (Nat.zero_le _)
      | _ => exact .inl (Nat.zero_le _)

/-- Only calls that were made are served. -/
theorem Allocated.of_serves {p : State} (hi : Allocated p) {t : Thread} (ht : t ∈ p.threads)
    {k : ℕ} (h : t.serves k p.shared = true) : k < p.threads.length := by
  have hsub : ∀ {sub : Subscription}, sub ∈ t.subs → (sub.id == k) = true →
      k < p.threads.length := fun hs hk => beq_iff_eq.1 hk ▸ hi.subs.held t ht _ hs
  have hcallback : ∀ {cb : Callback}, t.subs = cb.subs → cb.serves k p.shared = true →
      k < p.threads.length := by
    intro cb he h
    cases cb with
    | dispatch c started sub pending d =>
        exact hsub (he ▸ List.mem_cons_self ..) (Bool.and_eq_true_iff.1 h).1
    | _ => cases h
  cases t with
  | watcher pc =>
      cases pc with
      | callback ms cb => exact hcallback rfl h
      | _ => cases h
  | force pc =>
      cases pc with
      | callback cb => exact hcallback rfl h
      | _ => cases h
  | subscribe id pc =>
      cases pc with
      | record sub => exact hsub (List.mem_singleton_self _) h
      | dispatch sub d => exact hsub (List.mem_singleton_self _) (Bool.and_eq_true_iff.1 h).1
      | returned err => cases h
      | lookup queue handler =>
          exact hi.calls _ ht k (Bool.and_eq_true_iff.2 ⟨h, rfl⟩)
      | lookupWith name queue handler =>
          exact hi.calls _ ht k (Bool.and_eq_true_iff.2 ⟨h, rfl⟩)
  | loop l pc =>
      simp only [Thread.serves, Bool.and_eq_true] at h
      exact hsub (List.mem_singleton_self _) h.1.1
  | _ => cases h

/-- **A step of a goroutine keeps the invariant.** -/
theorem ServeInv.alone_run {p : State} {l r new : List Thread} {t t' : Thread} {o : Choice}
    {s' : Client} (hi : ServeInv p) (hl : p.threads = l ++ t :: r)
    (ht : t.Moves p.shared o s' t' new) (hcond : restartsAlone p t = true) (k : ℕ) :
    (l ++ t' :: r ++ new).countP (Thread.serves k s') ≤ 1 := by
  have hothers : ∀ u ∈ l ++ r, u.serves k s' = true → u.serves k p.shared = true := fun u hu =>
    Thread.serves_of_ages ht.ages (hi.known.used u (hl ▸ mem_of_mem_others hu t))
  have hcount := countP_focus_le hothers t t' new
  have hbound := hi.alone k
  rw [hl] at hbound
  rcases ht.serves k with hle | ⟨⟨cb, hcb, c, started, sub, pending, rfl, rfl, hready⟩, rfl⟩
  · omega
  · -- nobody serves the call before the rebuild restarts its subscription
    rw [restartsAlone, hcb] at hcond
    have hnone : (l ++ t :: r).countP (Thread.serves sub.id p.shared) = 0 := by
      rw [← hl, List.countP_eq_zero]
      simpa [hready] using hcond
    have hone := Bool.toNat_le (t'.serves sub.id s')
    rw [List.countP_nil] at hcount
    omega

/-- **Every step keeps the invariant.** -/
theorem ServeInv.step {p p' : State} {a : Action} (hi : ServeInv p)
    (hg : onRun restartsAlone p a = true) (h : Moves p a p') : ServeInv p' := by
  have hknown := hi.known.step h
  have hallocated := hi.allocated.step h
  cases h with
  | run hl hix ht => exact ⟨hknown, hallocated, hi.alone_run hl ht (onRun_run hg hix)⟩
  | @drop c hc ho =>
      refine ⟨hknown, hallocated, fun k => le_trans ?_ (hi.alone k)⟩
      exact List.countP_mono_left fun t ht =>
        Thread.serves_of_ages (.drop p.shared.amqp c) (hi.known.used t ht)
  | call k =>
      refine ⟨hknown, hallocated, fun j => ?_⟩
      refine (countP_snoc p.threads (k.thread p.threads.length) _).le.trans ?_
      cases hs : (k.thread p.threads.length).serves j p.shared with
      | false => exact hi.alone j
      | true =>
          -- the call serves its own number, which no goroutine served before
          have hj : j = p.threads.length := by
            cases k with
            | subscribe queue handler => exact (beq_iff_eq.1 hs).symm
            | subscribeWith name queue handler => exact (beq_iff_eq.1 hs).symm
            | _ => cases hs
          have hnone : p.threads.countP (Thread.serves j p.shared) = 0 := by
            refine List.countP_eq_zero.2 fun t ht hserves => ?_
            exact (hi.allocated.of_serves ht hserves).ne hj
          exact (congrArg (· + 1) hnone).le
  | cancel id => exact ⟨hknown, hallocated, hi.alone⟩

/-- **At most one loop for each call, where a rebuild restarts a subscription only
when nobody serves it.**  In every run in which every step meets the condition,
with any calls, disconnects, reconnect attempts and failures: every `Subscribe` or
`SubscribeWith` call has at most one dispatch loop on an open connection. -/
theorem one_loop_per_subscribe (cfg : RabbitMQ) (p : State)
    (hr : Run step (onRun restartsAlone) (fresh cfg) p) (k : ℕ) :
    p.threads.countP (Thread.consumes k p.shared) ≤ 1 := by
  have hi : ServeInv p := by
    refine hr.invariant ⟨known_fresh cfg, allocated_fresh cfg, fun k => Nat.zero_le 1⟩ ?_
    exact fun _ _ _ hi hg h => hi.step hg (moves_of_step h).2
  refine le_trans (List.countP_mono_left fun t _ hc => ?_) (hi.alone k)
  cases t with
  | loop l pc => exact hc
  | _ => cases hc

/-- A reconnect after a drop: the old loop is on a dead connection and the rebuild
starts a new one. -/
theorem one_loop_per_subscribe_reconnected :
    ∃ p, Run step (onRun restartsAlone) (fresh defaultRabbitMQConfig) p ∧
      2 ≤ p.threads.countP (fun t => t.subs.any fun sub => sub.id == 3) ∧
      p.threads.any (Thread.consumes 3 p.shared) = true ∧
      p.threads.countP (Thread.consumes 3 p.shared) ≤ 1 := by
  obtain ⟨p, hr, hp⟩ := exists_run_of_replay step (onRun restartsAlone)
    (fresh defaultRabbitMQConfig)
    (fun p => decide (2 ≤ p.threads.countP fun t => t.subs.any fun sub => sub.id == 3) &&
      p.threads.any (Thread.consumes 3 p.shared))
    (boot ++ .call (.subscribeWith "default-consumer" "lynx.queue" 0) :: solo 3 7 ++
      .drop 0 :: solo 2 26)
    (by decide)
  rw [Bool.and_eq_true, decide_eq_true_iff] at hp
  exact ⟨p, hr, hp.1, hp.2, one_loop_per_subscribe defaultRabbitMQConfig p hr 3⟩

/-- **`ForceReconnect` on a healthy client doubles the loops.**  Connection 0 stays
open, its loop goes on, and the rebuild starts a second loop of the same call on
connection 1. -/
theorem subscription_duplicated :
    ∃ p, Run step supervised (fresh defaultRabbitMQConfig) p ∧
      p.threads.countP (Thread.consumes 3 p.shared) = 2 := by
  obtain ⟨p, hr, hp⟩ := exists_run_of_replay step supervised (fresh defaultRabbitMQConfig)
    (fun p => p.threads.countP (Thread.consumes 3 p.shared) == 2)
    (boot ++ .call (.subscribeWith "default-consumer" "lynx.queue" 0) :: solo 3 7 ++
      .call .forceReconnect :: solo 5 23)
    (by decide)
  exact ⟨p, hr, beq_iff_eq.1 hp⟩

end LynxRabbit
