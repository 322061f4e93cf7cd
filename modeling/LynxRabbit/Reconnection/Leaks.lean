/-
# Connections nobody owns

A connection that `dial` returned stays open until the broker drops it or a
cleanup closes it, and a cleanup closes the stored one only.  So every overwrite
of an open `r.connection` leaks it: the retry of a reconnect whose rebuild failed
after the store, a `ForceReconnect` on a healthy client, a second startup.

`storesOverDead` is the discipline under which nothing leaks: a connection is
stored only over none or a closed one, and not after the shutdown.
-/

import LynxRabbit.Client.Connections

namespace LynxRabbit

open Runs

/-- After the last startup call a cleanup has returned nil. -/
def tornDown : List Thread → Bool
  | [] => false
  | t :: ts =>
    tornDown ts || (t == .cleanup (.returned none) && ts.all fun u => !u.isStartup)

/-- A connection is stored over none or a closed one, and not after the
shutdown. -/
def storesOverDead (p : State) (t : Thread) : Bool :=
  t.storing.isNone || (p.shared.dead && !tornDown p.threads)

/-- No goroutine is between a dial and its store. -/
def noDialInFlight (p : State) : Bool := p.threads.all (·.storing.isNone)

theorem tornDown_append {new : List Thread}
    (hnew : ∀ u ∈ new, u ≠ .cleanup (.returned none)) :
    ∀ {ts : List Thread}, tornDown (ts ++ new) = true → tornDown ts = true
  | [], h => by
      have hfalse : ∀ {us : List Thread}, (∀ u ∈ us, u ≠ .cleanup (.returned none)) →
          tornDown us = false := by
        intro us
        induction us with
        | nil => intro _; rfl
        | cons u us ih =>
            intro hus
            have hu := hus u (List.mem_cons_self ..)
            simp [tornDown, hu, ih fun v hv => hus v (List.mem_cons_of_mem _ hv)]
      rw [List.nil_append, hfalse hnew] at h
      cases h
  | t :: ts, h => by
      simp only [List.cons_append, tornDown, Bool.or_eq_true, Bool.and_eq_true,
        List.all_append] at h ⊢
      exact h.imp (tornDown_append hnew) fun h => ⟨h.1, h.2.1⟩

/-- Only the return of a cleanup brings the shutdown about. -/
theorem tornDown_focus {r new : List Thread} {t t' : Thread} (hk : t'.isStartup = t.isStartup)
    (ht' : t' ≠ .cleanup (.returned none)) (hnew : ∀ u ∈ new, u ≠ .cleanup (.returned none)) :
    ∀ {l : List Thread}, tornDown (l ++ t' :: r ++ new) = true → tornDown (l ++ t :: r) = true := by
  intro l h
  replace h := tornDown_append hnew h
  induction l with
  | nil =>
      simp only [List.nil_append, tornDown, Bool.or_eq_true, Bool.and_eq_true, beq_iff_eq] at h ⊢
      exact .inl (h.resolve_right fun h => ht' h.1)
  | cons u l ih =>
      simp only [List.cons_append, tornDown, Bool.or_eq_true, Bool.and_eq_true, List.all_append,
        List.all_cons, hk] at h ⊢
      exact h.imp_left ih

/-- Every open connection is the stored one or in flight; after the shutdown
none is stored. -/
structure BooksInv (p : State) : Prop where
  owned : ∀ c < p.shared.amqp.dialled, p.shared.amqp.closed c = false →
    p.shared.connection = some c ∨ ∃ t ∈ p.threads, t.storing = some c
  gone : tornDown p.threads = true → p.shared.connection = none

/-- A cleanup that returns nil leaves no stored connection. -/
theorem Thread.Moves.connection_of_nil {s s' : Client} {t : Thread} {o : Choice}
    {new : List Thread} (h : t.Moves s o s' (.cleanup (.returned none)) new) :
    s'.connection = none := by
  cases h with
  | cleanup h =>
      generalize hpc : CleanupWithContext.returned none = pc' at h
      cases h with
      | noConnection hc => exact hc
      | close hc ho he => rfl
      | stopManager => split_ifs at hpc
      | _ => cases hpc

theorem Spawn.thread_ne_cleanup (x : Spawn) (pc : CleanupWithContext) : x.thread ≠ .cleanup pc := by
  cases x <;> exact fun h => by cases h

/-- **An open connection stays accounted for.**  It was stored or in flight before the
step; whoever had it in flight stores it, and no store goes over it. -/
theorem BooksInv.owned_run {p : State} {l r new : List Thread} {t t' : Thread} {o : Choice}
    {s' : Client} (hi : BooksInv p) (hl : p.threads = l ++ t :: r)
    (ht : t.Moves p.shared o s' t' new) (hcond : storesOverDead p t = true) {c : ConnId}
    (hlt : c < s'.amqp.dialled) (ho : s'.amqp.closed c = false) :
    s'.connection = some c ∨ ∃ u ∈ l ++ t' :: r ++ new, u.storing = some c := by
  rcases ht.dialled_cases hlt with hlt | hself
  · rcases hi.owned c hlt (ht.ages.isOpen hlt ho) with hc | ⟨u, hu, huc⟩
    · left
      cases hst : t.storing with
      | none => exact ht.connection_kept hst hc ho
      | some c₁ =>
          -- a store goes over a closed connection only
          simp only [storesOverDead, hst, Option.isNone_some, Bool.false_or, Bool.and_eq_true,
            Client.dead, hc, Option.all_some] at hcond
          rw [ht.ages.isOpen hlt ho] at hcond
          cases hcond.1
    · rw [hl] at hu
      rcases eq_or_mem_others hu with rfl | hu
      · exact .inl (ht.connection_of_storing huc)
      · exact .inr ⟨u, mem_focus_of_others hu t' new, huc⟩
  · exact .inr ⟨t', mem_focus_moved l r t' new, hself⟩

/-- **Nothing is stored after the shutdown.** -/
theorem BooksInv.gone_run {p : State} {l r new : List Thread} {t t' : Thread} {o : Choice}
    {s' : Client} (hi : BooksInv p) (hl : p.threads = l ++ t :: r)
    (ht : t.Moves p.shared o s' t' new) (hcond : storesOverDead p t = true)
    (htd : tornDown (l ++ t' :: r ++ new) = true) : s'.connection = none := by
  by_cases ht' : t' = .cleanup (.returned none)
  · exact (ht' ▸ ht).connection_of_nil
  · have hnew : ∀ u ∈ new, u ≠ .cleanup (.returned none) := by
      intro u hu
      obtain ⟨x, rfl⟩ := ht.spawned u hu
      exact x.thread_ne_cleanup _
    have hbefore : tornDown p.threads = true := by
      rw [hl]
      exact tornDown_focus ht.kind.1 ht' hnew htd
    by_contra hs'
    obtain ⟨c, hc⟩ := Option.ne_none_iff_exists'.1 hs'
    rcases ht.connection_cases hc with hc | hst
    · rw [hi.gone hbefore] at hc
      cases hc
    · rw [storesOverDead, hst, hbefore, Bool.not_true, Bool.and_false] at hcond
      cases hcond

/-- **Every step under the discipline keeps the books.** -/
theorem BooksInv.step {p p' : State} {a : Action} (hi : BooksInv p)
    (hg : onRun storesOverDead p a = true) (h : Moves p a p') : BooksInv p' := by
  have ⟨howned, hgone⟩ := hi
  cases h with
  | run hl hix ht =>
      have hcond := onRun_run hg hix
      exact ⟨fun c hlt ho => hi.owned_run hl ht hcond hlt ho, hi.gone_run hl ht hcond⟩
  | drop hc ho => exact ⟨fun c' hlt ho' => howned c' hlt (Broker.open_of_drop ho'), hgone⟩
  | call k =>
      refine ⟨fun c hlt ho => ?_, fun h => hgone (tornDown_append ?_ h)⟩
      · rcases howned c hlt ho with hc | ⟨u, hu, huc⟩
        · exact .inl hc
        · exact .inr ⟨u, List.mem_append_left _ hu, huc⟩
      · intro u hu
        obtain rfl := List.mem_singleton.1 hu
        cases k <;> exact fun h => by cases h
  | cancel id => exact ⟨howned, hgone⟩

/-- **Nothing leaks under the discipline.**  In every run in which a connection
is stored only over none or a closed one, and not after the shutdown: in every
state with no dial in flight, an open connection is the stored one; and once a
cleanup has returned nil and no startup was called after it, none is open. -/
theorem no_open_connection_but_stored (cfg : RabbitMQ) (p : State)
    (hr : Run step (onRun storesOverDead) (fresh cfg) p) (hfl : noDialInFlight p = true) :
    (∀ c < p.shared.amqp.dialled, p.shared.amqp.closed c = false →
        p.shared.connection = some c) ∧
      (tornDown p.threads = true →
        ∀ c < p.shared.amqp.dialled, p.shared.amqp.closed c = true) := by
  have hi : BooksInv p := by
    refine hr.invariant ⟨fun c hc => absurd hc (Nat.not_lt_zero c), fun h => by cases h⟩ ?_
    exact fun _ _ _ hi hg h => hi.step hg (moves_of_step h).2
  have hone : ∀ c < p.shared.amqp.dialled, p.shared.amqp.closed c = false →
      p.shared.connection = some c := by
    intro c hlt ho
    refine (hi.owned c hlt ho).resolve_right ?_
    rintro ⟨t, ht, htc⟩
    have := List.all_eq_true.1 hfl t ht
    rw [htc] at this
    cases this
  refine ⟨hone, fun htd c hlt => ?_⟩
  by_contra ho
  have hc := hone c hlt (by simpa using ho)
  rw [hi.gone htd] at hc
  cases hc

/-- A disconnect, a reconnect and a shutdown keep to the discipline. -/
theorem no_open_connection_but_stored_after_cleanup :
    ∃ p, Run step (onRun storesOverDead) (fresh defaultRabbitMQConfig) p ∧
      noDialInFlight p = true ∧ tornDown p.threads = true ∧
      (∀ c < p.shared.amqp.dialled, p.shared.amqp.closed c = false →
        p.shared.connection = some c) ∧
      ∀ c < p.shared.amqp.dialled, p.shared.amqp.closed c = true := by
  obtain ⟨p, hr, hp⟩ := exists_run_of_replay step (onRun storesOverDead)
    (fresh defaultRabbitMQConfig)
    (fun p => p.shared.amqp.dialled == 2 && noDialInFlight p && tornDown p.threads)
    (boot ++ .drop 0 :: solo 2 20 ++ .call .cleanup :: solo 4 12) (by decide)
  simp only [Bool.and_eq_true] at hp
  obtain ⟨hone, hnone⟩ := no_open_connection_but_stored defaultRabbitMQConfig p hr hp.1.2
  exact ⟨p, hr, hp.1.2, hp.2, hone, hnone hp.2⟩

/-- **A retried reconnect leaks the connection of the attempt that failed.**  The
broker drops the connection; the first attempt dials and stores connection 1, and
the channel of the producer is refused; the second attempt stores connection 2
over it.  The cleanup closes 2, returns nil, and connection 1 is still open. -/
theorem retried_reconnect_leaks :
    ∃ p, Run step always (fresh defaultRabbitMQConfig) p ∧ noDialInFlight p = true ∧
      tornDown p.threads = true ∧
      ∃ c < p.shared.amqp.dialled, p.shared.amqp.closed c = false ∧
        p.shared.connection ≠ some c := by
  obtain ⟨p, hr, hp⟩ := exists_run_of_replay step always (fresh defaultRabbitMQConfig)
    (fun p => noDialInFlight p && tornDown p.threads && decide (1 < p.shared.amqp.dialled) &&
      !p.shared.amqp.closed 1 && p.shared.connection == none)
    (boot ++ .drop 0 :: solo 2 7 ++ .run 2 (.fail "channel error") :: solo 2 19 ++
      .call .cleanup :: solo 4 12) (by decide)
  simp only [Bool.and_eq_true, decide_eq_true_eq, Bool.not_eq_true', beq_iff_eq] at hp
  obtain ⟨⟨⟨⟨hfl, htd⟩, hlt⟩, ho⟩, hc⟩ := hp
  exact ⟨p, hr, hfl, htd, 1, hlt, ho, by rw [hc]; exact fun h => by cases h⟩

end LynxRabbit
