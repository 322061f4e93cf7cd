/-
# Cleanup converges

A cleanup that gets to its end leaves the client shut down: `closed` set, `closeChan`
closed, both managers stopped, the maps empty and no connection stored.  A cleanup
after that finds nothing to do.

The one return on the way is the last step: `Close` on a connection that the broker
has already closed is an error, and the cleanup returns it with the connection still
stored, so that the next cleanup meets the same error.  `staysShut` is the condition
that it does not come to that, and that no reconnect callback which a watcher begins
in the meantime puts back what the cleanup took away (`Shutdown.Final`).

`Progressed` lists what a cleanup has achieved by where it stands.
-/

import LynxRabbit.Shutdown.Drain
import LynxRabbit.Shutdown.Final

namespace LynxRabbit

open Runs

/-- A cleanup that has not come to its end. -/
def Thread.cleaning : Thread → Bool
  | .cleanup .canceled => false
  | .cleanup (.returned _) => false
  | .cleanup _ => true
  | _ => false

/-- No reconnect callback is being run or has just returned, and no startup, cleanup
or `ForceReconnect` is under way.  Watchers wait or are in their back-off, dispatch
loops, `Subscribe` calls and the health ticker are anywhere. -/
def Thread.resting : Thread → Bool
  | .watcher (.callback _ _) => false
  | .watcher (.established _) => false
  | .force .returned => true
  | .force _ => false
  | .startup (.returned _) => true
  | .startup _ => false
  | t => !t.cleaning

/-- Cleanups with a live context, one after the other, in which closing an open
connection succeeds; no startup and no `ForceReconnect`. -/
def closing (p : State) : Action → Bool
  | .run i o =>
    match p.threads[i]? with
    | some (.cleanup .enter) => o.err.isNone
    | some (.cleanup .closeConnection) => o.err.isNone
    | _ => true
  | .call .startup => false
  | .call .forceReconnect => false
  | .call .cleanup => p.threads.all fun t => !t.cleaning
  | _ => true

/-- No connection is stored, or an open one. -/
def Client.closable (s : Client) : Bool := s.connection.all fun c => !s.amqp.closed c

/-- `Close` is not called on a dead connection, and a callback that is run beside a
cleanup puts nothing back that is torn down and dereferences no nil connection. -/
def staysShut (p : State) : Thread → Bool
  | .cleanup .closeConnection => p.shared.closable
  | .watcher (.callback _ (.store _)) => !someCleanup CleanupWithContext.finished p
  | .watcher (.callback _ (.rebuild _ (.registerProducer _ _ :: _))) =>
    !someCleanup CleanupWithContext.emptiedProducers p
  | .watcher (.callback _ (.rebuild _ (.registerConsumer _ _ :: _))) =>
    !someCleanup CleanupWithContext.emptiedConsumers p
  | .watcher (.callback _ (.rebuild _ (i :: _))) => !i.opens || p.shared.connection.isSome
  | .watcher (.established _) => !p.shared.manager.stopped
  | _ => true

/-- The client is shut down. -/
structure ShutDown (s : Client) : Prop where
  closed : s.closed = true
  closeChan : s.closeChanClosed = true
  connection : s.connection = none
  producers : s.producers = ∅
  consumers : s.consumers = ∅
  health : s.health.stopped = true ∧ s.health.stopChanClosed = true
  manager : s.manager.stopped = true ∧ s.manager.stopChanClosed = true

/-! ### What a cleanup has achieved -/

/-- The steps a cleanup has behind it. -/
def CleanupWithContext.rank : CleanupWithContext → ℕ
  | .enter => 0
  | .canceled => 0
  | .publish => 1
  | .setClosed => 2
  | .closeCloseChan => 3
  | .stopHealth => 4
  | .stopManager => 5
  | .closeStopChan => 6
  | .waitSubscriptions => 7
  | .waitPool => 8
  | .closeConsumers => 9
  | .closeProducers => 10
  | .closeConnection => 11
  | .returned _ => 12

/-- The runtime, if there is one, was told that the client is neither ready nor
healthy. -/
def Client.Unready (s : Client) : Prop :=
  ∀ r, s.rt = some r → r = ⟨some false, some false, some false, some false⟩

/-- What the step at `pc` is for. -/
def CleanupWithContext.Done (s : Client) : CleanupWithContext → Prop
  | .publish => s.Unready
  | .setClosed => s.closed = true
  | .closeCloseChan => s.closeChanClosed = true
  | .stopHealth => s.health.stopped = true ∧ s.health.stopChanClosed = true
  | .stopManager => s.manager.stopped = true ∧ s.manager.connected = false
  | .closeStopChan => s.manager.stopChanClosed = true
  | .closeConsumers => s.consumers = ∅
  | .closeProducers => s.producers = ∅
  | .closeConnection => s.connection = none
  | _ => True

/-- What is behind a cleanup that stands at `pc` is done. -/
def Progressed (s : Client) (pc : CleanupWithContext) : Prop :=
  ∀ k : CleanupWithContext, k.rank < pc.rank → k.Done s

theorem Progressed.shutDown {s : Client} (h : Progressed s (.returned none)) : ShutDown s where
  closed := h .setClosed (by decide)
  closeChan := h .closeCloseChan (by decide)
  connection := h .closeConnection (by decide)
  producers := h .closeProducers (by decide)
  consumers := h .closeConsumers (by decide)
  health := h .stopHealth (by decide)
  manager := ⟨(h .stopManager (by decide)).1, h .closeStopChan (by decide)⟩

theorem CleanupWithContext.Done.of_rank_eq {s : Client} {k pc : CleanupWithContext}
    (h : pc.Done s) (hr : k.rank = pc.rank) : k.Done s := by
  cases k <;> cases pc <;> first | exact h | exact trivial | simp [rank] at hr

/-- One step further. -/
theorem Progressed.next {s : Client} {pc pc' : CleanupWithContext} (h : Progressed s pc)
    (hd : pc.Done s) (hr : pc'.rank ≤ pc.rank + 1) : Progressed s pc' := by
  intro k hk
  rcases Nat.lt_or_ge k.rank pc.rank with hlt | hge
  · exact h k hlt
  · exact hd.of_rank_eq (by omega)

/-- The signals of a shutdown, which nobody takes back. -/
structure SignalFrame (s s' : Client) : Prop where
  rt : s'.rt = s.rt
  closed : s'.closed = s.closed
  closeChan : s'.closeChanClosed = s.closeChanClosed
  health : s'.health.stopped = s.health.stopped ∧
    s'.health.stopChanClosed = s.health.stopChanClosed
  stopChan : s'.manager.stopChanClosed = s.manager.stopChanClosed

/-- **Nobody but a startup or a cleanup touches the signals.** -/
theorem Thread.Moves.signals {s s' : Client} {t t' : Thread} {o : Choice} {new : List Thread}
    (h : t.Moves s o s' t' new) (hs : t.isStartup = false) (hc : t.isCleanup = false) :
    SignalFrame s s' := by
  obtain ⟨b, c, P, K, L, n, m, f, r, x, hr, rfl⟩ := h.update hs hc
  exact ⟨rfl, rfl, rfl, hr, rfl⟩

theorem Client.unready_publish (s : Client) : (s.publishRuntimeContract false false).Unready := by
  intro r hr
  obtain ⟨r', -, rfl⟩ := Option.map_eq_some_iff.1 hr
  rfl

/-- Telling the runtime again changes nothing. -/
theorem Client.Unready.publish {s : Client} (h : s.Unready) :
    s.publishRuntimeContract false false = s := by
  have hrt : s.rt.map (fun _ => (⟨some false, some false, some false, some false⟩ :
      RuntimeContract)) = s.rt := by
    cases hr : s.rt with
    | none => rfl
    | some r => rw [h r hr]; rfl
  show ({ s with rt := _ } : Client) = s
  rw [hrt]

/-- **A cleanup only takes things down.** -/
theorem CleanupWithContext.Moves.keeps {s s' : Client} {o : Choice}
    {pc pc' k : CleanupWithContext} (h : pc.Moves s o s' pc') (hk : k.Done s) : k.Done s' := by
  cases h with
  | publish =>
      cases k with
      | publish => exact s.unready_publish
      | _ => exact hk
  | _ => cases k <;> first | exact hk | exact rfl | exact ⟨rfl, rfl⟩

/-- **A cleanup gets on.**  Each of its steps does what it is for, and it returns nil
with nothing left to close. -/
theorem CleanupWithContext.Moves.reaches {s s' : Client} {o : Choice}
    {pc pc' : CleanupWithContext} (h : pc.Moves s o s' pc') (hp : Progressed s pc)
    (hstop : s.manager.stopped = true → s.manager.stopChanClosed = true)
    (hret : ∀ e, pc' ≠ .returned (some e)) : Progressed s' pc' := by
  have hmono : Progressed s' pc := fun k hk => h.keeps (hp k hk)
  cases h with
  | cancel => exact fun k hk => absurd hk (Nat.not_lt_zero _)
  | stopManager =>
      have hdone : Done { s with manager := { s.manager with connected := false, stopped := true } }
        .stopManager := ⟨rfl, rfl⟩
      split_ifs with hst
      · have hchan : Progressed _ .closeStopChan := hmono.next hdone le_rfl
        exact hchan.next (hstop hst) le_rfl
      · exact hmono.next hdone le_rfl
  | publish => exact hmono.next s.unready_publish le_rfl
  | stopHealth => exact hmono.next ⟨rfl, rfl⟩ le_rfl
  | noConnection hc => exact hmono.next hc le_rfl
  | alreadyClosed e hc ho => exact absurd rfl (hret e)
  | closeFails e hc ho => exact absurd rfl (hret e)
  | enter => exact hmono.next trivial le_rfl
  | waitSubscriptions hw => exact hmono.next trivial le_rfl
  | waitPool => exact hmono.next trivial le_rfl
  | _ => exact hmono.next rfl le_rfl

/-! ### The others -/

/-- Not a startup or a `ForceReconnect` that is under way. -/
def Thread.outOfWay : Thread → Bool
  | .force .returned => true
  | .force _ => false
  | .startup (.returned _) => true
  | .startup _ => false
  | _ => true

/-- Whoever moves then is neither, and starts neither. -/
theorem Thread.Moves.outOfWay {s s' : Client} {t t' : Thread} {o : Choice} {new : List Thread}
    (h : t.Moves s o s' t' new) (ht : t.outOfWay = true) :
    t.isForce = false ∧ t.isStartup = false ∧ t'.outOfWay = true ∧
      ∀ u ∈ new, u.outOfWay = true := by
  have hnew : ∀ u ∈ new, u.outOfWay = true := by
    intro u hu
    obtain ⟨x, rfl⟩ := h.spawned u hu
    cases x <;> rfl
  cases h with
  | force h => cases h <;> cases ht
  | @startup pc _ _ _ h =>
      cases pc with
      | returned e =>
          cases h with
          | abort f e hf => cases hf
      | _ => cases ht
  | _ => exact ⟨rfl, rfl, rfl, hnew⟩

/-- What a goroutine is about to store, it stores before any cleanup has finished. -/
theorem Thread.storing_of_staysShut {p : State} {t : Thread} {c : ConnId}
    (h : t.storing = some c) (hf : t.isForce = false) (hs : t.isStartup = false)
    (hcond : staysShut p t = true) : someCleanup CleanupWithContext.finished p = false := by
  cases t with
  | watcher pc =>
      cases pc with
      | callback ms cb =>
          cases cb with
          | store c => simpa [staysShut] using hcond
          | _ => cases h
      | _ => cases h
  | force pc => cases hf
  | startup pc => cases hs
  | _ => cases h

/-- The maps beside a cleanup that has emptied them. -/
theorem Thread.Moves.keeps_maps {p : State} {t t' : Thread} {o : Choice} {new : List Thread}
    {s' : Client} (ht : t.Moves p.shared o s' t' new) (hout : t.outOfWay = true)
    (hc : t.isCleanup = false) (hcond : staysShut p t = true) {pc : CleanupWithContext}
    (hm : .cleanup pc ∈ p.threads) :
    (pc.emptiedConsumers = true → p.shared.consumers = ∅ → s'.consumers = ∅) ∧
      (pc.emptiedProducers = true → p.shared.producers = ∅ → s'.producers = ∅) := by
  have hcb : ∀ {ms cb q sp}, t = .watcher (.callback ms cb) → cb.Moves p.shared o s' q sp →
      (pc.emptiedConsumers = true → p.shared.consumers = ∅ → s'.consumers = ∅) ∧
      (pc.emptiedProducers = true → p.shared.producers = ∅ → s'.producers = ∅) := by
    rintro ms cb q sp rfl hmv
    refine ⟨fun he => stays_empty hmv.maps.2 ?_ hm he, fun he => stays_empty hmv.maps.1 ?_ hm he⟩
    · rintro ⟨c, name, ch, rest, rfl⟩
      rwa [staysShut, Bool.not_eq_true'] at hcond
    · rintro ⟨c, name, ch, rest, rfl⟩
      rwa [staysShut, Bool.not_eq_true'] at hcond
  obtain ⟨hf, hs, -, -⟩ := ht.outOfWay hout
  by_cases hcall : t.callback? = none
  · have hsu : t.startingUp = false := by
      cases t with
      | startup pc => cases hs
      | _ => rfl
    obtain ⟨-, hP, hC⟩ := ht.calm hcall hsu hc
    exact ⟨fun _ h => hC.trans h, fun _ h => hP.trans h⟩
  · cases ht with
    | watcher h =>
        cases h with
        | callback ms hmv => exact hcb rfl hmv
        | success ms hmv => exact hcb rfl hmv
        | failure ms f hf => exact ⟨fun _ h => h, fun _ h => h⟩
        | panic ms c rest hi hc => exact ⟨fun _ h => h, fun _ h => h⟩
        | _ => exact absurd rfl hcall
    | force h => cases hf
    | _ => exact absurd rfl hcall

/-- **Nobody undoes what a cleanup has done**, where the condition is met. -/
theorem Thread.Moves.keeps {p : State} {t t' : Thread} {o : Choice} {new : List Thread}
    {s' : Client} (ht : t.Moves p.shared o s' t' new) (hout : t.outOfWay = true)
    (hc : t.isCleanup = false) (hcond : staysShut p t = true) {pc k : CleanupWithContext}
    (hm : .cleanup pc ∈ p.threads) (hk : k.rank < pc.rank) (hd : k.Done p.shared) :
    k.Done s' := by
  obtain ⟨hf, hs, -, -⟩ := ht.outOfWay hout
  have hsig := ht.signals hs hc
  have hmaps := ht.keeps_maps hout hc hcond hm
  cases k with
  | publish =>
      intro r hr
      exact hd r (hsig.rt.symm.trans hr)
  | setClosed => exact hsig.closed.trans hd
  | closeCloseChan => exact hsig.closeChan.trans hd
  | stopHealth => exact ⟨hsig.health.1.trans hd.1, hsig.health.2.trans hd.2⟩
  | closeStopChan => exact hsig.stopChan.trans hd
  | stopManager =>
      obtain ⟨hst, hco⟩ := ht.flag ⟨hf, hc⟩
      refine ⟨hst.trans hd.1, ?_⟩
      rcases hco with hco | hco | rfl | ⟨c, rfl⟩
      · exact hco.trans hd.2
      · exact hco
      · cases hs
      · rw [staysShut, hd.1] at hcond
        cases hcond
  | closeConsumers =>
      refine hmaps.1 ?_ hd
      cases pc <;> first | rfl | simp [CleanupWithContext.rank] at hk
  | closeProducers =>
      refine hmaps.2 ?_ hd
      cases pc <;> first | rfl | simp [CleanupWithContext.rank] at hk
  | closeConnection =>
      have hfin : pc.finished = true := by
        cases pc <;> first | rfl | simp [CleanupWithContext.rank] at hk
      -- a connection that is stored then was in flight
      show s'.connection = none
      cases hcc : s'.connection with
      | none => rfl
      | some c =>
          rcases ht.connection_cases hcc with h | h
          · rw [show p.shared.connection = none from hd] at h
            cases h
          · have hnone := Thread.storing_of_staysShut h hf hs hcond
            rw [someCleanup_eq_false hnone hm] at hfin
            cases hfin
  | _ => trivial

/-- A nil dereference is left out. -/
theorem Thread.Moves.alive {p : State} {t t' : Thread} {o : Choice} {new : List Thread}
    {s' : Client} (ht : t.Moves p.shared o s' t' new) (hout : t.outOfWay = true)
    (hcond : staysShut p t = true) : s'.panicked = p.shared.panicked := by
  obtain ⟨hf, hs, -, -⟩ := ht.outOfWay hout
  cases ht with
  | watcher h =>
      cases h with
      | callback ms hm => exact hm.frame.panicked
      | success ms hm => exact hm.frame.panicked
      | @panic ms c i rest hi hc =>
          have hsome : p.shared.connection.isSome = true := by
            cases i <;> simp_all [staysShut, SetupStep.opens]
          rw [hc] at hsome
          cases hsome
      | _ => rfl
  | force h => cases hf
  | startup h => cases hs
  | subscribe id h => exact h.sameCore.1.panicked
  | loop l h => exact h.sameCore.panicked
  | cleanup h => cases h <;> rfl
  | health h => exact (HealthRun.step_sameCore h).panicked

/-! ### Every run -/

/-- Once the manager is stopped its stop channel is closed, or the cleanup that
stopped it is about to close it. -/
def StopsChan (p : State) : Prop :=
  p.shared.manager.stopped = true →
    p.shared.manager.stopChanClosed = true ∨ .cleanup .closeStopChan ∈ p.threads

theorem StopsChan.step {p p' : State} {a : Action} (hi : StopsChan p) (h : Moves p a p') :
    StopsChan p' := by
  cases h with
  | @run i o l r new t t' s' hl hix ht =>
      intro hst
      have hmem : ∀ {u}, u ∈ p.threads → u ≠ t → u ∈ l ++ t' :: r ++ new := fun hu hne =>
        mem_focus_of_others ((eq_or_mem_others (hl ▸ hu)).resolve_left hne) t' new
      by_cases hc : t.isCleanup = true
      · cases ht with
        | cleanup h =>
            cases h with
            | stopManager =>
                by_cases hs : p.shared.manager.stopped = true
                · exact (hi hs).imp_right fun hm => hmem hm fun he => by cases he
                · right
                  rw [if_neg hs]
                  exact mem_focus_moved l r _ _
            | closeStopChan => exact .inl rfl
            | _ => exact (hi hst).imp_right fun hm => hmem hm fun he => by cases he
        | _ => cases hc
      · have hsame := ht.stopSignals (by simpa using hc)
        rw [hsame.1] at hst
        rcases hi hst with h | h
        · exact .inl (hsame.2.trans h)
        · exact .inr (hmem h fun he => hc (he ▸ rfl))
  | drop hc ho => exact hi
  | call k => exact fun hst => (hi hst).imp_right fun hm => List.mem_append_left _ hm
  | cancel id => exact hi

/-- The invariant of the runs from a state with `n` goroutines in which none of them is
a cleanup under way. -/
structure ClosingInv (n : ℕ) (p : State) : Prop where
  alive : p.shared.panicked = false
  counted : Counted p
  stopsChan : StopsChan p
  outOfWay : ∀ t ∈ p.threads, t.outOfWay = true
  single : p.threads.countP Thread.cleaning ≤ 1
  old : ∀ i t, i < n → p.threads[i]? = some t → t.cleaning = false
  reached : ∀ i pc, n ≤ i → p.threads[i]? = some (.cleanup pc) →
    Progressed p.shared pc ∧ pc ≠ .canceled ∧ ∀ e, pc ≠ .returned (some e)

theorem Thread.cleaning_of_moves {s s' : Client} {t t' : Thread} {o : Choice} {new : List Thread}
    (h : t.Moves s o s' t' new) :
    (t'.cleaning = true → t.cleaning = true) ∧ new.countP Thread.cleaning = 0 ∧
      (t.isCleanup = true → t.cleaning = true) := by
  refine ⟨fun hc => ?_, ?_, fun hc => ?_⟩
  · cases h with
    | cleanup h => cases h <;> rfl
    | _ => cases hc
  · rw [List.countP_eq_zero]
    intro u hu
    obtain ⟨x, rfl⟩ := h.spawned u hu
    cases x <;> exact Bool.false_ne_true
  · cases h with
    | cleanup h => cases h <;> rfl
    | _ => cases hc

/-- The manager's stop channel is closed once the manager is stopped, when no other
cleanup is under way. -/
theorem ClosingInv.stopChan {n : ℕ} {p : State} (hi : ClosingInv n p) {l r : List Thread}
    {t : Thread} (hl : p.threads = l ++ t :: r) (hc : t.cleaning = true)
    (hne : t ≠ .cleanup .closeStopChan) (hst : p.shared.manager.stopped = true) :
    p.shared.manager.stopChanClosed = true := by
  rcases hi.stopsChan hst with h | h
  · exact h
  · have hsingle := hi.single
    rw [hl] at hsingle h
    rcases eq_or_mem_others h with h | h
    · exact absurd h.symm hne
    · have := not_of_countP_le_one hsingle hc h
      cases this

/-- A cleanup with a live context is not refused, and one that finds no connection or
an open one, which it can close, returns nil. -/
theorem CleanupWithContext.step_live {s s' : Client} {o : Choice} {pc pc' : CleanupWithContext}
    (h : pc.step s o = some (s', pc'))
    (ho : pc = .enter ∨ pc = .closeConnection → o.err = none)
    (hclose : pc = .closeConnection → s.closable = true) :
    pc' ≠ .canceled ∧ ∀ e, pc' ≠ .returned (some e) := by
  cases pc with
  | enter =>
      rw [CleanupWithContext.step, ho (.inl rfl)] at h
      cases h
      simp
  | closeConnection =>
      rw [CleanupWithContext.step] at h
      have hcl := hclose rfl
      split at h
      · cases h
        simp
      · rename_i c hc
        rw [Client.closable, hc, Option.all_some, Bool.not_eq_true'] at hcl
        rw [hcl, if_neg Bool.false_ne_true, ho (.inr rfl)] at h
        cases h
        simp
  | stopManager =>
      cases h
      split_ifs <;> simp
  | waitSubscriptions =>
      rw [CleanupWithContext.step] at h
      split_ifs at h
      cases h
      simp
  | canceled => cases h
  | returned e => cases h
  | _ =>
      cases h
      simp

/-- A cleanup that moves stays on its way to a nil return. -/
theorem ClosingInv.reached_cleanup {n i : ℕ} {p : State} {l r : List Thread} {o : Choice}
    {s' : Client} {pc pc' : CleanupWithContext} (hi : ClosingInv n p)
    (hl : p.threads = l ++ .cleanup pc :: r) (hix : p.threads[i]? = some (.cleanup pc)) (hn : n ≤ i)
    (hstep : pc.step p.shared o = some (s', pc')) (hg : closing p (.run i o) = true)
    (hcond : staysShut p (.cleanup pc) = true) :
    Progressed s' pc' ∧ pc' ≠ .canceled ∧ ∀ e, pc' ≠ .returned (some e) := by
  have hm := CleanupWithContext.moves_of_step hstep
  have hcl : (Thread.cleanup pc).cleaning = true := by cases hm <;> rfl
  have hlive : pc = .enter ∨ pc = .closeConnection → o.err = none := by
    rw [closing, hix] at hg
    rintro (rfl | rfl) <;> exact Option.isNone_iff_eq_none.1 hg
  obtain ⟨hcan, hret⟩ := CleanupWithContext.step_live hstep hlive
    fun hpc => by subst hpc; exact hcond
  refine ⟨?_, hcan, hret⟩
  by_cases hpc : pc = .closeStopChan
  · subst hpc
    have hkept : Progressed s' .closeStopChan := fun k hk =>
      hm.keeps ((hi.reached i _ hn hix).1 k hk)
    cases hm
    exact hkept.next rfl le_rfl
  · exact hm.reaches (hi.reached i pc hn hix).1
      (hi.stopChan hl hcl fun he => hpc (Thread.cleanup.inj he)) hret

/-- **A step of a goroutine keeps the invariant.** -/
theorem ClosingInv.run {n i : ℕ} {p : State} {l r new : List Thread} {t t' : Thread} {o : Choice}
    {s' : Client} (hi : ClosingInv n p) (hl : p.threads = l ++ t :: r) (hlen : l.length = i)
    (hix : p.threads[i]? = some t) (hstep : t.step p.shared o = some (s', t', new))
    (hg : closing p (.run i o) = true) (hcond : staysShut p t = true) :
    (∀ u ∈ l ++ t' :: r ++ new, u.outOfWay = true) ∧
      (l ++ t' :: r ++ new).countP Thread.cleaning ≤ 1 ∧
      (∀ j u, j < n → (l ++ t' :: r ++ new)[j]? = some u → u.cleaning = false) ∧
      ∀ j pc, n ≤ j → (l ++ t' :: r ++ new)[j]? = some (.cleanup pc) →
        Progressed s' pc ∧ pc ≠ .canceled ∧ ∀ e, pc ≠ .returned (some e) := by
  have ht := Thread.moves_of_step hstep
  have hmem : t ∈ p.threads := hl ▸ mem_focus_self l r t
  have hout := hi.outOfWay t hmem
  obtain ⟨hf, hs, hout', hnew⟩ := ht.outOfWay hout
  obtain ⟨hcl, hcn, hcc⟩ := Thread.cleaning_of_moves ht
  refine ⟨forall_focus (hl ▸ hi.outOfWay) (fun u _ hu => hu) hout' hnew, ?_, ?_, ?_⟩
  · have hfocus := countP_focus l r new t t' Thread.cleaning
    have hsingle := hi.single
    have hle : t'.cleaning.toNat ≤ t.cleaning.toNat := by
      cases h' : t'.cleaning with
      | false => exact Nat.zero_le _
      | true => rw [hcl h']
    rw [hl] at hsingle
    omega
  · intro j u hj hu
    rcases getElem?_focus_cases hu t with ⟨rfl, rfl⟩ | ⟨-, hold⟩ | ⟨-, hu⟩
    · have hfalse := hi.old _ t hj (hlen ▸ hix)
      by_contra hc
      rw [hcl (by simpa using hc)] at hfalse
      cases hfalse
    · exact hi.old j u hj (hl ▸ hold)
    · by_contra hc
      exact List.countP_eq_zero.1 hcn u hu (by simpa using hc)
  · intro j pc hj hpc
    rcases getElem?_focus_cases hpc t with ⟨rfl, rfl⟩ | ⟨-, hold⟩ | ⟨-, hu⟩
    · cases t with
      | cleanup pc₀ =>
          obtain ⟨q, hq, he⟩ := Option.map_eq_some_iff.1 hstep
          cases he
          rw [hlen] at hj
          exact hi.reached_cleanup hl hix hj hq hg hcond
      | _ => cases ht
    · have hin : .cleanup pc ∈ p.threads := List.mem_of_getElem? (hl ▸ hold)
      obtain ⟨hp, hrest⟩ := hi.reached j pc hj (hl ▸ hold)
      refine ⟨fun k hk => ?_, hrest⟩
      by_cases hc : t.isCleanup = true
      · cases ht with
        | cleanup h => exact h.keeps (hp k hk)
        | _ => cases hc
      · exact ht.keeps hout (by simpa using hc) hcond hin hk (hp k hk)
    · obtain ⟨x, hx⟩ := ht.spawned _ hu
      cases x <;> cases hx

/-- The broker and the callers' contexts are not part of it. -/
theorem CleanupWithContext.Done.outside {s : Client} {k : CleanupWithContext} (h : k.Done s)
    (b : Broker) (f : ℕ → Bool) : k.Done { s with amqp := b, cancelled := f } := by
  cases k <;> exact h

theorem ClosingInv.outside {n : ℕ} {p : State} (hi : ClosingInv n p) (b : Broker) (f : ℕ → Bool) :
    ClosingInv n ⟨{ p.shared with amqp := b, cancelled := f }, p.threads⟩ where
  alive := hi.alive
  counted := hi.counted
  stopsChan := hi.stopsChan
  outOfWay := hi.outOfWay
  single := hi.single
  old := hi.old
  reached i pc hn hix :=
    ⟨fun k hk => ((hi.reached i pc hn hix).1 k hk).outside b f, (hi.reached i pc hn hix).2⟩

/-- A call keeps the invariant. -/
theorem ClosingInv.call {n : ℕ} {p : State} (hi : ClosingInv n p) (hn : n ≤ p.threads.length)
    (k : Call) (hg : closing p (.call k) = true) :
    ClosingInv n ⟨p.shared, p.threads ++ [k.thread p.threads.length]⟩ := by
  have hcounted := hi.counted.step (.call k)
  have hstops := hi.stopsChan.step (.call k)
  have hfocus := countP_snoc p.threads (k.thread p.threads.length) Thread.cleaning
  refine ⟨hi.alive, hcounted, hstops,
    List.forall_mem_append.2 ⟨hi.outOfWay, List.forall_mem_singleton.2 ?_⟩, ?_, ?_, ?_⟩
  · cases k <;> first | rfl | cases hg
  · show (p.threads ++ [_]).countP Thread.cleaning ≤ 1
    rw [hfocus]
    cases k with
    | cleanup =>
        have hnone : p.threads.countP Thread.cleaning = 0 := by
          rw [List.countP_eq_zero]
          intro u hu
          have := List.all_eq_true.1 hg u hu
          simpa using this
        rw [hnone]
        exact le_rfl
    | _ => exact hi.single
  · intro j u hj hu
    rw [List.getElem?_append_left (Nat.lt_of_lt_of_le hj hn)] at hu
    exact hi.old j u hj hu
  · intro j pc hj hpc
    rcases Nat.lt_or_ge j p.threads.length with hlt | hge
    · rw [List.getElem?_append_left hlt] at hpc
      exact hi.reached j pc hj hpc
    · have hmem := List.mem_of_getElem? (List.getElem?_append_right hge ▸ hpc)
      -- a new cleanup has done nothing yet
      cases k <;> cases List.mem_singleton.1 hmem
      refine ⟨fun k hk => absurd hk (Nat.not_lt_zero _), ?_⟩
      simp

/-- **Every step keeps the invariant.** -/
theorem ClosingInv.step {n : ℕ} {p p' : State} {a : Action} (hi : ClosingInv n p)
    (hn : n ≤ p.threads.length) (hg : both closing (onRun staysShut) p a = true)
    (h : step p a = some p') : ClosingInv n p' ∧ n ≤ p'.threads.length := by
  obtain ⟨hclosing, hcond⟩ := both_iff.1 hg
  have hm := (moves_of_step h).2
  have hcounted := hi.counted.step hm
  have hstops := hi.stopsChan.step hm
  cases hm with
  | run =>
      obtain ⟨l, t, r, s', t', new, hl, hlen, hix, hstep, he⟩ := step_run_focus h
      have hc := onRun_run hcond hix
      obtain ⟨hout, hsingle, hold, hreached⟩ := hi.run hl hlen hix hstep hclosing hc
      have halive := (Thread.moves_of_step hstep).alive
        (hi.outOfWay t (hl ▸ mem_focus_self l r t)) hc
      rw [he] at hcounted hstops ⊢
      refine ⟨⟨halive.trans hi.alive, hcounted, hstops, hout, hsingle, hold, hreached⟩, ?_⟩
      rw [hl] at hn
      simp only [List.length_append, List.length_cons] at hn ⊢
      omega
  | drop hc ho => exact ⟨hi.outside _ _, hn⟩
  | call k =>
      refine ⟨hi.call hn k hclosing, ?_⟩
      rw [List.length_append]
      exact Nat.le_add_right_of_le hn
  | cancel id => exact ⟨hi.outside _ _, hn⟩

/-- The state the runs start from. -/
theorem closingInv_of_resting {p : State} (halive : p.shared.panicked = false)
    (hcounted : Counted p) (hstops : StopsChan p) (hrest : p.threads.all Thread.resting = true) :
    ClosingInv p.threads.length p := by
  have hrest : ∀ t ∈ p.threads, t.resting = true := List.all_eq_true.1 hrest
  have hidle : ∀ t ∈ p.threads, t.cleaning = false := by
    intro t ht
    have h := hrest t ht
    cases t with
    | cleanup pc => simpa [Thread.resting] using h
    | _ => rfl
  refine ⟨halive, hcounted, hstops, fun t ht => ?_, ?_, fun i t _ ht => ?_, fun i pc hn hix => ?_⟩
  · have h := hrest t ht
    cases t with
    | force pc => cases pc <;> first | rfl | cases h
    | startup pc => cases pc <;> first | rfl | cases h
    | _ => rfl
  · rw [List.countP_eq_zero.2 fun t ht => by rw [hidle t ht]; exact Bool.false_ne_true]
    exact Nat.zero_le 1
  · exact hidle t (List.mem_of_getElem? ht)
  · obtain ⟨hlt, -⟩ := List.getElem?_eq_some_iff.1 hix
    omega

/-! ### A cleanup can be brought to its end -/

/-- The steps a dispatch loop still has to make, at most, when `closeChan` is closed. -/
def LoopPc.weight : LoopPc → ℕ
  | .returned => 0
  | .finishing => 1
  | .closing => 2
  | .select => 3
  | .settling _ => 4
  | .handling => 5

/-- The same of the goroutines a cleanup waits for, and of the cleanup. -/
def Thread.weight : Thread → ℕ
  | .loop _ pc => pc.weight
  | .cleanup pc => 12 - pc.rank
  | _ => 0

/-- A loop that has not returned can make a step towards its end. -/
theorem LoopPc.exists_step {s : Client} (l : Loop) {pc : LoopPc} (hpc : pc ≠ .returned)
    (hc : s.closeChanClosed = true) :
    ∃ o s' pc', pc.step s o l = some (s', pc') ∧ pc'.weight < pc.weight ∧
      s'.closable = s.closable := by
  cases pc with
  | select => exact ⟨.stop, s, .closing, by rw [LoopPc.step, hc]; rfl, by decide, rfl⟩
  | handling =>
      refine ⟨.ok, _, _, rfl, ?_, rfl⟩
      cases l.autoAck <;> decide
  | settling failed => exact ⟨.ok, _, _, rfl, Nat.lt_succ_self 3, rfl⟩
  | closing => exact ⟨.ok, _, _, rfl, by decide, rfl⟩
  | finishing => exact ⟨.ok, _, _, rfl, by decide, rfl⟩
  | returned => exact absurd rfl hpc

/-- A cleanup that is under way can make its next step, once the loops are gone. -/
theorem CleanupWithContext.exists_step {s : Client} {pc : CleanupWithContext}
    (hpc : pc ≠ .canceled) (hret : ∀ e, pc ≠ .returned e)
    (hwait : pc = .waitSubscriptions → s.subscriptionWG = 0) (hclose : s.closable = true) :
    ∃ s' pc', pc.step s .ok = some (s', pc') ∧ 12 - pc'.rank < 12 - pc.rank ∧
      s'.closable = true := by
  cases pc with
  | waitSubscriptions => exact ⟨s, .waitPool, if_pos (hwait rfl), by decide, hclose⟩
  | stopManager =>
      refine ⟨_, _, rfl, ?_, hclose⟩
      split_ifs <;> decide
  | closeConnection =>
      cases hc : s.connection with
      | none => exact ⟨s, .returned none, by rw [step, hc], by decide, hclose⟩
      | some c =>
          have ho : s.amqp.closed c = false := by
            rw [Client.closable, hc] at hclose
            simpa using hclose
          refine ⟨{ s with amqp := s.amqp.shutdown c, connection := none }, .returned none, ?_,
            by decide, rfl⟩
          rw [step, hc]
          simp only [ho, Bool.false_eq_true, if_false]
          rfl
  | canceled => exact absurd rfl hpc
  | returned e => exact absurd rfl (hret e)
  | _ => exact ⟨_, _, rfl, by decide, hclose⟩

/-- Cleanup `i` is under way or at its end, and what it will close can be closed. -/
structure Underway (n i : ℕ) (p : State) : Prop where
  inv : ClosingInv n p
  new : n ≤ p.threads.length
  closable : p.shared.closable = true
  call : ∃ pc, p.threads[i]? = some (.cleanup pc)

/-- A step that a goroutine can take towards the end of cleanup `i`. -/
theorem Underway.advance {n i : ℕ} {p : State} (hu : Underway n i p) {l r : List Thread}
    {t t' : Thread} {o : Choice} {s' : Client} (hl : p.threads = l ++ t :: r)
    (hstep : t.step p.shared o = some (s', t', []))
    (hclosing : closing p (.run l.length o) = true) (hcond : staysShut p t = true)
    (hclose : s'.closable = true) (hweight : t'.weight < t.weight)
    (hcall : ∃ pc, (l ++ t' :: r)[i]? = some (.cleanup pc)) :
    ∃ a q, both closing (onRun staysShut) p a = true ∧ step p a = some q ∧ Underway n i q ∧
      (q.threads.map Thread.weight).sum < (p.threads.map Thread.weight).sum := by
  have hix : p.threads[l.length]? = some t := by rw [hl]; simp
  have hg : both closing (onRun staysShut) p (.run l.length o) = true :=
    both_iff.2 ⟨hclosing, by rw [onRun, hix]; exact hcond⟩
  have hs := step_of_focus hu.inv.alive hl hstep
  obtain ⟨hinv, hnew⟩ := hu.inv.step hu.new hg hs
  refine ⟨_, _, hg, hs, ⟨hinv, hnew, hclose, ?_⟩, ?_⟩
  · rwa [List.append_nil]
  · have hsum := sum_focus l r [] t t' Thread.weight
    rw [List.map_nil, List.sum_nil] at hsum
    rw [hl]
    show ((l ++ t' :: r ++ []).map Thread.weight).sum < _
    omega

/-- A cleanup that waits for the loops: one of them is still there, and its `select`
finds `closeChan` closed. -/
theorem Underway.exists_step_loop {n i : ℕ} {p : State} (hu : Underway n i p)
    (hpc : p.threads[i]? = some (.cleanup .waitSubscriptions))
    (hclosed : p.shared.closeChanClosed = true) (hwg : p.shared.subscriptionWG ≠ 0) :
    ∃ a q, both closing (onRun staysShut) p a = true ∧ step p a = some q ∧ Underway n i q ∧
      (q.threads.map Thread.weight).sum < (p.threads.map Thread.weight).sum := by
  rw [hu.inv.counted] at hwg
  obtain ⟨t, ht, hrun⟩ := List.countP_pos_iff.1 (Nat.pos_of_ne_zero hwg)
  obtain ⟨l, r, hl⟩ := List.append_of_mem ht
  cases t with
  | loop k lpc =>
      have hlpc : lpc ≠ .returned := by simpa [Thread.running] using hrun
      obtain ⟨o, s', lpc', hstep, hlt, hclose⟩ := LoopPc.exists_step k hlpc hclosed
      have hix : p.threads[l.length]? = some (.loop k lpc) := by rw [hl]; simp
      have hmove : (Thread.loop k lpc).step p.shared o = some (s', .loop k lpc', []) := by
        rw [Thread.step, hstep]
        rfl
      refine hu.advance hl hmove ?_ rfl (hclose.trans hu.closable) hlt ⟨.waitSubscriptions, ?_⟩
      · rw [closing, hix]
      · have hne : i ≠ l.length := by
          rintro rfl
          rw [hix] at hpc
          cases hpc
        have := getElem?_focus_of_ne (hl ▸ hpc) hne (.loop k lpc') []
        rwa [List.append_nil] at this
  | _ => cases hrun

/-- **A cleanup that has not returned can be brought on.** -/
theorem Underway.exists_step {n i : ℕ} {p : State} (hn : n ≤ i) (hu : Underway n i p)
    (hdone : p.threads[i]? ≠ some (.cleanup (.returned none))) :
    ∃ a q, both closing (onRun staysShut) p a = true ∧ step p a = some q ∧ Underway n i q ∧
      (q.threads.map Thread.weight).sum < (p.threads.map Thread.weight).sum := by
  obtain ⟨pc, hpc⟩ := hu.call
  obtain ⟨hp, hcan, herr⟩ := hu.inv.reached i pc hn hpc
  have hret : ∀ e, pc ≠ .returned e := by
    rintro (_ | e) rfl
    · exact hdone hpc
    · exact herr e rfl
  by_cases hwait : pc = .waitSubscriptions ∧ p.shared.subscriptionWG ≠ 0
  · obtain ⟨rfl, hwg⟩ := hwait
    exact hu.exists_step_loop hpc (hp .closeCloseChan (by decide)) hwg
  · have hgo : pc = .waitSubscriptions → p.shared.subscriptionWG = 0 := by
      intro h
      by_contra hwg
      exact hwait ⟨h, hwg⟩
    obtain ⟨s', pc', hstep, hlt, hclose⟩ :=
      CleanupWithContext.exists_step hcan hret hgo hu.closable
    obtain ⟨l, r, hl, hlen⟩ := exists_focus hpc
    have hmove : (Thread.cleanup pc).step p.shared .ok = some (s', .cleanup pc', []) := by
      rw [Thread.step, hstep]
      rfl
    refine hu.advance hl hmove ?_ ?_ hclose hlt ⟨pc', by rw [← hlen]; simp⟩
    · rw [closing, hlen, hpc]
      split <;> rfl
    · cases pc <;> first | rfl | exact hu.closable

/-! ### Converging -/

theorem Broker.closeAll_empty (b : Broker) : b.closeAll ∅ = b := by
  show ({ b with chanClosed := fun i => b.chanClosed i || false } : Broker) = b
  simp only [Bool.or_false]

/-- **A cleanup of a client that is shut down changes nothing.** -/
theorem CleanupWithContext.Moves.idle {s s' : Client} {o : Choice} {pc pc' : CleanupWithContext}
    (h : pc.Moves s o s' pc') (hp : Progressed s (.returned none)) : s' = s := by
  cases h with
  | publish => exact Client.Unready.publish (hp .publish (by decide))
  | setClosed =>
      rw [← show s.closed = true from hp .setClosed (by decide)]
  | closeCloseChan =>
      rw [← show s.closeChanClosed = true from hp .closeCloseChan (by decide)]
  | stopHealth =>
      obtain ⟨h₁, h₂⟩ := hp .stopHealth (by decide)
      have he : { s.health with stopChanClosed := true, stopped := true } = s.health := by
        cases hh : s.health
        simp_all
      rw [he]
  | stopManager =>
      obtain ⟨h₁, h₂⟩ := hp .stopManager (by decide)
      have he : { s.manager with connected := false, stopped := true } = s.manager := by
        cases hm : s.manager
        simp_all
      rw [he]
  | closeStopChan =>
      rw [← show s.manager.stopChanClosed = true from hp .closeStopChan (by decide)]
  | closeConsumers =>
      have he : s.consumers = ∅ := hp .closeConsumers (by decide)
      rw [he, Broker.closeAll_empty, ← he]
  | closeProducers =>
      have he : s.producers = ∅ := hp .closeProducers (by decide)
      rw [he, Broker.closeAll_empty, ← he]
  | closeFails e hc ho =>
      rw [show s.connection = none from hp .closeConnection (by decide)] at hc
      cases hc
  | close hc ho he =>
      rw [show s.connection = none from hp .closeConnection (by decide)] at hc
      cases hc
  | _ => rfl

/-- **Cleanup converges and is idempotent.**  From every reachable state in which no
reconnect callback is being executed and no startup or cleanup is under way, in every
run of cleanups with a live context whose steps meet the condition: a cleanup that has
returned has returned nil and left the client shut down; one that has not can be
brought to that end while what it has to close is open; and after the first one no
step of a cleanup changes anything. -/
theorem cleanup_converges (cfg : RabbitMQ) (p₀ p : State) (h₀ : Run step always (fresh cfg) p₀)
    (hrest : p₀.threads.all Thread.resting = true)
    (hr : Run step (both closing (onRun staysShut)) p₀ p) :
    (∀ i err, p₀.threads.length ≤ i → p.threads[i]? = some (.cleanup (.returned err)) →
      err = none ∧ ShutDown p.shared) ∧
    (∀ i pc, p₀.threads.length ≤ i → p.threads[i]? = some (.cleanup pc) →
      p.shared.closable = true →
      ∃ q, Run step (both closing (onRun staysShut)) p q ∧
        q.threads[i]? = some (.cleanup (.returned none)) ∧ ShutDown q.shared) ∧
    ∀ i j pc o q, p₀.threads.length ≤ i → p.threads[i]? = some (.cleanup (.returned none)) →
      p.threads[j]? = some (.cleanup pc) → step p (.run j o) = some q → q.shared = p.shared := by
  have hcounted : Counted p₀ :=
    h₀.invariant (I := Counted) rfl fun _ _ _ hi _ h => hi.step (moves_of_step h).2
  have hstops : StopsChan p₀ :=
    h₀.invariant (I := StopsChan) nofun fun _ _ _ hi _ h => hi.step (moves_of_step h).2
  have hinv : (ClosingInv p₀.threads.length p ∧ p₀.threads.length ≤ p.threads.length) ∨
      p = p₀ := by
    by_cases halive : p₀.shared.panicked = true
    · -- the process is gone, and no step is enabled
      refine .inr (hr.invariant (I := fun p => p = p₀) rfl fun t a u hi _ h => ?_)
      subst hi
      rw [(moves_of_step h).1] at halive
      cases halive
    · refine .inl (hr.invariant (I := fun p => ClosingInv p₀.threads.length p ∧
        p₀.threads.length ≤ p.threads.length) ⟨closingInv_of_resting (by simpa using halive)
        hcounted hstops hrest, le_rfl⟩ fun t a u hi hg h => hi.1.step hi.2 hg h)
  have hnew : ∀ {i t}, p₀.threads.length ≤ i → p.threads[i]? = some t →
      ClosingInv p₀.threads.length p ∧ p₀.threads.length ≤ p.threads.length := by
    intro i t hn hix
    rcases hinv with h | rfl
    · exact h
    · obtain ⟨hlt, -⟩ := List.getElem?_eq_some_iff.1 hix
      omega
  refine ⟨fun i err hn hix => ?_, fun i pc hn hix hclose => ?_,
    fun i j pc o q hn hix hj hstep => ?_⟩
  · obtain ⟨hi, -⟩ := hnew hn hix
    obtain ⟨hp, -, herr⟩ := hi.reached i _ hn hix
    cases err with
    | none => exact ⟨rfl, hp.shutDown⟩
    | some e => exact absurd rfl (herr e)
  · obtain ⟨hi, hle⟩ := hnew hn hix
    obtain ⟨q, hrun, hu, hdone⟩ := exists_run_of_measure (I := Underway p₀.threads.length i)
      (D := fun q => q.threads[i]? = some (.cleanup (.returned none)))
      (fun q => (q.threads.map Thread.weight).sum) (fun q hu hd => hu.exists_step hn hd)
      ⟨hi, hle, hclose, pc, hix⟩
    exact ⟨q, hrun, hdone, (hu.inv.reached i _ hn hdone).1.shutDown⟩
  · obtain ⟨hi, -⟩ := hnew hn hix
    obtain ⟨l, t, r, s', t', new, hl, hlen, hjt, ht, rfl⟩ := step_run_focus hstep
    obtain rfl := Option.some.inj (hj.symm.trans hjt)
    cases Thread.moves_of_step ht with
    | cleanup h => exact h.idle (hi.reached i _ hn hix).1

/-- The schedule `as` under guard `g` from the state that `as₀` leads to. -/
theorem exists_runs_of_replay (cfg : RabbitMQ) (g : State → Action → Bool) (R : State → Bool)
    (P : ℕ → State → Bool) (as₀ as : List Action)
    (h : (replay step always (fresh cfg) as₀).any (fun p₀ => R p₀ &&
      (replay step g p₀ as).any (P p₀.threads.length)) = true) :
    ∃ p₀ p, Run step always (fresh cfg) p₀ ∧ R p₀ = true ∧ Run step g p₀ p ∧
      P p₀.threads.length p = true := by
  obtain ⟨p₀, h₀, hp₀⟩ := exists_run_of_replay step always (fresh cfg) _ as₀ h
  obtain ⟨hR, hrest⟩ := Bool.and_eq_true_iff.1 hp₀
  obtain ⟨p, hr, hp⟩ := exists_run_of_replay step g p₀ _ as hrest
  exact ⟨p₀, p, h₀, hR, hr, hp⟩

/-- A running client with a dispatch loop in its handler, cleaned up twice. -/
theorem cleanup_converges_twice :
    ∃ p₀ p, Run step always (fresh defaultRabbitMQConfig) p₀ ∧
      p₀.threads.all Thread.resting = true ∧ Run step (both closing (onRun staysShut)) p₀ p ∧
      p₀.threads.length = 5 ∧ p.threads[6]? = some (.cleanup (.returned none)) ∧
      ShutDown p.shared := by
  obtain ⟨p₀, p, h₀, hrest, hr, hp⟩ := exists_runs_of_replay defaultRabbitMQConfig
    (both closing (onRun staysShut)) (fun p₀ => p₀.threads.all Thread.resting)
    (fun n p => n == 5 && p.threads[6]? == some (.cleanup (.returned none)))
    (boot ++ .call (.subscribeWith "default-consumer" "lynx.queue" 0) :: solo 3 7 ++ solo 4 1)
    (.call .cleanup :: solo 5 7 ++ solo 4 2 ++ .run 4 .stop :: solo 4 2 ++ solo 5 5 ++
      .call .cleanup :: solo 6 11) (by decide)
  rw [Bool.and_eq_true, beq_iff_eq, beq_iff_eq] at hp
  exact ⟨p₀, p, h₀, hrest, hr, hp.1, hp.2, ((cleanup_converges defaultRabbitMQConfig p₀ p h₀ hrest
    hr).1 6 none (by omega) hp.2).2⟩

/-- **A dropped connection keeps the client half torn down.**  The watcher has not
reacted yet; the cleanup gets `ErrClosed` from `Close` and returns it with the
connection still stored, and the next cleanup does the same. -/
theorem cleanup_fails_after_drop :
    ∃ p₀ p, Run step always (fresh defaultRabbitMQConfig) p₀ ∧
      p₀.threads.all Thread.resting = true ∧ Run step closing p₀ p ∧
      p.threads[3]? = some (.cleanup (.returned (some (.library Broker.errClosed)))) ∧
      p.threads[4]? = some (.cleanup (.returned (some (.library Broker.errClosed)))) ∧
      p.shared.connection = some 0 := by
  obtain ⟨p₀, p, h₀, hrest, hr, hp⟩ := exists_runs_of_replay defaultRabbitMQConfig
    closing (fun p₀ => p₀.threads.all Thread.resting)
    (fun _ p => p.threads[3]? == some (.cleanup (.returned (some (.library Broker.errClosed)))) &&
      p.threads[4]? == some (.cleanup (.returned (some (.library Broker.errClosed)))) &&
      p.shared.connection == some 0)
    (boot ++ [.drop 0]) (.call .cleanup :: solo 3 12 ++ .call .cleanup :: solo 4 11) (by decide)
  simp only [Bool.and_eq_true, beq_iff_eq] at hp
  exact ⟨p₀, p, h₀, hrest, hr, hp.1.1, hp.1.2, hp.2⟩

end LynxRabbit
