/-
# Concurrent executions of the reconnect callback

A watcher and a `ForceReconnect` call may run the callback at the same time.  Each
execution dials, stores its connection, empties the two maps and registers every
enabled entry again; each channel is opened on whatever `r.connection` holds then,
and is registered some steps later.

An execution owes an entry while it has yet to register it, or to empty its map.
The last store is followed by a whole round of registrations, so that every name
comes back.  A channel of a replaced connection gets into a map only where an
execution opened it before the store of another one and registers it behind that
one's registration: nobody owes the entry then, and the channel stays.  The
condition excludes this one step.
-/

import LynxRabbit.Reconnection.Progress

namespace LynxRabbit

open Runs

/-- No startup on its way to `Start` and no cleanup takes a step. -/
def undisturbed (_ : State) (t : Thread) : Bool := !t.startingUp && !t.isCleanup

/-- An execution of the callback that ends in the step has returned its
connection. -/
def noneFails (p : State) : Action → Bool
  | .run i o =>
    (p.threads[i]?.bind Thread.callback?).isNone ||
      (step p (.run i o)).any fun p' =>
        p'.threads[i]?.any fun t => t.callback?.isSome || t.succeeded
  | _ => true

/-- The runs in which every execution returns without an error. -/
def reconnectsSucceed : State → Action → Bool := both (onRun undisturbed) noneFails

/-- The execution has yet to register the entry or to empty its map. -/
def Callback.owes (cfg : RabbitMQ) (e : Entry) : Callback → Bool
  | .dial => true
  | .store _ => true
  | .clearProducers _ => true
  | .clearConsumers _ =>
    match e with
    | .producer _ => cfg.entries.contains e
    | .consumer _ => true
  | .rebuild _ todo => todo.any fun i => i.entry? == some e
  | _ => false

def Thread.owes (cfg : RabbitMQ) (e : Entry) (t : Thread) : Bool :=
  t.callback?.any (Callback.owes cfg e)

/-- A channel is registered only if it is one of the stored connection, or if its
entry is owed: by the rest of the same execution, or by another one. -/
def registersFresh (p : State) : Action → Bool
  | .run i _ =>
    match p.threads[i]?.bind Thread.callback? with
    | some (.rebuild _ (step :: rest)) =>
      match step.entry?, step.channel? with
      | some e, some ch =>
        p.shared.connection == some ch.conn || rest.any (fun i => i.entry? == some e) ||
          (p.threads.eraseIdx i).any (Thread.owes p.shared.config e)
      | _, _ => true
    | _ => true
  | _ => true

/-- What the map of the entry holds is a channel of the stored connection, and the
entry is there if it is enabled. -/
structure Settled (s : Client) (e : Entry) : Prop where
  own : ∀ v, s.entry e = some v → ∃ ch, v = some ch ∧ s.connection = some ch.conn
  there : e ∈ s.config.entries → s.entry e ≠ none

/-- Every entry is owed or settled. -/
def AgreeInv (p : State) : Prop :=
  ∀ e, (∃ t ∈ p.threads, t.owes p.shared.config e = true) ∨ Settled p.shared e

theorem Settled.congr {s s' : Client} {e : Entry} (h : Settled s e)
    (hcfg : s'.config = s.config) (hc : s'.connection = s.connection)
    (he : s'.entry e = s.entry e) : Settled s' e := by
  refine ⟨fun v hv => ?_, fun hm => ?_⟩
  · rw [hc]
    exact h.own v (he.symm.trans hv)
  · rw [he]
    exact h.there (hcfg ▸ hm)

/-- An entry that is not enabled is settled in an empty map. -/
theorem settled_of_none {s : Client} {e : Entry} (h : s.entry e = none)
    (hm : e ∉ s.config.entries) : Settled s e := by
  refine ⟨fun v hv => ?_, fun h => absurd h hm⟩
  rw [h] at hv
  cases hv

/-- A whole round owes every enabled entry. -/
theorem owed_of_mem_entries {cfg : RabbitMQ} {e : Entry} (h : e ∈ cfg.entries) :
    (cfg.initializeProducers ++ cfg.initializeConsumers).any (fun i => i.entry? == some e) =
      true := by
  rw [List.any_eq_true]
  rcases List.mem_append.1 h with hm | hm
  · obtain ⟨p, hp, rfl⟩ := List.mem_map.1 hm
    exact ⟨_, List.mem_append_left _ (List.mem_map_of_mem hp), beq_self_eq_true _⟩
  · obtain ⟨k, hk, rfl⟩ := List.mem_map.1 hm
    exact ⟨_, List.mem_append_right _ (List.mem_map_of_mem hk), beq_self_eq_true _⟩

/-- **A set-up step pays what it owes**: an entry it no longer owes is settled by
the registration of a channel of the stored connection. -/
theorem SetupStep.exec_settles {s s' : Client} {o : Choice} {i : SetupStep}
    {rest todo : List SetupStep} {e : Entry} (h : i.exec s o = .next s' todo)
    (he : (i :: rest).any (fun j => j.entry? == some e) = true ∨ Settled s e)
    (hfresh : ∀ ch, i.entry? = some e → i.channel? = some ch → s.connection = some ch.conn) :
    (todo ++ rest).any (fun j => j.entry? == some e) = true ∨ Settled s' e := by
  obtain ⟨hcfg, hconn, hcase⟩ := SetupStep.exec_entry h
  simp only [List.any_append, List.any_cons, Bool.or_eq_true, beq_iff_eq] at he ⊢
  rcases hcase with ⟨c, e', -, hi, -, ⟨j, hj, hje⟩, -, hs⟩ | ⟨hi, -, -, hs⟩ |
    ⟨e', ch, hi, hch, -, hs⟩
  · rcases he with (hie | hrest) | hset
    · obtain rfl := Option.some.inj (hi.symm.trans hie)
      exact .inl (.inl (List.any_eq_true.2 ⟨j, hj, beq_iff_eq.2 hje⟩))
    · exact .inl (.inr hrest)
    · exact .inr (hset.congr hcfg hconn (hs e))
  · rcases he with (hie | hrest) | hset
    · rw [hi] at hie
      cases hie
    · exact .inl (.inr hrest)
    · exact .inr (hset.congr hcfg hconn (hs e))
  · by_cases hee : e = e'
    · subst hee
      have hnow : s'.entry e = some (some ch) := by rw [hs, if_pos rfl]
      refine .inr ⟨fun v hv => ⟨ch, ?_, ?_⟩, fun _ => ?_⟩
      · exact (Option.some.inj (hnow.symm.trans hv)).symm
      · rw [hconn]
        exact hfresh ch hi hch
      · rw [hnow]
        exact Option.some_ne_none _
    · rcases he with (hie | hrest) | hset
      · exact absurd (Option.some.inj (hie.symm.trans hi)) hee
      · exact .inl (.inr hrest)
      · exact .inr (hset.congr hcfg hconn (by rw [hs, if_neg hee]))

/-- **An execution pays what it owes.** -/
theorem Callback.Moves.settles {s s' : Client} {o : Choice} {cb : Callback}
    {q : Callback ⊕ ConnId} {new : List Spawn} {e : Entry} (h : cb.Moves s o s' q new)
    (he : cb.owes s.config e = true ∨ Settled s e)
    (hfresh : ∀ c i rest ch, cb = .rebuild c (i :: rest) → i.entry? = some e →
      i.channel? = some ch →
        s.connection = some ch.conn ∨ rest.any (fun j => j.entry? == some e) = true) :
    q.elim (Callback.owes s'.config e) (fun _ => false) = true ∨ Settled s' e := by
  cases h with
  | dial => exact .inl rfl
  | store c => exact .inl rfl
  | clearProducers c =>
      cases e with
      | consumer name => exact .inl rfl
      | producer name =>
          by_cases hm : .producer name ∈ s.config.entries
          · exact .inl (List.contains_iff_mem.2 hm)
          · exact .inr (settled_of_none (AList.lookup_empty name) hm)
  | clearConsumers c =>
      cases e with
      | consumer name =>
          by_cases hm : .consumer name ∈ s.config.entries
          · exact .inl (owed_of_mem_entries hm)
          · exact .inr (settled_of_none (AList.lookup_empty name) hm)
      | producer name =>
          rcases he with ho | hset
          · exact .inl (owed_of_mem_entries (List.contains_iff_mem.1 ho))
          · exact .inr (hset.congr rfl rfl rfl)
  | @setup c i rest todo s' hi =>
      by_cases hrest : rest.any (fun j => j.entry? == some e) = true
      · left
        rw [Sum.elim_inl, Callback.owes, List.any_append, hrest, Bool.or_true]
      · exact SetupStep.exec_settles hi he fun ch hie hch =>
          (hfresh c i rest ch rfl hie hch).resolve_right hrest
  | snapshot c =>
      refine .inr (he.resolve_left fun h => ?_)
      cases h
  | found c started hl => exact .inr (he.resolve_left Bool.false_ne_true)
  | skip c started hl => exact .inr (he.resolve_left Bool.false_ne_true)
  | finish c started => exact .inr (he.resolve_left Bool.false_ne_true)
  | dispatch c started pending hd =>
      obtain ⟨⟨n, rfl⟩, -⟩ := DispatchStep.exec_inl hd
      exact .inr ((he.resolve_left Bool.false_ne_true).congr rfl rfl (Client.entry_congr rfl rfl e))
  | start c started pending hd =>
      obtain ⟨rfl, -⟩ := DispatchStep.exec_inr hd
      exact .inr ((he.resolve_left Bool.false_ne_true).congr rfl rfl (Client.entry_congr rfl rfl e))

/-- Nobody owes anything outside the callback. -/
theorem Thread.callback?_of_owes {t : Thread} {cfg : RabbitMQ} {e : Entry}
    (h : t.owes cfg e = true) : t.callback? ≠ none := by
  intro hn
  rw [Thread.owes, hn] at h
  cases h

/-- What the condition says of the goroutine that registers a channel. -/
theorem registersFresh_run {p : State} {l r : List Thread} {t : Thread} {o : Choice}
    {c : ConnId} {i : SetupStep} {rest : List SetupStep} {e : Entry} {ch : Channel}
    (hl : p.threads = l ++ t :: r) (h : registersFresh p (.run l.length o) = true)
    (hcb : t.callback? = some (.rebuild c (i :: rest))) (he : i.entry? = some e)
    (hch : i.channel? = some ch) :
    (p.shared.connection = some ch.conn ∨ rest.any (fun j => j.entry? == some e) = true) ∨
      ∃ u ∈ l ++ r, u.owes p.shared.config e = true := by
  have hix : p.threads[l.length]?.bind Thread.callback? = some (.rebuild c (i :: rest)) := by
    rw [hl, List.getElem?_append_right le_rfl, Nat.sub_self]
    exact hcb
  have herase : p.threads.eraseIdx l.length = l ++ r := by
    rw [hl, List.eraseIdx_append_of_length_le le_rfl, Nat.sub_self]
    rfl
  simp only [registersFresh, hix, he, hch, herase, Bool.or_eq_true, beq_iff_eq] at h
  exact h.imp_right List.any_eq_true.1

/-- **An execution moves**: what it no longer owes, and nobody else does, is
settled. -/
theorem AgreeInv.execution_run {p : State} {l r new : List Thread} {t t' : Thread} {o : Choice}
    {s' : Client} {cb : Callback} {q : Callback ⊕ ConnId} {sp : List Spawn} (hi : AgreeInv p)
    (hl : p.threads = l ++ t :: r) (hcb : t.callback? = some cb)
    (hm : cb.Moves p.shared o s' q sp) (hself : t'.callback? = q.getLeft?)
    (hcond : registersFresh p (.run l.length o) = true) :
    AgreeInv ⟨s', l ++ t' :: r ++ new⟩ := by
  intro e
  by_cases hother : ∃ u ∈ l ++ r, u.owes p.shared.config e = true
  · obtain ⟨u, hu, ho⟩ := hother
    exact .inl ⟨u, mem_focus_of_others hu t' new, by rwa [hm.frame.config]⟩
  · have hbefore : cb.owes p.shared.config e = true ∨ Settled p.shared e := by
      rcases hi e with ⟨u, hu, ho⟩ | hset
      · rw [hl] at hu
        rcases eq_or_mem_others hu with rfl | hu
        · rw [Thread.owes, hcb] at ho
          exact .inl ho
        · exact absurd ⟨u, hu, ho⟩ hother
      · exact .inr hset
    rcases hm.settles hbefore fun c i rest ch hcb' hie hch =>
      (registersFresh_run hl hcond (hcb' ▸ hcb) hie hch).resolve_right hother with ho | hset
    · refine .inl ⟨t', mem_focus_moved l r t' new, ?_⟩
      cases q with
      | inl cb' => rwa [Thread.owes, hself]
      | inr c => cases ho
    · exact .inr hset

/-- **Somebody else moves**: the connection and the maps stay as they are. -/
theorem AgreeInv.bystander_run {p : State} {l r new : List Thread} {t t' : Thread} {o : Choice}
    {s' : Client} (hi : AgreeInv p) (hl : p.threads = l ++ t :: r)
    (ht : t.Moves p.shared o s' t' new) (hcb : t.callback? = none)
    (henv : undisturbed p t = true) : AgreeInv ⟨s', l ++ t' :: r ++ new⟩ := by
  rw [undisturbed, Bool.and_eq_true, Bool.not_eq_true', Bool.not_eq_true'] at henv
  obtain ⟨hconn, hprod, hcons⟩ := ht.calm hcb henv.1 henv.2
  intro e
  rcases hi e with ⟨u, hu, ho⟩ | hset
  · rw [hl] at hu
    rcases eq_or_mem_others hu with rfl | hu
    · exact absurd hcb (Thread.callback?_of_owes ho)
    · exact .inl ⟨u, mem_focus_of_others hu t' new, by rwa [ht.config]⟩
  · exact .inr (hset.congr ht.config hconn (Client.entry_congr hprod hcons e))

/-- **Every step keeps the invariant.** -/
theorem AgreeInv.step {p p' : State} {a : Action} (hi : AgreeInv p)
    (hg : both reconnectsSucceed registersFresh p a = true) (h : LynxRabbit.step p a = some p') :
    AgreeInv p' := by
  obtain ⟨henv, hcond⟩ := both_iff.1 hg
  obtain ⟨henv, hfine⟩ := both_iff.1 henv
  have hm := (moves_of_step h).2
  cases hm with
  | @run i o l r new t t' s' hl hix ht hn =>
      subst hn
      cases hcb : t.callback? with
      | none => exact hi.bystander_run hl ht hcb (onRun_run henv hix)
      | some cb =>
          rcases ht.of_callback hcb with ⟨cb', sp, hm, hcb', -⟩ | ⟨c, sp, hm, hcb', -⟩ |
            ⟨hnone, hsucc, -⟩
          · exact hi.execution_run hl hcb hm hcb' hcond
          · exact hi.execution_run hl hcb hm hcb' hcond
          · -- an execution that fails is not one of these runs
            simp [noneFails, hix, hcb, h, hnone, hsucc] at hfine
  | drop hc ho => exact fun e => (hi e).imp_right fun hset => hset.congr rfl rfl rfl
  | call k =>
      intro e
      rcases hi e with ⟨t, ht, ho⟩ | hset
      · exact .inl ⟨t, List.mem_append_left _ ht, ho⟩
      · exact .inr hset
  | cancel id => exact fun e => (hi e).imp_right fun hset => hset.congr rfl rfl rfl

/-- **Concurrent reconnects agree where no stale channel is registered for good.**
From any state in which an execution of the callback is about to dial, whatever
else is under way, in every run in which no execution fails and every step meets the
condition, with any number of executions that begin and end at any time: when none is
under way any more, every channel in the two maps belongs to the stored connection,
and every enabled name is there. -/
theorem concurrent_reconnects_agree (p q : State)
    (hsome : ∃ t ∈ p.threads, t.callback? = some .dial)
    (hr : Run step (both reconnectsSucceed registersFresh) p q)
    (hdone : ∀ t ∈ q.threads, t.callback? = none) (e : Entry) : Settled q.shared e := by
  have hi : AgreeInv q := by
    refine hr.invariant (I := AgreeInv) (fun e => .inl ?_) fun _ _ _ hi hg h => hi.step hg h
    obtain ⟨t, ht, hcb⟩ := hsome
    exact ⟨t, ht, by rw [Thread.owes, hcb]; rfl⟩
  refine (hi e).resolve_left ?_
  rintro ⟨t, ht, ho⟩
  exact Thread.callback?_of_owes ho (hdone t ht)

/-- Two executions are about to dial, one of a watcher and one of a
`ForceReconnect` call, and every other goroutine is passive. -/
def twoCallbacks (p : State) : Bool :=
  p.threads.all (fun t => t.passive || t.callback? == some .dial) &&
    p.threads.contains (.watcher (.callback 500 .dial)) &&
    p.threads.contains (.force (.callback .dial))

/-- Both have returned without an error. -/
def bothReturned (p : State) : Bool := p.threads.all fun t => t.passive || t.succeeded

theorem callback?_of_bothReturned {p : State} (h : bothReturned p = true) :
    ∀ t ∈ p.threads, t.callback? = none := by
  simp only [bothReturned, List.all_eq_true, Bool.or_eq_true] at h
  exact fun t ht => (h t ht).elim Thread.callback?_of_passive Thread.callback?_of_succeeded

/-- A watcher and a `ForceReconnect` call that are about to dial. -/
def collision : List Action :=
  boot ++ .drop 0 :: solo 2 3 ++ .call .forceReconnect :: solo 3 2

/-- The watcher stores its connection first, then `ForceReconnect` stores its own;
both rebuild on the second one. -/
theorem concurrent_reconnects_agree_interleaved :
    ∃ p q, Run step supervised (fresh defaultRabbitMQConfig) p ∧ twoCallbacks p = true ∧
      Run step (both reconnectsSucceed registersFresh) p q ∧ bothReturned q = true ∧
      ∀ e, Settled q.shared e := by
  obtain ⟨p, hp, h⟩ := exists_run_of_replay step supervised (fresh defaultRabbitMQConfig)
    (fun p => twoCallbacks p && (replay step (both reconnectsSucceed registersFresh) p
      (solo 2 2 ++ solo 3 2 ++ solo 2 5 ++ solo 3 12 ++ solo 2 7)).any bothReturned)
    collision (by decide)
  rw [Bool.and_eq_true] at h
  obtain ⟨q, hq, hdone⟩ := exists_run_of_replay step (both reconnectsSucceed registersFresh) p
    bothReturned _ h.2
  have hw : .watcher (.callback 500 .dial) ∈ p.threads := by
    simp only [twoCallbacks, Bool.and_eq_true, List.contains_iff_mem] at h
    exact h.1.1.2
  exact ⟨p, q, hp, h.1, hq, hdone, concurrent_reconnects_agree p q ⟨_, hw, rfl⟩ hq
    (callback?_of_bothReturned hdone)⟩

/-- **A stale channel survives.**  The watcher has opened the producer's channel on
connection 1 when `ForceReconnect` stores connection 2, rebuilds everything on it
and returns; then the watcher registers the channel of connection 1 and returns
too. -/
theorem concurrent_reconnects_disagree :
    ∃ p q, Run step supervised (fresh defaultRabbitMQConfig) p ∧ twoCallbacks p = true ∧
      Run step reconnectsSucceed p q ∧ bothReturned q = true ∧
      ¬ Settled q.shared (.producer "default-producer") := by
  obtain ⟨p, hp, h⟩ := exists_run_of_replay step supervised (fresh defaultRabbitMQConfig)
    (fun p => twoCallbacks p && (replay step reconnectsSucceed p
      (solo 2 7 ++ solo 3 14 ++ solo 2 7)).any fun q => bothReturned q &&
        q.shared.connection == some 2 &&
        q.shared.entry (.producer "default-producer") == some (some ⟨2, 1⟩))
    collision (by decide)
  rw [Bool.and_eq_true] at h
  obtain ⟨q, hq, hdone⟩ := exists_run_of_replay step reconnectsSucceed p _ _ h.2
  simp only [Bool.and_eq_true, beq_iff_eq] at hdone
  refine ⟨p, q, hp, h.1, hq, hdone.1.1, fun hset => ?_⟩
  obtain ⟨ch, hch, hc⟩ := hset.own _ hdone.2
  rw [hdone.1.2, ← Option.some.inj hch] at hc
  cases hc

end LynxRabbit
