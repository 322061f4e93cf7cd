/-
# A watcher that is let alone recovers

`watchConnection` (`managers.go`) calls the reconnect callback again and again, with a
back-off in between, until it returns nil.  `watcher_recovers` says what that comes to
when the broker is back and refuses nothing: from every reachable state in which
nobody has begun a cleanup, a watcher that has seen the disconnect and has not dialled
since gets to its end by its own steps, and leaves a client that is as good as freshly
started: the new connection is stored and open, the manager is connected, every enabled
producer and consumer has an open channel on it, every recorded subscription of an
enabled consumer has a dispatch loop, and a new watcher waits on the connection.

The run is put together from the phases of the callback, each of them a lemma about the
goroutine alone (`Reaches`): the set-up is the `runSetup` of `Setup.Run`, in which every
step succeeds when the entries pass their checks and the connection is open; the
subscriptions are restarted one after the other.  That the entries pass their checks need
not be assumed: a watcher exists only because a startup has got through them (`Shown`).
-/

import LynxRabbit.Publishing.Ready
import LynxRabbit.Setup.Run

namespace LynxRabbit

open Runs

/-- Nobody calls the cleanup. -/
def unstopped (_ : State) : Action → Bool
  | .call .cleanup => false
  | _ => true

/-- The watcher has a disconnect to take, or has taken it, and has not dialled since. -/
def WatchConnection.Awaits (s : Client) : WatchConnection → Prop
  | .waiting n => s.amqp.notify n = .error
  | .disconnected => True
  | .check _ => True
  | .callback _ .dial => True
  | .backoff _ => True
  | _ => False

/-! ### What a startup has shown of the configuration -/

/-- The check in front of the network accepts the entry. -/
def SetupStep.Passes : SetupStep → Prop
  | .createProducer p => p.check = none
  | .createConsumer c => c.check = none
  | _ => True

/-- `dial` accepts the configuration. -/
def RabbitMQ.Dials (cfg : RabbitMQ) : Prop :=
  cfg.urls ≠ [] ∧ validateVirtualHost cfg.virtualHost = none

/-- `dial` accepts the configuration, and so do the checks of all enabled entries. -/
structure RabbitMQ.Able (cfg : RabbitMQ) : Prop where
  dials : cfg.Dials
  producers : ∀ st ∈ cfg.initializeProducers, st.Passes
  consumers : ∀ st ∈ cfg.initializeConsumers, st.Passes

/-- The entries that are not pending any more have passed their check. -/
def Checked (all todo : List SetupStep) : Prop := ∀ st ∈ all, st.Passes ∨ st ∈ todo

theorem SetupStep.passes_of_exec {s s' : Client} {o : Choice} {st : SetupStep}
    {new : List SetupStep} (h : st.exec s o = .next s' new) : st.Passes := by
  have hcheck : ∀ {check failure body}, s.openChannel o check failure body = .next s' new →
      check = none := by
    intro check failure body h
    unfold Client.openChannel at h
    split at h
    · cases h
    · rfl
  cases st with
  | createProducer p => exact hcheck h
  | createConsumer c => exact hcheck h
  | _ => trivial

theorem Checked.exec {s s' : Client} {o : Choice} {st : SetupStep} {all rest new : List SetupStep}
    (h : Checked all (st :: rest)) (hx : st.exec s o = .next s' new) :
    Checked all (new ++ rest) := by
  intro i hi
  rcases h i hi with hp | hm
  · exact .inl hp
  · rcases List.mem_cons.1 hm with rfl | hm
    · exact .inl (SetupStep.passes_of_exec hx)
    · exact .inr (List.mem_append_right _ hm)

theorem Checked.passes {all : List SetupStep} (h : Checked all []) : ∀ st ∈ all, st.Passes :=
  fun st hst => (h st hst).resolve_right List.not_mem_nil

/-- What a startup has shown where it stands. -/
def StartupWithContext.Shown (cfg : RabbitMQ) : StartupWithContext → Prop
  | .store _ => cfg.Dials
  | .setReconnectFunc _ => cfg.Dials
  | .notifyClose _ => cfg.Dials
  | .setConnectionNotify _ => cfg.Dials
  | .afterConnect => cfg.Dials
  | .producers todo => cfg.Dials ∧ Checked cfg.initializeProducers todo
  | .afterProducers => cfg.Dials ∧ Checked cfg.initializeProducers []
  | .consumers todo => cfg.Dials ∧ Checked cfg.initializeProducers [] ∧
      Checked cfg.initializeConsumers todo
  | .startHealth => cfg.Able
  | .startManager => cfg.Able
  | _ => True

/-- A watcher is there because a startup has come to `Start`. -/
def Thread.Shown (cfg : RabbitMQ) : Thread → Prop
  | .watcher _ => cfg.Able
  | .startup pc => pc.Shown cfg
  | _ => True

theorem Client.dials_of_dial {s s' : Client} {o : Choice} {c : ConnId}
    (h : s.dial o = .ok (s', c)) : s.config.Dials := by
  unfold Client.dial at h
  split at h
  · cases h
  · rename_i url urls hurls
    split at h
    · cases h
    · rename_i hv
      exact ⟨by rw [hurls]; exact List.cons_ne_nil _ _, hv⟩

theorem setupStep_shown {s s' : Client} {o : Choice} {txt : String}
    {here : List SetupStep → StartupWithContext} {after pc' : StartupWithContext}
    {all todo : List SetupStep} {cfg : RabbitMQ}
    (h : setupStep s o txt here after todo = (s', pc')) (hc : Checked all todo)
    (hhere : ∀ todo', Checked all todo' → (here todo').Shown cfg)
    (hafter : Checked all [] → after.Shown cfg) : pc'.Shown cfg := by
  rcases setupStep_cases h with ⟨rfl, -, rfl⟩ | ⟨i, rest, new, rfl, hx, rfl⟩ | ⟨f, e, -, -, rfl⟩ |
    ⟨i, rest, -, -, -, -, rfl⟩
  · exact hafter hc
  · exact hhere _ (hc.exec hx)
  · trivial
  · trivial

theorem StartupWithContext.shown_step {s s' : Client} {o : Choice} {pc pc' : StartupWithContext}
    {new : List Spawn} (h : pc.step s o = some (s', pc', new)) (hs : pc.Shown s.config) :
    pc'.Shown s.config ∧ ∀ x ∈ new, x.thread.Shown s.config := by
  have hnil : ∀ x ∈ ([] : List Spawn), x.thread.Shown s.config := fun x hx => (by cases hx)
  cases pc with
  | enter => rw [StartupWithContext.step] at h; split at h <;> cases h <;> exact ⟨trivial, hnil⟩
  | dial =>
      rw [StartupWithContext.step] at h
      split at h <;> cases h
      · exact ⟨trivial, hnil⟩
      · exact ⟨Client.dials_of_dial ‹_›, hnil⟩
  | afterConnect =>
      rw [StartupWithContext.step] at h
      split at h <;> cases h
      · exact ⟨trivial, hnil⟩
      · exact ⟨⟨hs, fun st hst => .inr hst⟩, hnil⟩
  | producers todo =>
      obtain ⟨hx, rfl⟩ := StartupWithContext.step_producers h
      exact ⟨setupStep_shown hx hs.2 (fun _ hc => ⟨hs.1, hc⟩) fun hc => ⟨hs.1, hc⟩, hnil⟩
  | afterProducers =>
      rw [StartupWithContext.step] at h
      split at h <;> cases h
      · exact ⟨trivial, hnil⟩
      · exact ⟨⟨hs.1, hs.2, fun st hst => .inr hst⟩, hnil⟩
  | consumers todo =>
      obtain ⟨hx, rfl⟩ := StartupWithContext.step_consumers h
      exact ⟨setupStep_shown hx hs.2.2 (fun _ hc => ⟨hs.1, hs.2.1, hc⟩)
        fun hc => ⟨hs.1, hs.2.1.passes, hc.passes⟩, hnil⟩
  | startHealth =>
      cases h
      exact ⟨hs, List.forall_mem_singleton.2 trivial⟩
  | startManager =>
      cases h
      refine ⟨trivial, fun x hx => ?_⟩
      split at hx
      · obtain rfl := List.mem_singleton.1 hx
        exact hs
      · cases hx
  | registerShared =>
      rw [StartupWithContext.step] at h; split at h <;> cases h <;> exact ⟨trivial, hnil⟩
  | checkHealth parts =>
      cases parts with
      | nil => cases h; exact ⟨trivial, hnil⟩
      | cons part parts =>
          rw [StartupWithContext.step] at h; split at h <;> cases h <;> exact ⟨trivial, hnil⟩
  | publish => cases h; exact ⟨trivial, hnil⟩
  | publishReady => cases h; exact ⟨trivial, hnil⟩
  | unpublish e => cases h; exact ⟨trivial, hnil⟩
  | returned err => cases h
  | _ => cases h; exact ⟨hs, hnil⟩

/-- A dispatch loop has nothing to show. -/
theorem shown_of_loops {cfg : RabbitMQ} {new : List Spawn}
    (h : new = [] ∨ ∃ l, new = [.loop l]) : ∀ u ∈ new.map Spawn.thread, u.Shown cfg := by
  intro u hu
  obtain ⟨x, hx, rfl⟩ := List.mem_map.1 hu
  rcases h with rfl | ⟨l, rfl⟩
  · cases hx
  · obtain rfl := List.mem_singleton.1 hx
    trivial

/-- **What is shown stays shown**, and a new watcher comes from a startup that has shown
everything or from another watcher. -/
theorem Thread.shown_step {s s' : Client} {t t' : Thread} {o : Choice} {new : List Thread}
    (h : t.step s o = some (s', t', new)) (hs : t.Shown s.config) :
    t'.Shown s.config ∧ ∀ u ∈ new, u.Shown s.config := by
  cases t with
  | watcher pc =>
      obtain ⟨q, hq, he⟩ := Option.map_eq_some_iff.1 h
      cases he
      refine ⟨hs, fun u hu => ?_⟩
      obtain ⟨x, -, rfl⟩ := List.mem_map.1 hu
      cases x with
      | watcher n => exact hs
      | loop l => trivial
      | health => trivial
  | startup pc =>
      obtain ⟨q, hq, he⟩ := Option.map_eq_some_iff.1 h
      cases he
      obtain ⟨hpc, hnew⟩ := StartupWithContext.shown_step hq hs
      exact ⟨hpc, List.forall_mem_map.2 hnew⟩
  | force pc =>
      cases Thread.moves_of_step h with
      | force hm =>
          refine ⟨trivial, shown_of_loops ?_⟩
          cases hm with
          | callback hcb => exact hcb.spawn
          | success hcb => exact hcb.spawn
          | _ => exact .inl rfl
  | subscribe id pc =>
      cases Thread.moves_of_step h with
      | subscribe _ hm => exact ⟨trivial, shown_of_loops hm.sameCore.2⟩
  | loop l pc => cases Thread.moves_of_step h; exact ⟨trivial, fun u hu => (by cases hu)⟩
  | cleanup pc => cases Thread.moves_of_step h; exact ⟨trivial, fun u hu => (by cases hu)⟩
  | health pc => cases Thread.moves_of_step h; exact ⟨trivial, fun u hu => (by cases hu)⟩

/-- What holds of every state nobody has begun to clean up. -/
structure Unstopped (p : State) : Prop where
  separate : Separate p
  intact : Intact p
  running : ∀ t ∈ p.threads, t.isCleanup = false
  stopChan : p.shared.manager.stopChanClosed = false
  shown : ∀ t ∈ p.threads, t.Shown p.shared.config

theorem unstopped_fresh (cfg : RabbitMQ) : Unstopped (fresh cfg) :=
  ⟨separate_fresh cfg, intact_fresh cfg, fun t ht => (by cases ht), rfl, fun t ht => (by cases ht)⟩

theorem Unstopped.step {p p' : State} {a : Action} (hi : Unstopped p)
    (hg : unstopped p a = true) (h : step p a = some p') : Unstopped p' := by
  have hm := (moves_of_step h).2
  have hsep := hi.separate.step hm
  have hint := hi.intact.step hi.separate hi.running h
  cases a with
  | run i o =>
      obtain ⟨l, t, r, s', t', new, hl, -, -, ht, rfl⟩ := step_run_focus h
      have htm := Thread.moves_of_step ht
      have hmem : t ∈ p.threads := hl ▸ mem_focus_self l r t
      obtain ⟨hself, hnew⟩ := Thread.shown_step ht (hi.shown t hmem)
      refine ⟨hsep, hint, ?_, ?_, ?_⟩
      · refine forall_focus (hl ▸ hi.running) (fun u _ hu => hu) ?_ fun u hu => ?_
        · exact htm.kind.2.2.trans (hi.running t hmem)
        · obtain ⟨x, rfl⟩ := htm.spawned u hu
          exact x.thread_kind.2.2
      · exact (htm.stopSignals (hi.running t hmem)).2.trans hi.stopChan
      · show ∀ u ∈ l ++ t' :: r ++ new, u.Shown s'.config
        rw [htm.config]
        exact forall_focus (hl ▸ hi.shown) (fun u _ hu => hu) hself hnew
  | drop c => cases hm; exact ⟨hsep, hint, hi.running, hi.stopChan, hi.shown⟩
  | call k =>
      cases hm
      refine ⟨hsep, hint, List.forall_mem_append.2 ⟨hi.running, List.forall_mem_singleton.2 ?_⟩,
        hi.stopChan, List.forall_mem_append.2 ⟨hi.shown, List.forall_mem_singleton.2 ?_⟩⟩
      · cases k with
        | cleanup => cases hg
        | _ => rfl
      · cases k <;> trivial
  | cancel id => cases hm; exact ⟨hsep, hint, hi.running, hi.stopChan, hi.shown⟩

theorem unstopped_of_run {cfg : RabbitMQ} {p : State} (hr : Run step unstopped (fresh cfg) p) :
    Unstopped p :=
  hr.invariant (unstopped_fresh cfg) fun _ _ _ hi hg h => hi.step hg h

/-! ### One goroutine alone -/

/-- Goroutine `i` gets from `p` to a state with `P` by its own steps, every call it makes
succeeding. -/
def Reaches (i : ℕ) (P : State → Prop) (p : State) : Prop :=
  ∃ n q, replay step always p (solo i n) = some q ∧ P q

theorem Reaches.here {i : ℕ} {P : State → Prop} {p : State} (h : P p) : Reaches i P p :=
  ⟨0, p, rfl, h⟩

theorem Reaches.cons {i : ℕ} {P : State → Prop} {p q : State}
    (h : step p (.run i .ok) = some q) (hq : Reaches i P q) : Reaches i P p := by
  obtain ⟨n, q', hn, hP⟩ := hq
  refine ⟨n + 1, q', ?_, hP⟩
  rw [solo, List.replicate_succ, replay_always, h]
  exact hn

section
variable {s : Client} {l r : List Thread} {P : State → Prop}

/-- A step of the watcher between `l` and `r`. -/
theorem Reaches.watcher {pc : WatchConnection} (s' : Client) (pc' : WatchConnection)
    (new : List Spawn) (halive : s.panicked = false) (h : pc.step s .ok = some (s', pc', new))
    (hq : Reaches l.length P ⟨s', l ++ .watcher pc' :: (r ++ new.map Spawn.thread)⟩) :
    Reaches l.length P ⟨s, l ++ .watcher pc :: r⟩ := by
  have hstep : Thread.step s (.watcher pc) .ok =
      some (s', .watcher pc', new.map Spawn.thread) := by
    rw [Thread.step, h]
    rfl
  refine Reaches.cons (step_of_focus halive rfl hstep) ?_
  rw [List.append_assoc, List.cons_append]
  exact hq

/-- A step of the watcher that starts nothing. -/
theorem Reaches.watch {pc : WatchConnection} (s' : Client) (pc' : WatchConnection)
    (halive : s.panicked = false) (h : pc.step s .ok = some (s', pc', []))
    (hq : Reaches l.length P ⟨s', l ++ .watcher pc' :: r⟩) :
    Reaches l.length P ⟨s, l ++ .watcher pc :: r⟩ := by
  refine Reaches.watcher s' pc' [] halive h ?_
  rw [List.map_nil, List.append_nil]
  exact hq

/-- A step of the callback that starts nothing. -/
theorem Reaches.quiet {ms : ℕ} {cb : Callback} (s' : Client) (cb' : Callback)
    (halive : s.panicked = false) (h : cb.step s .ok = .next s' (.inl cb', []))
    (hq : Reaches l.length P ⟨s', l ++ .watcher (.callback ms cb') :: r⟩) :
    Reaches l.length P ⟨s, l ++ .watcher (.callback ms cb) :: r⟩ := by
  refine Reaches.watch s' (.callback ms cb') halive ?_ hq
  rw [WatchConnection.step, h]

end

/-! ### The set-up -/

/-- The stored connection is `c`, it is open, and no channel was closed before it was
opened. -/
structure Ready (s : Client) (c : ConnId) : Prop where
  connection : s.connection = some c
  isOpen : s.amqp.closed c = false
  unopened : ∀ id, s.amqp.channels ≤ id → s.amqp.chanClosed id = false

namespace Ready

variable {s : Client} {c : ConnId}

theorem channel_ok (h : Ready s c) :
    s.amqp.channel c .ok =
      .ok ({ s.amqp with channels := s.amqp.channels + 1 }, ⟨s.amqp.channels, c⟩) := by
  rw [Broker.channel, h.isOpen]
  rfl

/-- A call on a channel of `c` that was not closed succeeds. -/
theorem callErr_none (h : Ready s c) {id : ℕ} (hid : s.amqp.chanClosed id = false) :
    s.amqp.callErr ⟨id, c⟩ .ok = none := by
  simp [Broker.callErr, Broker.chanOpen, hid, h.isOpen, Choice.err]

/-- More channels, and other maps. -/
theorem congr (h : Ready s c) {s' : Client} {n : ℕ} (hc : s'.connection = s.connection)
    (hb : s'.amqp = { s.amqp with channels := n }) (hn : s.amqp.channels ≤ n) : Ready s' c := by
  refine ⟨hc.trans h.connection, by rw [hb]; exact h.isOpen, fun id hid => ?_⟩
  rw [hb] at hid ⊢
  exact h.unopened id (hn.trans hid)

/-- The call that opens the channel of an entry. -/
theorem exec_create (h : Ready s c) {st : SetupStep} (ho : st.opens = true) (hp : st.Passes) :
    st.exec s .ok = .next { s with amqp := { s.amqp with channels := s.amqp.channels + 1 } }
      (st.body ⟨s.amqp.channels, c⟩) := by
  cases st with
  | createProducer p =>
      have hp : p.check = none := hp
      simp only [SetupStep.exec, Client.openChannel, hp, h.connection, h.channel_ok]
      rfl
  | createConsumer k =>
      have hp : k.check = none := hp
      simp only [SetupStep.exec, Client.openChannel, hp, h.connection, h.channel_ok]
      rfl
  | _ => cases ho

end Ready

/-- The client after `k` channels have been opened. -/
def Client.withChannels (s : Client) (k : ℕ) : Client :=
  { s with amqp := { s.amqp with channels := k } }

/-- Every answer is a success. -/
def AllOk (os : List Choice) : Prop := ∀ o ∈ os, o = .ok

theorem AllOk.cons {os : List Choice} (h : AllOk os) : AllOk (.ok :: os) :=
  List.forall_mem_cons.2 ⟨rfl, h⟩

theorem runSetup_nil (s : Client) (os : List Choice) : runSetup s [] os = some ⟨s, none, []⟩ := by
  cases os <;> rfl

/-- The requests on an open channel and its registration. -/
theorem runSetup_body {s : Client} {c : ConnId} (h : Ready s c) {id : ℕ}
    (hid : s.amqp.chanClosed id = false) {e : Entry} {rest : List SetupStep} {os : List Choice}
    {r : SetupRun} (hos : AllOk os) (hr : runSetup (s.put e ⟨id, c⟩) rest os = some r) :
    ∀ rs : List Request, ∃ os' r', AllOk os' ∧
      runSetup s (List.map (fun q => .request q ⟨id, c⟩) rs ++ e.register ⟨id, c⟩ :: rest) os' =
        some r' ∧ r'.err = r.err
  | [] => by
      refine ⟨.ok :: os, ⟨r.client, r.err, e.register ⟨id, c⟩ :: r.taken⟩, hos.cons, ?_, rfl⟩
      rw [List.map_nil, List.nil_append, runSetup, exec_register]
      simp only [List.nil_append]
      rw [hr]
      rfl
  | q :: rs => by
      obtain ⟨os', r', hos', hr', herr⟩ := runSetup_body h hid hos hr rs
      refine ⟨.ok :: os', ⟨r'.client, r'.err, .request q ⟨id, c⟩ :: r'.taken⟩, hos'.cons, ?_, herr⟩
      rw [List.map_cons, List.cons_append, runSetup, SetupStep.exec, h.callErr_none hid]
      simp only [List.nil_append]
      rw [hr']
      rfl

/-- **A set-up succeeds** when every entry passes its check, the connection is open and
the broker refuses nothing. -/
theorem runSetup_succeeds {c : ConnId} : ∀ {sts : List SetupStep} {s : Client}, Ready s c →
    (∀ st ∈ sts, st.opens = true ∧ st.Passes) →
    ∃ os r, AllOk os ∧ runSetup s sts os = some r ∧ r.err = none
  | [], s, _, _ => ⟨[], _, fun o ho => (by cases ho), runSetup_nil s [], rfl⟩
  | st :: sts, s, h, hsts => by
      obtain ⟨⟨ho, hp⟩, hrest⟩ := List.forall_mem_cons.1 hsts
      obtain ⟨e, rs, -, hbody⟩ := st.body_eq ho
      have hopened : Ready { s with amqp := { s.amqp with channels := s.amqp.channels + 1 } } c :=
        h.congr rfl rfl (Nat.le_succ _)
      obtain ⟨os, r, hos, hr, herr⟩ := runSetup_succeeds
        (s := ({ s with amqp := { s.amqp with channels := s.amqp.channels + 1 } } : Client).put e
          ⟨s.amqp.channels, c⟩)
        (by cases e <;> exact hopened.congr rfl rfl le_rfl) hrest
      obtain ⟨os', r', hos', hr', herr'⟩ := runSetup_body hopened
        (h.unopened s.amqp.channels le_rfl) hos hr rs
      refine ⟨.ok :: os', ⟨r'.client, r'.err, st :: r'.taken⟩, hos'.cons, ?_, herr'.trans herr⟩
      rw [runSetup, h.exec_create ho hp]
      simp only
      rw [hbody, List.append_assoc, List.singleton_append, hr']
      rfl

/-- The entries are registered on the connection they were set up on. -/
theorem runSetup_complete {c : ConnId} {os : List Choice} {sts : List SetupStep} {s : Client}
    {r : SetupRun} (hc : s.connection = some c) (hcov : Covered s c sts)
    (h : runSetup s sts os = some r) (herr : r.err = none) : Complete r.client c := by
  induction os generalizing s sts r with
  | nil =>
      cases sts with
      | nil =>
          cases h
          exact hcov.complete
      | cons st sts => cases h
  | cons o os ih =>
      cases sts with
      | nil =>
          cases h
          exact hcov.complete
      | cons st sts =>
          rw [runSetup] at h
          split at h
          · rename_i s' new hx
            obtain ⟨r', hr', rfl⟩ := Option.map_eq_some_iff.1 h
            exact ih (r := r') ((SetupStep.exec_entry hx).2.1.trans hc) (hcov.exec hc hx) hr' herr
          · cases h
            cases herr
          · cases h

/-- What a set-up on connection `c` that succeeds makes of a client whose maps were
empty: it writes the maps and opens channels, every enabled entry is registered on `c`, and
nothing else is, on channels that are all new. -/
structure Rebuilt (s s' : Client) (c : ConnId) : Prop where
  update : ∃ n P K, s.amqp.channels ≤ n ∧
    s' = { s.withChannels n with producers := P, consumers := K }
  complete : Complete s' c
  entry : ∀ e v, s'.entry e = some v →
    e ∈ s.config.entries ∧ ∃ ch, v = some ch ∧ s.amqp.channels ≤ ch.id

theorem Client.putAll_frame (s : Client) (es : List (Entry × Channel)) :
    ∃ P K, s.putAll es = { s with producers := P, consumers := K } := by
  induction es generalizing s with
  | nil => exact ⟨_, _, rfl⟩
  | cons e es ih =>
      obtain ⟨P, K, h⟩ := ih (s.put e.1 e.2)
      obtain ⟨P', K', h'⟩ : ∃ P K, s.put e.1 e.2 = { s with producers := P, consumers := K } := by
        cases e.1 <;> exact ⟨_, _, rfl⟩
      exact ⟨P, K, by rw [Client.putAll, List.foldl_cons]; exact h.trans (by rw [h'])⟩

/-- What an entry holds was there before, or is a channel registered under its name. -/
theorem Client.entry_putAll {s : Client} {es : List (Entry × Channel)} {e : Entry}
    {v : Option Channel} (h : (s.putAll es).entry e = some v) :
    s.entry e = some v ∨ ∃ ch, v = some ch ∧ (e, ch) ∈ es := by
  induction es generalizing s with
  | nil => exact .inl h
  | cons d es ih =>
      rcases ih h with hs | ⟨ch, rfl, hmem⟩
      · rw [Client.entry_put] at hs
        split_ifs at hs with he
        · exact .inr ⟨d.2, (Option.some.inj hs).symm, he ▸ List.mem_cons_self⟩
        · exact .inl hs
      · exact .inr ⟨ch, rfl, List.mem_cons_of_mem _ hmem⟩

theorem RabbitMQ.entry_of_setup (cfg : RabbitMQ) {e : Entry}
    (h : e ∈ (cfg.initializeProducers ++ cfg.initializeConsumers).filterMap SetupStep.entry?) :
    e ∈ cfg.entries := by
  obtain ⟨st, hst, he⟩ := List.mem_filterMap.1 h
  rcases List.mem_append.1 hst with hst | hst
  · obtain ⟨q, hq, rfl⟩ := List.mem_map.1 hst
    obtain rfl := Option.some.inj he
    exact List.mem_append_left _ (List.mem_map_of_mem hq)
  · obtain ⟨k, hk, rfl⟩ := List.mem_map.1 hst
    obtain rfl := Option.some.inj he
    exact List.mem_append_right _ (List.mem_map_of_mem hk)

/-- The steps of a set-up open a channel each, and pass. -/
theorem RabbitMQ.Able.passes {cfg : RabbitMQ} (h : cfg.Able) {st : SetupStep}
    (hst : st ∈ cfg.initializeProducers ++ cfg.initializeConsumers) :
    st.opens = true ∧ st.Passes := by
  rcases List.mem_append.1 hst with hst | hst
  · refine ⟨?_, h.producers st hst⟩
    obtain ⟨q, -, rfl⟩ := List.mem_map.1 hst
    rfl
  · refine ⟨?_, h.consumers st hst⟩
    obtain ⟨k, -, rfl⟩ := List.mem_map.1 hst
    rfl

/-- **A rebuild succeeds** on an open connection, when the enabled entries pass their
checks and the broker refuses nothing. -/
theorem rebuild_succeeds {s : Client} {c : ConnId} (h : Ready s c) (hcfg : s.config.Able)
    (hp : s.producers = ∅) (hk : s.consumers = ∅) :
    ∃ os r, AllOk os ∧
      runSetup s (s.config.initializeProducers ++ s.config.initializeConsumers) os = some r ∧
      r.err = none ∧ Rebuilt s r.client c := by
  obtain ⟨os, r, hos, hr, herr⟩ := runSetup_succeeds h fun st hst => hcfg.passes hst
  have hopens : ∀ st ∈ s.config.initializeProducers ++ s.config.initializeConsumers,
      st.opens = true := fun st hst => (hcfg.passes hst).1
  obtain ⟨done, hd⟩ := runSetup_creates hopens hr
  obtain ⟨-, hnames, hids, -⟩ := hd.registered hopens
  obtain ⟨b, hb, hclient⟩ := hd.client
  have hcov := covered_initialize s c
  refine ⟨os, r, hos, hr, herr, ?_, runSetup_complete h.connection hcov hr herr,
    fun e v hv => ?_⟩
  · obtain ⟨P, K, hput⟩ := s.putAll_frame r.registered
    rcases hb with rfl | ⟨hne, -⟩
    · refine ⟨s.amqp.channels + done.length, P, K, Nat.le_add_right _ _, ?_⟩
      rw [hclient, hput]
      rfl
    · exact absurd herr hne
  · rw [hclient] at hv
    have hv : (s.putAll r.registered).entry e = some v := by
      cases e <;> exact hv
    rcases Client.entry_putAll hv with hold | ⟨ch, rfl, hmem⟩
    · -- the maps were empty
      cases e with
      | producer name => rw [Client.entry, hp, AList.lookup_empty] at hold; cases hold
      | consumer name => rw [Client.entry, hk, AList.lookup_empty] at hold; cases hold
    · refine ⟨s.config.entry_of_setup ?_, ch, rfl, ?_⟩
      · rw [← hnames herr]
        exact List.mem_map_of_mem hmem
      · have hid : ch.id ∈ r.registered.map (·.2.id) := List.mem_map_of_mem hmem
        rw [hids] at hid
        exact (List.mem_range'_1.1 hid).1

/-- The callback makes a set-up as `runSetup` makes it. -/
theorem Reaches.setup {ms : ℕ} {c : ConnId} {l ts : List Thread} {P : State → Prop}
    {os : List Choice} {sts : List SetupStep} {s : Client} {r : SetupRun} (hos : AllOk os)
    (halive : s.panicked = false) (h : runSetup s sts os = some r) (herr : r.err = none)
    (hq : Reaches l.length P ⟨r.client, l ++ .watcher (.callback ms (.rebuild c [])) :: ts⟩) :
    Reaches l.length P ⟨s, l ++ .watcher (.callback ms (.rebuild c sts)) :: ts⟩ := by
  induction os generalizing s sts r with
  | nil =>
      cases sts with
      | nil =>
          cases h
          exact hq
      | cons st sts => cases h
  | cons o os ih =>
      cases sts with
      | nil =>
          cases h
          exact hq
      | cons st sts =>
          obtain ⟨rfl, hrest⟩ := List.forall_mem_cons.1 hos
          rw [runSetup] at h
          split at h
          · rename_i s' new hx
            obtain ⟨r', hr', rfl⟩ := Option.map_eq_some_iff.1 h
            obtain ⟨n, P, K, hs'⟩ := SetupStep.exec_frame hx
            refine Reaches.quiet s' (.rebuild c (new ++ sts)) halive ?_
              (ih (r := r') hrest (by rw [hs']; exact halive) hr' herr hq)
            rw [Callback.step, hx]
          · cases h
            cases herr
          · cases h

/-! ### The subscriptions -/

/-- A loop that the rebuild of connection `c` has started, on a channel that was opened
when `k` channels had been. -/
structure Loop.Restarts (c : ConnId) (k : ℕ) (l : Loop) : Prop where
  conn : l.channel.conn = c
  fresh : k ≤ l.channel.id
  rebuild : l.rebuild = some c
  background : l.ctx = none

/-- `startDispatchLoop` succeeds on an open connection. -/
theorem Reaches.dispatch {s : Client} {c : ConnId} (h : Ready s c) (halive : s.panicked = false)
    {ms : ℕ} {l ts : List Thread} {started pending : List Subscription} {sub : Subscription}
    {P : State → Prop}
    (hq : ∀ lp : Loop, lp.sub = sub → lp.Restarts c s.amqp.channels →
      Reaches l.length P
        ⟨{ s.withChannels (s.amqp.channels + 1) with subscriptionWG := s.subscriptionWG + 1 },
          l ++ .watcher (.callback ms (.restart c (started ++ [sub]) pending)) ::
            (ts ++ [.loop lp .select])⟩) :
    Reaches l.length P ⟨s, l ++
      .watcher (.callback ms (.dispatch c started sub pending .liveConnection)) :: ts⟩ := by
  have hopened : Ready (s.withChannels (s.amqp.channels + 1)) c :=
    h.congr rfl rfl (Nat.le_succ _)
  have hcall := hopened.callErr_none (h.unopened s.amqp.channels le_rfl)
  -- from the consume request on
  have hconsume : Reaches l.length P
      ⟨s.withChannels (s.amqp.channels + 1), l ++ .watcher (.callback ms
        (.dispatch c started sub pending (.consume ⟨s.amqp.channels, c⟩))) :: ts⟩ := by
    refine Reaches.quiet (s.withChannels (s.amqp.channels + 1))
      (.dispatch c started sub pending (.start ⟨s.amqp.channels, c⟩)) halive ?_ ?_
    · simp only [Callback.step, DispatchStep.exec, hcall]
    · exact Reaches.watcher _ (.callback ms (.restart c (started ++ [sub]) pending))
        [.loop ⟨sub, ⟨s.amqp.channels, c⟩, (s.config.dispatchSettings sub.consumerName).1, none,
          some c⟩] halive rfl (hq _ rfl ⟨rfl, le_rfl, rfl, rfl⟩)
  refine Reaches.quiet s (.dispatch c started sub pending (.openChannel c)) halive ?_ ?_
  · simp only [Callback.step, DispatchStep.exec, h.connection, h.isOpen]
    rfl
  · by_cases hqos : (s.config.dispatchSettings sub.consumerName).2 > 0
    · refine Reaches.quiet (s.withChannels (s.amqp.channels + 1))
        (.dispatch c started sub pending (.qos ⟨s.amqp.channels, c⟩)) halive ?_
        (Reaches.quiet (s.withChannels (s.amqp.channels + 1)) _ halive ?_ hconsume)
      · simp only [Callback.step, DispatchStep.exec, h.channel_ok, if_pos hqos]
        rfl
      · simp only [Callback.step, DispatchStep.exec, hcall]
    · refine Reaches.quiet (s.withChannels (s.amqp.channels + 1)) _ halive ?_ hconsume
      simp only [Callback.step, DispatchStep.exec, h.channel_ok, if_neg hqos]
      rfl

/-- **The subscriptions whose consumer is registered are restarted**, in order. -/
theorem Reaches.restart {c : ConnId} {ms : ℕ} {l : List Thread} {P : State → Prop}
    {pending started : List Subscription} {s : Client} {ts : List Thread} (h : Ready s c)
    (halive : s.panicked = false)
    (hq : ∀ (k w : ℕ) (loops : List Loop), s.amqp.channels ≤ k →
      loops.map Loop.sub = pending.filter (fun sub => s.isConsumerReady sub.consumerName) →
      (∀ lp ∈ loops, Loop.Restarts c s.amqp.channels lp) →
      Reaches l.length P
        ⟨{ s.withChannels k with subscriptionWG := w },
          l ++ .watcher (.callback ms (.restart c (started ++ pending) [])) ::
            (ts ++ loops.map fun lp => .loop lp .select)⟩) :
    Reaches l.length P ⟨s, l ++ .watcher (.callback ms (.restart c started pending)) :: ts⟩ := by
  induction pending generalizing started s ts with
  | nil =>
      have hdone := hq s.amqp.channels s.subscriptionWG [] le_rfl rfl fun lp hlp => (by cases hlp)
      rw [List.append_nil, List.map_nil, List.append_nil] at hdone
      exact hdone
  | cons sub pending ih =>
      cases hready : s.isConsumerReady sub.consumerName with
      | false =>
          -- no channel under the consumer's name: `continue`
          refine Reaches.quiet s (.restart c (started ++ [sub]) pending) halive ?_
            (ih h halive fun k w loops hk hsub hall => ?_)
          · have hno : ∀ ch, s.consumers.lookup sub.consumerName ≠ some (some ch) := by
              intro ch hch
              rw [Client.isConsumerReady_iff.2 ⟨ch, hch⟩] at hready
              cases hready
            rw [Callback.step]
            split
            · exact absurd ‹_› (hno _)
            · rfl
          · rw [List.append_assoc, List.singleton_append]
            refine hq k w loops hk ?_ hall
            rw [hsub, List.filter_cons_of_neg (by simp [hready])]
      | true =>
          obtain ⟨ch, hch⟩ := Client.isConsumerReady_iff.1 hready
          refine Reaches.quiet s (.dispatch c started sub pending .liveConnection) halive ?_
            (Reaches.dispatch h halive fun lp hlp hrs => ?_)
          · rw [Callback.step, hch]
          · refine ih (h.congr rfl rfl (Nat.le_succ _)) halive fun k w loops hk hsub hall => ?_
            have hall' : ∀ x ∈ lp :: loops, Loop.Restarts c s.amqp.channels x := by
              refine List.forall_mem_cons.2 ⟨hrs, fun x hx => ?_⟩
              have hx' := hall x hx
              exact { hx' with fresh := (Nat.le_succ _).trans hx'.fresh }
            have hmap : (lp :: loops).map Loop.sub =
                (sub :: pending).filter fun sub => s.isConsumerReady sub.consumerName := by
              rw [List.map_cons, hlp, hsub, List.filter_cons_of_pos
                (p := fun sub : Subscription => s.isConsumerReady sub.consumerName) hready]
              rfl
            have hdone := hq k w (lp :: loops) ((Nat.le_succ _).trans hk) hmap hall'
            rw [List.append_assoc, List.singleton_append, List.append_assoc]
            exact hdone

/-! ### The whole way -/

/-- The client as a watcher leaves it that has recovered on connection `c`: `p` is where
it began, `i` its number. -/
structure Recovered (p q : State) (i : ℕ) (c : ConnId) : Prop where
  connection : q.shared.connection = some c
  isOpen : q.shared.amqp.closed c = false
  connected : q.shared.manager.connected = true
  entries : ∀ e ∈ q.shared.config.entries, ∃ ch, q.shared.entry e = some (some ch) ∧
    ch.conn = c ∧ q.shared.amqp.chanOpen ch = true
  healthy : p.shared.health.healthy = true → q.shared.checkHealth = none
  threads : ∃ (loops : List Loop) (n : ℕ),
    q.threads = p.threads.set i (.watcher .returned) ++ loops.map (fun lp => .loop lp .select) ++
      [.watcher (.waiting n)] ∧
    loops.map Loop.sub = p.shared.subscriptions.filter (fun sub =>
      p.shared.config.getEnabledConsumers.any fun k => k.name == sub.consumerName) ∧
    (∀ lp ∈ loops, lp.channel.conn = c ∧ q.shared.amqp.chanOpen lp.channel = true) ∧
    q.shared.amqp.notifyConn n = c ∧ q.shared.amqp.notify n = .quiet

section
variable {s : Client} {c : ConnId} {ms : ℕ} {l ts : List Thread} {P : State → Prop}

/-- From the return of the callback to the hand-over. -/
theorem Reaches.finish {subs : List Subscription} (halive : s.panicked = false)
    (h : P ⟨{ s.setConnected true with amqp := s.amqp.notifyClose c },
      l ++ .watcher .returned :: (ts ++ [.watcher (.waiting s.amqp.notifies)])⟩) :
    Reaches l.length P ⟨s, l ++ .watcher (.callback ms (.restart c subs [])) :: ts⟩ := by
  refine Reaches.watch s (.established c) halive rfl ?_
  refine Reaches.watch (s.setConnected true) (.renotify c) halive rfl ?_
  refine Reaches.watch { s.setConnected true with amqp := s.amqp.notifyClose c }
    (.handover s.amqp.notifies) halive rfl ?_
  exact Reaches.watcher { s.setConnected true with amqp := s.amqp.notifyClose c } .returned
    [.watcher s.amqp.notifies] halive rfl (.here h)

/-- From the dial to the emptied maps. -/
theorem Reaches.dial (halive : s.panicked = false) (hcfg : s.config.Dials)
    (h : Reaches l.length P
      ⟨{ s with amqp := s.amqp.dial, connection := some s.amqp.dialled, producers := ∅,
                consumers := ∅ },
        l ++ .watcher (.callback ms (.rebuild s.amqp.dialled
          (s.config.initializeProducers ++ s.config.initializeConsumers))) :: ts⟩) :
    Reaches l.length P ⟨s, l ++ .watcher (.callback ms .dial) :: ts⟩ := by
  obtain ⟨url, urls, hurls⟩ := List.exists_cons_of_ne_nil hcfg.1
  refine Reaches.quiet { s with amqp := s.amqp.dial } (.store s.amqp.dialled) halive ?_ ?_
  · rw [Callback.step, Client.dial, hurls]
    simp only [hcfg.2]
    rfl
  · refine Reaches.quiet { s with amqp := s.amqp.dial, connection := some s.amqp.dialled }
      (.clearProducers s.amqp.dialled) halive rfl ?_
    refine Reaches.quiet
      { s with amqp := s.amqp.dial, connection := some s.amqp.dialled, producers := ∅ }
      (.clearConsumers s.amqp.dialled) halive rfl ?_
    exact Reaches.quiet _ _ halive rfl h

/-- From a disconnect, or from anywhere in the back-off loop, to the next dial: the error
is taken and the flag lowered, if they were not before. -/
theorem Reaches.attempt {pc : WatchConnection} (halive : s.panicked = false)
    (hstop : s.manager.stopChanClosed = false) (ha : pc.Awaits s)
    (h : ∀ f b ms, Reaches l.length P
      ⟨{ s with amqp := { s.amqp with notify := f }, manager := { s.manager with connected := b } },
        l ++ .watcher (.callback ms .dial) :: ts⟩) :
    Reaches l.length P ⟨s, l ++ .watcher pc :: ts⟩ := by
  have hcheck : ∀ {s' : Client} (ms : ℕ), s'.panicked = false →
      s'.manager.stopChanClosed = false →
      Reaches l.length P ⟨s', l ++ .watcher (.callback ms .dial) :: ts⟩ →
      Reaches l.length P ⟨s', l ++ .watcher (.check ms) :: ts⟩ := by
    intro s' ms halive hstop h
    refine Reaches.watch s' (.callback ms .dial) halive ?_ h
    rw [WatchConnection.step, if_neg (by simp [hstop])]
  cases pc with
  | waiting n =>
      have ha : s.amqp.notify n = .error := ha
      refine Reaches.watch { s with amqp := s.amqp.receive n } .disconnected halive ?_ ?_
      · rw [WatchConnection.step, if_neg (by decide), ha]
      · exact Reaches.watch (({ s with amqp := s.amqp.receive n } : Client).setConnected false)
          (.check 500) halive rfl (hcheck 500 halive hstop (h _ _ 500))
  | disconnected =>
      exact Reaches.watch (s.setConnected false) (.check 500) halive rfl
        (hcheck 500 halive hstop (h _ _ 500))
  | check ms => exact hcheck ms halive hstop (h _ _ ms)
  | backoff ms =>
      exact Reaches.watch s (.check (min (2 * ms) 30000)) halive rfl
        (hcheck _ halive hstop (h _ _ _))
  | callback ms cb =>
      cases cb with
      | dial => exact h _ _ ms
      | _ => cases ha
  | _ => cases ha

end

theorem RabbitMQ.mem_entries_consumer {cfg : RabbitMQ} {name : String} :
    .consumer name ∈ cfg.entries ↔
      (cfg.getEnabledConsumers.any fun k => k.name == name) = true := by
  simp [RabbitMQ.entries]

/-- After a rebuild the consumers that are ready are the enabled ones. -/
theorem Rebuilt.isConsumerReady {s s' : Client} {c : ConnId} (h : Rebuilt s s' c)
    (hcfg : s'.config = s.config) (name : String) :
    s'.isConsumerReady name = s.config.getEnabledConsumers.any fun k => k.name == name := by
  rw [Bool.eq_iff_iff, ← RabbitMQ.mem_entries_consumer, Client.isConsumerReady_iff]
  constructor
  · rintro ⟨ch, hch⟩
    exact (h.entry (.consumer name) _ hch).1
  · intro hm
    obtain ⟨ch, hch, -⟩ := h.complete (.consumer name) (hcfg ▸ hm)
    exact ⟨ch, hch⟩

/-- A map all of whose names hold a channel. -/
theorem isSome_of_lookup {m : ChannelMap} (h : ∀ name v, m.lookup name = some v → v.isSome) :
    ∀ e ∈ m.entries, e.2.isSome :=
  fun e he => h e.1 e.2 (AList.mem_lookup_iff.2 he)

/-- **What is left after the hand-over**: the maps are those of the rebuild, and nothing
has closed a channel since. -/
theorem Rebuilt.recovered {p : State} {s s' : Client} {c : ConnId} {l r : List Thread}
    {pc : WatchConnection} {loops : List Loop} (hready : Ready s c) (hb : Rebuilt s s' c)
    (hl : p.threads = l ++ .watcher pc :: r) (hcfg : s.config = p.shared.config)
    (hhealth : s.health = p.shared.health) (k w : ℕ)
    (hsubs : loops.map Loop.sub =
      p.shared.subscriptions.filter fun sub => s'.isConsumerReady sub.consumerName)
    (hall : ∀ lp ∈ loops, Loop.Restarts c s'.amqp.channels lp) :
    Recovered p
      ⟨{ ({ s'.withChannels k with subscriptionWG := w } : Client).setConnected true with
          amqp := (s'.withChannels k).amqp.notifyClose c },
        l ++ .watcher .returned :: (r ++ loops.map (fun lp => .loop lp .select) ++
          [.watcher (.waiting s'.amqp.notifies)])⟩ l.length c := by
  have hnames := hb.isConsumerReady
  have hcomplete := hb.complete
  have hentry := hb.entry
  obtain ⟨⟨n, P, K, hn, rfl⟩, -, -⟩ := hb
  have hopen : ∀ ch : Channel, ch.conn = c → s.amqp.channels ≤ ch.id →
      s.amqp.chanOpen ch = true := by
    intro ch hch hid
    rw [Broker.chanOpen, hch, hready.unopened ch.id hid, hready.isOpen]
    rfl
  refine ⟨hready.connection, hready.isOpen, rfl, fun e he => ?_, fun hh => ?_, loops,
    s.amqp.notifies, ?_, ?_, fun lp hlp => ?_, Function.update_self .., ?_⟩
  · obtain ⟨ch, hch, hconn⟩ := hcomplete e he
    obtain ⟨-, ch', heq, hid⟩ := hentry e _ hch
    obtain rfl := Option.some.inj heq
    refine ⟨ch, ?_, hconn, hopen ch hconn hid⟩
    cases e <;> exact hch
  · refine (Client.checkHealth_eq_none_iff _).2 ⟨⟨c, hready.connection, hready.isOpen⟩, rfl,
      hhealth ▸ hh, isSome_of_lookup fun name v hv => ?_, isSome_of_lookup fun name v hv => ?_⟩
    · obtain ⟨-, ch, rfl, -⟩ := hentry (.producer name) v hv
      rfl
    · obtain ⟨-, ch, rfl, -⟩ := hentry (.consumer name) v hv
      rfl
  · rw [hl, List.set_append_right _ _ le_rfl, Nat.sub_self, List.set_cons_zero]
    simp [Client.withChannels]
  · rw [hsubs, ← hcfg]
    exact List.filter_congr fun sub _ => hnames rfl sub.consumerName
  · have hlp := hall lp hlp
    exact ⟨hlp.conn, hopen lp.channel hlp.conn (hn.trans hlp.fresh)⟩
  · exact (Function.update_self ..).trans (if_neg (by rw [Bool.not_eq_true]; exact hready.isOpen))

/-- **A watcher that is let alone recovers.**  In every run without a cleanup, a watcher that
knows of a disconnect and has not dialled since comes by its own steps, when the broker
refuses none of its calls, to hand over a client that is connected again. -/
theorem watcher_recovers {cfg : RabbitMQ} {p : State} {i : ℕ} {pc : WatchConnection}
    (hr : Run step unstopped (fresh cfg) p) (halive : p.shared.panicked = false)
    (hi : p.threads[i]? = some (.watcher pc)) (ha : pc.Awaits p.shared) :
    ∃ n q, replay step always p (solo i n) = some q ∧ Recovered p q i p.shared.amqp.dialled := by
  obtain ⟨hsep, hint, hrun, hstop, hshown⟩ := unstopped_of_run hr
  obtain ⟨s, ts⟩ := p
  obtain ⟨l, r, rfl, rfl⟩ := exists_focus hi
  have hcfg : s.config.Able := hshown _ (mem_focus_self l r _)
  change Reaches l.length (fun q => Recovered _ q l.length s.amqp.dialled) _
  refine Reaches.attempt halive hstop ha fun f b ms => Reaches.dial halive hcfg.dials ?_
  -- the connection is open, and its channels will be
  have hready : Ready { s with
      amqp := { s.amqp with notify := f }.dial
      manager := { s.manager with connected := b }
      connection := some s.amqp.dialled, producers := ∅, consumers := ∅ } s.amqp.dialled :=
    ⟨rfl, Function.update_self .., hint.unopened⟩
  obtain ⟨os, run, hos, hrun, herr, hbuilt⟩ := rebuild_succeeds hready hcfg rfl rfl
  obtain ⟨n, P, K, hn, hclient⟩ := hbuilt.update
  have halive' : run.client.panicked = false := by rw [hclient]; exact halive
  have hsame : run.client.subscriptions = s.subscriptions := by rw [hclient]; rfl
  have hready' : Ready run.client s.amqp.dialled :=
    hready.congr (by rw [hclient]; rfl) (by rw [hclient]; rfl) hn
  refine Reaches.setup hos halive hrun herr ?_
  refine Reaches.quiet run.client (.restart s.amqp.dialled [] run.client.subscriptions) halive'
    rfl ?_
  refine Reaches.restart hready' halive' fun k w loops hk hsubs hall => ?_
  refine Reaches.finish halive' ?_
  exact hbuilt.recovered hready rfl rfl rfl k w (hsame ▸ hsubs) hall

/-- A dial that was refused: the watcher is in its first back-off. -/
theorem watcher_recovers_refused :
    ∃ p n q, Run step unstopped (fresh defaultRabbitMQConfig) p ∧
      p.threads[2]? = some (.watcher (.backoff 500)) ∧ p.shared.manager.connected = false ∧
      replay step always p (solo 2 n) = some q ∧ q.shared.connection = some 1 ∧
      q.shared.manager.connected = true ∧ q.shared.checkHealth = none := by
  obtain ⟨p, hr, hp⟩ := exists_run_of_replay step unstopped (fresh defaultRabbitMQConfig)
    (fun p => p.threads[2]? == some (.watcher (.backoff 500)) && !p.shared.manager.connected &&
      !p.shared.panicked && p.shared.amqp.dialled == 1 && p.shared.health.healthy)
    (boot ++ .drop 0 :: solo 2 3 ++ [.run 2 (.fail "connection refused")]) (by decide)
  simp only [Bool.and_eq_true, beq_iff_eq, Bool.not_eq_true'] at hp
  obtain ⟨⟨⟨⟨ht, hdown⟩, halive⟩, hdial⟩, hhealthy⟩ := hp
  obtain ⟨n, q, hq, hrec⟩ := watcher_recovers hr halive ht trivial
  exact ⟨p, n, q, hr, ht, hdown, hq, hdial ▸ hrec.connection, hrec.connected,
    hrec.healthy hhealthy⟩

end LynxRabbit
