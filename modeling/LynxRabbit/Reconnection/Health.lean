/-
# `CheckHealth` under automatic reconnection

`CheckHealth` (`health.go`) looks at the entries the two maps hold, not at the
entries they should hold, while `rebuildAfterReconnect` empties the maps and
fills them again one name at a time.  What makes a nil result mean something is
the `connected` flag: `watchConnection` lowers it before it calls the reconnect
callback and raises it after the callback has returned a connection, so a raised
flag stands over complete maps.

The runs are those of a client with one startup and no `ForceReconnect` and no
cleanup; the broker may drop connections, every call to it may fail, and
`Subscribe` calls may come at any time.  `HealthInv` is kept by every step of
such a run, and `checkHealth_sound` reads the statement off it.
-/

import LynxRabbit.Reconnection.Progress

namespace LynxRabbit

open Runs

/-- One startup, then broker disconnects and watcher reconnects: no second
startup, no `ForceReconnect`, no cleanup. -/
def automatic (p : State) : Action → Bool
  | .call .startup => unstarted p
  | .call .cleanup => false
  | .call .forceReconnect => false
  | _ => true

/-- What the goroutine in charge keeps true of the client. -/
def HealthOk (s : Client) : Thread → Prop
  | .watcher (.check _) => s.manager.connected = false
  | .watcher (.callback _ cb) => s.manager.connected = false ∧ cb.OnTrack s
  | .watcher (.established c) => s.connection = some c ∧ Complete s c
  | .watcher (.backoff _) => s.manager.connected = false
  | .startup pc => pc.settingUp = true → s.manager.connected = false ∧ pc.OnTrack s
  | _ => True

/-- A raised flag stands over complete maps. -/
def Up (s : Client) : Prop :=
  s.manager.connected = true → ∃ c, s.connection = some c ∧ Complete s c

/-- The invariant of the runs under `automatic`. -/
structure HealthInv (p : State) : Prop where
  one : SingleStartup p
  kinds : ∀ t ∈ p.threads, t.isForce = false ∧ t.isCleanup = false
  down : unstarted p = true → p.shared.manager.connected = false
  up : Up p.shared
  own : ∀ t ∈ p.threads, HealthOk p.shared t

theorem HealthOk.of_not_guardian {t : Thread} (h : t.guardian = false) (s : Client) :
    HealthOk s t := by
  cases t with
  | watcher pc =>
      cases pc with
      | returned => trivial
      | _ => cases h
  | startup pc => exact fun hu => absurd hu (by simpa [Thread.guardian] using h)
  | _ => trivial

theorem Up.congr {s s' : Client} (h : Up s) (hm : s'.manager = s.manager)
    (hcfg : s'.config = s.config) (hc : s'.connection = s.connection)
    (he : ∀ e, s'.entry e = s.entry e) : Up s' := by
  intro hup
  rw [hm] at hup
  obtain ⟨c, hcc, hcomp⟩ := h hup
  exact ⟨c, hc.trans hcc, hcomp.congr hcfg he⟩

theorem SameCore.up {s s' : Client} (h : SameCore s s') (hu : Up s) : Up s' :=
  hu.congr h.manager h.config h.connection (Client.entry_congr h.producers h.consumers)

/-- A step that leaves the maps, the connection and the manager alone keeps what
every goroutine relies on. -/
theorem HealthOk.congr {s s' : Client} {t : Thread} (h : HealthOk s t)
    (hm : s'.manager = s.manager) (hcfg : s'.config = s.config)
    (hc : s'.connection = s.connection) (he : ∀ e, s'.entry e = s.entry e) : HealthOk s' t := by
  cases t with
  | watcher pc =>
      cases pc <;> try trivial
      case check ms => simpa only [HealthOk, hm] using h
      case callback ms cb => exact ⟨hm ▸ h.1, h.2.congr hcfg hc he⟩
      case established c => exact ⟨hc.trans h.1, h.2.congr hcfg he⟩
      case backoff ms => simpa only [HealthOk, hm] using h
  | startup pc =>
      intro hu
      exact ⟨hm ▸ (h hu).1, (h hu).2.congr hcfg hc he⟩
  | _ => trivial

/-- **One step of a watcher**: it lowers the flag before it works on the maps, and
raises it over complete ones. -/
theorem WatchConnection.Moves.healthOk {s s' : Client} {o : Choice} {pc pc' : WatchConnection}
    {new : List Spawn} (h : pc.Moves s o s' pc' new) (ho : HealthOk s (.watcher pc))
    (hup : Up s) : HealthOk s' (.watcher pc') ∧ Up s' := by
  -- while the flag is down, `Up` says nothing
  have hdown : s.manager.connected = false → ∀ {s₁ : Client}, s₁.manager = s.manager → Up s₁ := by
    intro hd s₁ hm hu
    rw [hm, hd] at hu
    cases hu
  cases h with
  | receive hn => exact ⟨trivial, hup.congr rfl rfl rfl (Client.entry_congr rfl rfl)⟩
  | lower => exact ⟨rfl, fun hu => by cases hu⟩
  | attempt ms hs => exact ⟨⟨ho, trivial⟩, hup⟩
  | callback ms hm =>
      exact ⟨⟨hm.frame.manager ▸ ho.1, ho.2.step hm⟩, hdown ho.1 hm.frame.manager⟩
  | success ms hm => exact ⟨ho.2.step hm, hdown ho.1 hm.frame.manager⟩
  | failure ms f hf => exact ⟨ho.1, hdown ho.1 rfl⟩
  | panic ms c rest hi hc => exact ⟨trivial, hdown ho.1 rfl⟩
  | raise c => exact ⟨trivial, fun _ => ⟨c, ho.1, ho.2.congr rfl (Client.entry_congr rfl rfl)⟩⟩
  | renotify c => exact ⟨trivial, hup.congr rfl rfl rfl (Client.entry_congr rfl rfl)⟩
  | retry ms => exact ⟨ho, hup⟩
  | _ => exact ⟨trivial, hup⟩

/-- The goroutines a step starts rely on nothing. -/
theorem Spawn.healthOk (s : Client) (x : Spawn) : HealthOk s x.thread := by
  cases x <;> trivial

/-- **One step of a goroutine** keeps a raised flag over complete maps and what
the goroutine in charge relies on. -/
theorem Thread.Moves.healthOk {s s' : Client} {t t' : Thread} {o : Choice} {new : List Thread}
    (h : t.Moves s o s' t' new) (hk : t.isForce = false ∧ t.isCleanup = false)
    (ho : HealthOk s t) (hup : Up s) :
    HealthOk s' t' ∧ Up s' ∧ ∀ u ∈ new, HealthOk s' u := by
  have hnew : ∀ u ∈ new, HealthOk s' u := by
    intro u hu
    obtain ⟨x, rfl⟩ := h.spawned u hu
    exact x.healthOk s'
  by_cases hp : t.passive = true
  · obtain ⟨hs, ht', -⟩ := h.passive hp
    exact ⟨.of_not_guardian (Thread.guardian_of_passive ht') s', hs.up hup, hnew⟩
  · cases h with
    | watcher h =>
        obtain ⟨ho', hup'⟩ := h.healthOk ho hup
        exact ⟨ho', hup', hnew⟩
    | @startup pc _ _ _ h =>
        have hu : pc.settingUp = true := by simpa [Thread.passive] using hp
        obtain ⟨hd, ht⟩ := ho hu
        rcases ht.step hu h with ⟨hm, ht'⟩ | ⟨rfl, hc⟩
        · refine ⟨fun _ => ⟨hm.trans hd, ht'⟩, fun hup' => ?_, hnew⟩
          rw [hm, hd] at hup'
          cases hup'
        · exact ⟨fun hu' => (by cases hu'), fun _ => hc, hnew⟩
    | force h => cases hk.1
    | cleanup h => cases hk.2
    | _ => exact absurd rfl hp

/-- **A step of a goroutine keeps the invariant.** -/
theorem HealthInv.run {p : State} {l r new : List Thread} {t t' : Thread} {o : Choice}
    {s' : Client} (hi : HealthInv p) (hl : p.threads = l ++ t :: r)
    (ht : t.Moves p.shared o s' t' new) (hone : SingleStartup ⟨s', l ++ t' :: r ++ new⟩) :
    HealthInv ⟨s', l ++ t' :: r ++ new⟩ := by
  obtain ⟨⟨-, hexcl, hidle⟩, hkinds, hdown, hup, hown⟩ := hi
  rw [unstarted_iff, hl] at hidle hdown
  rw [hl] at hkinds hexcl hown
  have hmem := mem_focus_self l r t
  obtain ⟨ho', hup', hnew⟩ := ht.healthOk (hkinds t hmem) (hown t hmem) hup
  refine ⟨hone, ?_, fun hu => ?_, hup', ?_⟩
  · refine forall_focus hkinds (fun u _ hu => hu) ?_ fun u hu => ?_
    · rw [ht.kind.2.1, ht.kind.2.2]
      exact hkinds t hmem
    · obtain ⟨x, rfl⟩ := ht.spawned u hu
      exact x.thread_kind.2
  · have hu := ht.countP_startup.symm.trans (unstarted_iff.1 hu)
    by_cases hp : t.passive = true
    · rw [(ht.passive hp).1.manager]
      exact hdown hu
    · have hgt := ht.guardian_of_active (by simpa using hp) (hkinds t hmem)
      exact absurd hgt (List.countP_eq_zero.1 (hidle hu) t hmem)
  · by_cases hp : t.passive = true
    · obtain ⟨hs, -, -⟩ := ht.passive hp
      exact forall_focus hown (fun u _ hu => hu.congr hs.manager hs.config hs.connection
        (Client.entry_congr hs.producers hs.consumers)) ho' hnew
    · -- the mover is in charge, so nobody else is
      have hgt := ht.guardian_of_active (by simpa using hp) (hkinds t hmem)
      exact forall_focus hown
        (fun u hu _ => .of_not_guardian (not_of_countP_le_one hexcl hgt hu) s') ho' hnew

/-- **Every step keeps the invariant.** -/
theorem HealthInv.step {p p' : State} {a : Action} (hi : HealthInv p)
    (hg : automatic p a = true) (h : Moves p a p') : HealthInv p' := by
  have hone := hi.one.step (oneStartup_of_guard rfl hg) h
  have ⟨_, hkinds, hdown, hup, hown⟩ := hi
  cases h with
  | run hl hix ht => exact hi.run hl ht hone
  | drop hc ho =>
      exact ⟨hone, hkinds, hdown, hup.congr rfl rfl rfl (Client.entry_congr rfl rfl),
        fun t ht => (hown t ht).congr rfl rfl rfl (Client.entry_congr rfl rfl)⟩
  | call k =>
      have hk : (k.thread p.threads.length).isForce = false ∧
          (k.thread p.threads.length).isCleanup = false ∧
          HealthOk p.shared (k.thread p.threads.length) := by
        cases k with
        | startup => exact ⟨rfl, rfl, fun _ => ⟨hdown hg, trivial⟩⟩
        | cleanup => cases hg
        | forceReconnect => cases hg
        | subscribe queue handler => exact ⟨rfl, rfl, trivial⟩
        | subscribeWith name queue handler => exact ⟨rfl, rfl, trivial⟩
      refine ⟨hone, ?_, fun hu => hdown ?_, hup, ?_⟩
      · exact List.forall_mem_append.2 ⟨hkinds, List.forall_mem_singleton.2 ⟨hk.1, hk.2.1⟩⟩
      · rw [unstarted, List.all_append, Bool.and_eq_true] at hu
        exact hu.1
      · exact List.forall_mem_append.2 ⟨hown, List.forall_mem_singleton.2 hk.2.2⟩
  | cancel id =>
      exact ⟨hone, hkinds, hdown, hup.congr rfl rfl rfl (Client.entry_congr rfl rfl),
        fun t ht => (hown t ht).congr rfl rfl rfl (Client.entry_congr rfl rfl)⟩

theorem healthInv_fresh (cfg : RabbitMQ) : HealthInv (fresh cfg) :=
  ⟨singleStartup_fresh cfg, fun t ht => (by cases ht), fun _ => rfl, fun h => (by cases h),
    fun t ht => (by cases ht)⟩

/-- **`CheckHealth` is sound under automatic reconnection.**  In every state of
every run made of one startup, broker disconnects and watcher reconnects, a nil
`CheckHealth` means that `r.connection` is open and that every enabled producer
and consumer has, under its name, a channel opened on that very connection. -/
theorem checkHealth_sound (cfg : RabbitMQ) (p : State) (hr : Run step automatic (fresh cfg) p)
    (hnil : p.shared.checkHealth = none) :
    ∃ c, p.shared.connection = some c ∧ p.shared.amqp.closed c = false ∧
      (∀ k ∈ cfg.getEnabledProducers, ∃ ch,
        p.shared.producers.lookup k.name = some (some ch) ∧ ch.conn = c) ∧
      ∀ k ∈ cfg.getEnabledConsumers, ∃ ch,
        p.shared.consumers.lookup k.name = some (some ch) ∧ ch.conn = c := by
  have hi : HealthInv p := hr.invariant (healthInv_fresh cfg) fun _ _ _ hi hg h =>
    hi.step hg (moves_of_step h).2
  obtain ⟨⟨c, hc, ho⟩, hup, -⟩ := (Client.checkHealth_eq_none_iff p.shared).1 hnil
  obtain ⟨c', hc', hcomp⟩ := hi.up hup
  obtain rfl : c = c' := Option.some.inj (hc.symm.trans hc')
  rw [Complete, run_config hr] at hcomp
  refine ⟨c, hc, ho, fun k hk => hcomp (.producer k.name) ?_, fun k hk =>
    hcomp (.consumer k.name) ?_⟩
  · exact List.mem_append_left _ (List.mem_map.2 ⟨k, hk, rfl⟩)
  · exact List.mem_append_right _ (List.mem_map.2 ⟨k, hk, rfl⟩)

/-- The default client started, lost its connection, and reconnected: the state
before the flag is raised again is not healthy, the state after it is. -/
theorem checkHealth_sound_reconnected :
    ∃ p, Run step automatic (fresh defaultRabbitMQConfig) p ∧ p.shared.checkHealth = none ∧
      ∃ c, p.shared.connection = some c ∧ p.shared.amqp.closed c = false ∧
        (∀ k ∈ defaultRabbitMQConfig.getEnabledProducers, ∃ ch,
          p.shared.producers.lookup k.name = some (some ch) ∧ ch.conn = c) ∧
        ∀ k ∈ defaultRabbitMQConfig.getEnabledConsumers, ∃ ch,
          p.shared.consumers.lookup k.name = some (some ch) ∧ ch.conn = c := by
  obtain ⟨p, hr, hp⟩ := exists_run_of_replay step automatic (fresh defaultRabbitMQConfig)
    (fun p => p.shared.connection == some 1 && p.shared.checkHealth.isNone)
    (boot ++ .drop 0 :: solo 2 18) (by decide)
  have hnil : p.shared.checkHealth = none := by
    rw [Bool.and_eq_true, Option.isNone_iff_eq_none] at hp
    exact hp.2
  exact ⟨p, hr, hnil, checkHealth_sound defaultRabbitMQConfig p hr hnil⟩

end LynxRabbit
