/-
# The metrics under concurrent calls

`Metrics` of `metrics.go` as many goroutines use it: every `Increment…`, `Record…`,
`SetHealthy`, `UpdateLastHealthCheck`, `Reset`, `GetStats` and `GetPrometheusMetrics` is a
program of the single atomic operations it is made of, and calls interleave anywhere.  The
counters are written by `sync/atomic`, mostly without the lock; the times and `Reset` are
written under `mu.Lock`; both exports read field by field under `mu.RLock`.

The state keeps two records that the source does not have and nothing reads: how often a
counter was incremented since it was last set to zero, and how many stores were made under
the lock.  With them `exports_see_whole_resets` says what an export returns although it is
not atomic: the counters of one generation, between two whole `Reset`s, each with the number
of its increments at some moment of the call.  `metrics_calls_finish` says that the calls
never block one another.
-/

import LynxRabbit.Metrics.Export
import LynxRabbit.Runs.Sections

namespace LynxRabbit

open Runs

/-! ### The fields -/

/-- The fields of `Metrics` that `sync/atomic` writes, in the order of `Reset`. -/
inductive Cell
  | producerMessagesSent
  | producerMessagesFailed
  | producerLatency
  | consumerMessagesReceived
  | consumerMessagesFailed
  | consumerLatency
  | connectionErrors
  | reconnectionCount
  | healthCheckCount
  | healthCheckErrors
  | isHealthy
deriving DecidableEq, Repr

/-- All of them. -/
def Cell.all : List Cell :=
  [.producerMessagesSent, .producerMessagesFailed, .producerLatency, .consumerMessagesReceived,
    .consumerMessagesFailed, .consumerLatency, .connectionErrors, .reconnectionCount,
    .healthCheckCount, .healthCheckErrors, .isHealthy]

/-- The field only ever grows by one or goes back to zero. -/
def Cell.isCounter : Cell → Bool
  | .producerLatency => false
  | .consumerLatency => false
  | .isHealthy => false
  | _ => true

/-- `LoadInt64` and `LoadInt32`. -/
def MetricsRecord.load (m : MetricsRecord) : Cell → Int64
  | .producerMessagesSent => m.producerMessagesSent
  | .producerMessagesFailed => m.producerMessagesFailed
  | .producerLatency => m.producerLatency
  | .consumerMessagesReceived => m.consumerMessagesReceived
  | .consumerMessagesFailed => m.consumerMessagesFailed
  | .consumerLatency => m.consumerLatency
  | .connectionErrors => m.connectionErrors
  | .reconnectionCount => m.reconnectionCount
  | .healthCheckCount => m.healthCheckCount
  | .healthCheckErrors => m.healthCheckErrors
  | .isHealthy => m.isHealthy.toInt64

/-- `StoreInt64` and `StoreInt32`. -/
def MetricsRecord.store (m : MetricsRecord) (v : Int64) : Cell → MetricsRecord
  | .producerMessagesSent => { m with producerMessagesSent := v }
  | .producerMessagesFailed => { m with producerMessagesFailed := v }
  | .producerLatency => { m with producerLatency := v }
  | .consumerMessagesReceived => { m with consumerMessagesReceived := v }
  | .consumerMessagesFailed => { m with consumerMessagesFailed := v }
  | .consumerLatency => { m with consumerLatency := v }
  | .connectionErrors => { m with connectionErrors := v }
  | .reconnectionCount => { m with reconnectionCount := v }
  | .healthCheckCount => { m with healthCheckCount := v }
  | .healthCheckErrors => { m with healthCheckErrors := v }
  | .isHealthy => { m with isHealthy := v.toInt32 }

theorem MetricsRecord.load_store (m : MetricsRecord) (v : Int64) {c c' : Cell}
    (hc : c'.isCounter = true) : (m.store v c).load c' = if c' = c then v else m.load c' := by
  cases c' with
  | producerLatency => cases hc
  | consumerLatency => cases hc
  | isHealthy => cases hc
  | _ => cases c <;> rfl

/-! ### The calls -/

/-- The methods of `Metrics` that touch its fields. -/
inductive MetricsCall
  | incrementProducerMessagesSent
  | incrementProducerMessagesFailed
  | recordProducerLatency (duration : Int64)
  | incrementConsumerMessagesReceived
  | incrementConsumerMessagesFailed
  | recordConsumerLatency (duration : Int64)
  | incrementConnectionErrors
  | incrementReconnectionCount (now : Timestamp)
  | incrementHealthCheckCount
  | incrementHealthCheckErrors
  | setHealthy (healthy : Bool)
  | updateLastHealthCheck (now : Timestamp)
  | getStats
  | reset (now : Timestamp)
  | getPrometheusMetrics
deriving DecidableEq, Repr

/-- One access to a field. -/
inductive Access
  | add (c : Cell)
  | store (c : Cell) (v : Int64)
  | zero (c : Cell)
  | load (c : Cell)
  | loadReconnectTime
  | loadHealthCheckTime
  | setReconnectTime (t : Timestamp)
  | setHealthCheckTime (t : Timestamp)
deriving DecidableEq, Repr

/-- In which part of a call an access is made: increments and gauges without the lock, what
an export reads under `RLock`, and what `Reset` and the times store under `Lock`. -/
def Access.allowed : Access → Mode → Bool
  | .add c, x => c.isCounter && x == .outside
  | .store c _, x => !c.isCounter && x == .outside
  | .zero _, x => x == .writing
  | .load _, x => x == .reading
  | .loadReconnectTime, x => x == .reading
  | .loadHealthCheckTime, x => x == .reading
  | .setReconnectTime _, x => x == .writing
  | .setHealthCheckTime _, x => x == .writing

/-- The metrics in use: the record, how often each counter was incremented since it was
last set to zero, and how many zeros and values were stored under the lock. -/
structure Live where
  fields : MetricsRecord
  count : Cell → ℕ := fun _ => 0
  zeros : ℕ := 0
  writes : ℕ := 0

/-- A read, and what had been stored under the lock when it was made. -/
structure Stamp where
  read : Access
  zeros : ℕ
  writes : ℕ
deriving DecidableEq, Repr

/-- What a call has read: the record it exports, how often each counter had been
incremented when it was read, and its reads. -/
structure Snapshot where
  call : MetricsCall
  fields : MetricsRecord := .zero
  count : Cell → ℕ := fun _ => 0
  stamps : List Stamp := []

/-- A read is noted. -/
def Snapshot.noting (r : Snapshot) (s : Live) (i : Access) : Snapshot :=
  { r with stamps := r.stamps ++ [⟨i, s.zeros, s.writes⟩] }

/-- An access, to the metrics and to what the call keeps. -/
def Access.effect : Access → Live → Snapshot → Live × Snapshot
  | .add c, s, r =>
    ({ s with
      fields := s.fields.store (s.fields.load c + 1) c
      count := Function.update s.count c (s.count c + 1) }, r)
  | .store c v, s, r => ({ s with fields := s.fields.store v c }, r)
  | .zero c, s, r =>
    ({ s with
      fields := s.fields.store 0 c
      count := Function.update s.count c 0
      zeros := s.zeros + 1
      writes := s.writes + 1 }, r)
  | .load c, s, r =>
    (s, { r.noting s (.load c) with
      fields := r.fields.store (s.fields.load c) c
      count := Function.update r.count c (s.count c) })
  | .loadReconnectTime, s, r =>
    (s, { r.noting s .loadReconnectTime with
      fields := { r.fields with lastReconnectTime := s.fields.lastReconnectTime } })
  | .loadHealthCheckTime, s, r =>
    (s, { r.noting s .loadHealthCheckTime with
      fields := { r.fields with lastHealthCheck := s.fields.lastHealthCheck } })
  | .setReconnectTime t, s, r =>
    ({ s with fields := { s.fields with lastReconnectTime := t }, writes := s.writes + 1 }, r)
  | .setHealthCheckTime t, s, r =>
    ({ s with fields := { s.fields with lastHealthCheck := t }, writes := s.writes + 1 }, r)

/-- `mu.Lock`, the accesses, `mu.Unlock`. -/
def locked (as : List Access) : List (Op Access) :=
  [.request, .acquire] ++ as.map .act ++ [.unlock]

/-- `mu.RLock`, the accesses, `mu.RUnlock`. -/
def rLocked (as : List Access) : List (Op Access) := [.rLock] ++ as.map .act ++ [.rUnlock]

/-- The operations of a method, in order. -/
def MetricsCall.ops : MetricsCall → List (Op Access)
  | .incrementProducerMessagesSent => [.act (.add .producerMessagesSent)]
  | .incrementProducerMessagesFailed => [.act (.add .producerMessagesFailed)]
  | .recordProducerLatency d => [.act (.store .producerLatency d)]
  | .incrementConsumerMessagesReceived => [.act (.add .consumerMessagesReceived)]
  | .incrementConsumerMessagesFailed => [.act (.add .consumerMessagesFailed)]
  | .recordConsumerLatency d => [.act (.store .consumerLatency d)]
  | .incrementConnectionErrors => [.act (.add .connectionErrors)]
  -- the time is written in a step of its own, under the lock
  | .incrementReconnectionCount now =>
    .act (.add .reconnectionCount) :: locked [.setReconnectTime now]
  | .incrementHealthCheckCount => [.act (.add .healthCheckCount)]
  | .incrementHealthCheckErrors => [.act (.add .healthCheckErrors)]
  | .setHealthy healthy => [.act (.store .isHealthy (if healthy then 1 else 0))]
  | .updateLastHealthCheck now => locked [.setHealthCheckTime now]
  | .getStats =>
    rLocked [.load .producerMessagesSent, .load .producerMessagesFailed, .load .producerLatency,
      .load .consumerMessagesReceived, .load .consumerMessagesFailed, .load .consumerLatency,
      .load .connectionErrors, .load .reconnectionCount, .loadReconnectTime,
      .load .healthCheckCount, .load .healthCheckErrors, .loadHealthCheckTime, .load .isHealthy]
  | .reset now =>
    locked (Cell.all.map .zero ++ [.setReconnectTime .zero, .setHealthCheckTime now])
  | .getPrometheusMetrics =>
    rLocked [.load .producerMessagesSent, .load .producerMessagesFailed, .load .producerLatency,
      .load .consumerMessagesReceived, .load .consumerMessagesFailed, .load .consumerLatency,
      .load .connectionErrors, .load .reconnectionCount, .load .isHealthy,
      .load .healthCheckCount, .load .healthCheckErrors, .loadHealthCheckTime,
      -- `IsZero` and, for a time that is set, `Unix`: both under the same `RLock`, one read here
      .loadReconnectTime]

/-- A method as a program. -/
def MetricsCall.program (c : MetricsCall) : Program Access.allowed where
  ops := c.ops
  starts := by cases c <;> rfl
  wf := by cases c <;> rfl

/-- What can happen next: a call takes a step, or another one is made. -/
inductive MetricsAction
  | run (i : ℕ)
  | call (c : MetricsCall)
deriving DecidableEq, Repr

/-- A step of the metrics and of the calls on them. -/
def metricsStep (p : Pool (Guarded Live) (Runner Access.allowed Snapshot)) :
    MetricsAction → Option (Pool (Guarded Live) (Runner Access.allowed Snapshot))
  | .run i => callStep Access.effect p (.run i)
  | .call c => callStep Access.effect p (.call c.program { call := c })

/-- `NewMetrics`. -/
def newMetrics (now : Timestamp) : Pool (Guarded Live) (Runner Access.allowed Snapshot) :=
  ⟨⟨.unlocked, { fields := { MetricsRecord.zero with lastHealthCheck := now } }⟩, []⟩

/-! ### What a call has left to store -/

/-- How many zeros a call stores until it unlocks. -/
def zerosDue : List (Op Access) → ℕ
  | .act (.zero _) :: k => zerosDue k + 1
  | .act _ :: k => zerosDue k
  | _ => 0

/-- A call stores a zero in all fields or in none, and has one part under `RLock`. -/
def tidy : List (Op Access) → Bool
  | [] => true
  | .acquire :: k => zerosDue k % Cell.all.length == 0 && tidy k
  | .rLock :: k => !k.contains .rLock && tidy k
  | _ :: k => tidy k

theorem MetricsCall.tidy_ops (c : MetricsCall) : tidy c.ops = true := by
  cases c with
  | reset now => simp [MetricsCall.ops, locked, Cell.all, tidy, zerosDue]
  | _ => rfl

theorem tidy_tail {o : Op Access} {k : List (Op Access)} (h : tidy (o :: k) = true) :
    tidy k = true := by
  cases o <;> simp only [tidy, Bool.and_eq_true] at h <;> first | exact h | exact h.2

/-- What a call reads. -/
def readsOf (k : List (Op Access)) : List Access :=
  k.filterMap fun
    | .act (.load c) => some (.load c)
    | .act .loadReconnectTime => some .loadReconnectTime
    | .act .loadHealthCheckTime => some .loadHealthCheckTime
    | _ => none

/-- The zeros a call is in the middle of storing. -/
def owed (t : Runner Access.allowed Snapshot) : ℕ :=
  if mode t.todo = .writing then zerosDue t.todo else 0

/-- What one operation does to the zeros that were stored and to those that are owed. -/
theorem zeros_step {t t' : Runner Access.allowed Snapshot} {o : Op Access}
    {k : List (Op Access)} (ht : t.todo = o :: k) (ht' : t'.todo = k)
    (htidy : tidy (o :: k) = true) (s : Live) (r : Snapshot) :
    ((o.effect Access.effect s r).1.zeros + owed t') % Cell.all.length =
      (s.zeros + owed t) % Cell.all.length := by
  have hwf := t.wf
  unfold owed
  rw [ht] at hwf ⊢
  rw [ht']
  cases o with
  | rLock =>
      simp only [wellFormed, Bool.and_eq_true, beq_iff_eq] at hwf
      rw [hwf.1]
      rfl
  | rUnlock =>
      simp only [wellFormed, Bool.and_eq_true, beq_iff_eq] at hwf
      rw [hwf.1]
      rfl
  | request =>
      simp only [wellFormed, Bool.and_eq_true, beq_iff_eq] at hwf
      rw [hwf.1]
      rfl
  | acquire =>
      simp only [wellFormed, Bool.and_eq_true, beq_iff_eq] at hwf
      simp only [tidy, Bool.and_eq_true, beq_iff_eq] at htidy
      rw [if_pos hwf.1]
      show (s.zeros + zerosDue k) % Cell.all.length = (s.zeros + 0) % Cell.all.length
      rw [Nat.add_mod, htidy.1, Nat.add_zero, Nat.add_zero, Nat.mod_mod]
  | unlock =>
      simp only [wellFormed, Bool.and_eq_true, beq_iff_eq] at hwf
      rw [hwf.1]
      rfl
  | act i =>
      show ((Access.effect i s r).1.zeros + (if mode k = .writing then zerosDue k else 0)) % _ =
        (s.zeros + (if mode k = .writing then zerosDue (.act i :: k) else 0)) % _
      simp only [wellFormed, Bool.and_eq_true] at hwf
      cases i with
      | zero c =>
          have hm : mode k = .writing := by simpa [Access.allowed] using hwf.1.2
          rw [if_pos hm, if_pos hm]
          show (s.zeros + 1 + zerosDue k) % _ = (s.zeros + (zerosDue k + 1)) % _
          congr 1
          omega
      | _ => rfl

/-! ### What a call has read -/

/-- What the reads of a call have in common: all were made behind the same stores, between
whole resets; what it has of a counter is the number of its increments then, which is not
more than there are now unless the counter was reset since. -/
structure Snapshot.Sound (s : Live) (r : Snapshot) : Prop where
  same : ∀ x ∈ r.stamps, ∀ y ∈ r.stamps, x.zeros = y.zeros ∧ x.writes = y.writes
  whole : ∀ x ∈ r.stamps, x.zeros % Cell.all.length = 0
  past : ∀ x ∈ r.stamps, x.zeros ≤ s.zeros
  unread : r.stamps = [] → ∀ c, r.count c = 0
  values : ∀ c, c.isCounter = true → r.fields.load c = Int64.ofNat (r.count c)
  bounded : (∀ x ∈ r.stamps, x.zeros = s.zeros) → ∀ c, r.count c ≤ s.count c

/-- What holds of a call that is under way: while it reads, nothing was stored under the
lock since its first read; it has read nothing before it takes the lock, and all it should
when it is done. -/
structure CallSound (s : Live) (t : Runner Access.allowed Snapshot) : Prop where
  isTidy : tidy t.todo = true
  reads : t.loc.Sound s
  current : mode t.todo = .reading → .rLock ∉ t.todo ∧
    ∀ x ∈ t.loc.stamps, x.zeros = s.zeros ∧ x.writes = s.writes
  fresh : .rLock ∈ t.todo → t.loc.stamps = []
  complete : t.loc.stamps.map (·.read) ++ readsOf t.todo = readsOf t.loc.call.ops

/-- Every counter holds the number of its increments, and every call is as it should be. -/
structure MetricsSound (p : Pool (Guarded Live) (Runner Access.allowed Snapshot)) : Prop where
  lock : LockAgrees p
  zeros : (p.shared.data.zeros + (p.threads.map owed).sum) % Cell.all.length = 0
  counts : ∀ c, c.isCounter = true →
    p.shared.data.fields.load c = Int64.ofNat (p.shared.data.count c)
  calls : ∀ t ∈ p.threads, CallSound p.shared.data t

/-- While a call reads, all resets are whole. -/
theorem MetricsSound.whole {p : Pool (Guarded Live) (Runner Access.allowed Snapshot)}
    (h : MetricsSound p) {t : Runner Access.allowed Snapshot} (ht : t ∈ p.threads)
    (hm : mode t.todo = .reading) : p.shared.data.zeros % Cell.all.length = 0 := by
  have hnone : (p.threads.map owed).sum = 0 := by
    refine List.sum_eq_zero fun x hx => ?_
    obtain ⟨u, hu, rfl⟩ := List.mem_map.1 hx
    exact if_neg (h.lock.not_writing ht hm hu)
  have := h.zeros
  rwa [hnone] at this

/-- Zeros are only stored, and counters only grow while none is. -/
structure Live.Ages (s s' : Live) : Prop where
  zeros : s.zeros ≤ s'.zeros
  count : s'.zeros = s.zeros → ∀ c, s.count c ≤ s'.count c

theorem Access.effect_ages (i : Access) (s : Live) (r : Snapshot) :
    s.Ages (i.effect s r).1 := by
  cases i with
  | add c =>
      refine ⟨Nat.le_refl _, fun _ c' => ?_⟩
      simp only [Access.effect, Function.update_apply]
      split_ifs with hc
      · rw [hc]
        exact Nat.le_succ _
      · exact Nat.le_refl _
  | zero c => exact ⟨Nat.le_succ _, fun h => absurd h (Nat.succ_ne_self _)⟩
  | _ => exact ⟨Nat.le_refl _, fun _ _ => Nat.le_refl _⟩

theorem Op.effect_ages (o : Op Access) (s : Live) (r : Snapshot) :
    s.Ages (o.effect Access.effect s r).1 := by
  cases o with
  | act i => exact i.effect_ages s r
  | _ => exact ⟨Nat.le_refl _, fun _ _ => Nat.le_refl _⟩

/-- What a call has read stays as true when the metrics change. -/
theorem Snapshot.Sound.carry {s s' : Live} {r : Snapshot} (h : r.Sound s) (ha : s.Ages s') :
    r.Sound s' where
  same := h.same
  whole := h.whole
  past := fun x hx => (h.past x hx).trans ha.zeros
  unread := h.unread
  values := h.values
  bounded := by
    intro hall c
    cases hst : r.stamps with
    | nil =>
        rw [h.unread hst c]
        exact Nat.zero_le _
    | cons x xs =>
        have hx : x ∈ r.stamps := hst ▸ List.mem_cons_self
        have hz : s'.zeros = s.zeros := Nat.le_antisymm ((hall x hx) ▸ h.past x hx) ha.zeros
        exact (h.bounded (fun y hy => (hall y hy).trans hz) c).trans (ha.count hz c)

/-- Nothing is stored under the lock by a call that does not hold it. -/
theorem Access.effect_stores {i : Access} {x : Mode} (h : i.allowed x = true)
    (hx : x ≠ .writing) (s : Live) (r : Snapshot) :
    (i.effect s r).1.zeros = s.zeros ∧ (i.effect s r).1.writes = s.writes := by
  cases i with
  | zero c => exact absurd (by simpa [Access.allowed] using h) hx
  | setReconnectTime t => exact absurd (by simpa [Access.allowed] using h) hx
  | setHealthCheckTime t => exact absurd (by simpa [Access.allowed] using h) hx
  | _ => exact ⟨rfl, rfl⟩

/-- A counter holds the number of its increments after every access. -/
theorem Access.effect_counts {i : Access} {x : Mode} (h : i.allowed x = true) {s : Live}
    (hs : ∀ c, c.isCounter = true → s.fields.load c = Int64.ofNat (s.count c)) (r : Snapshot)
    {c : Cell} (hc : c.isCounter = true) :
    (i.effect s r).1.fields.load c = Int64.ofNat ((i.effect s r).1.count c) := by
  cases i with
  | add c' =>
      simp only [Access.effect, MetricsRecord.load_store _ _ hc, Function.update_apply]
      split_ifs with heq
      · rw [← heq, hs c hc, Int64.ofNat_add]
        rfl
      · exact hs c hc
  | store c' v =>
      have hne : c ≠ c' := by
        rintro rfl
        simp [Access.allowed, hc] at h
      simp only [Access.effect, MetricsRecord.load_store _ _ hc, if_neg hne]
      exact hs c hc
  | zero c' =>
      simp only [Access.effect, MetricsRecord.load_store _ _ hc, Function.update_apply]
      split_ifs with heq
      · rfl
      · exact hs c hc
  | _ => exact hs c hc

/-- One more read. -/
theorem Snapshot.Sound.noting {s : Live} {r : Snapshot} (h : r.Sound s)
    (hcur : ∀ x ∈ r.stamps, x.zeros = s.zeros ∧ x.writes = s.writes)
    (hw : s.zeros % Cell.all.length = 0) {fields : MetricsRecord} {count : Cell → ℕ}
    (hv : ∀ c, c.isCounter = true → fields.load c = Int64.ofNat (count c))
    (hb : ∀ c, count c = r.count c ∨ count c = s.count c) (i : Access) :
    Snapshot.Sound s { r.noting s i with fields := fields, count := count } := by
  have hall : ∀ x ∈ r.stamps ++ [⟨i, s.zeros, s.writes⟩],
      x.zeros = s.zeros ∧ x.writes = s.writes := by
    intro x hx
    rcases List.mem_append.1 hx with hx | hx
    · exact hcur x hx
    · obtain rfl := List.mem_singleton.1 hx
      exact ⟨rfl, rfl⟩
  refine ⟨fun x hx y hy => ?_, fun x hx => ?_, fun x hx => ?_, fun hnil => ?_, hv, fun hz c => ?_⟩
  · obtain ⟨h₁, h₂⟩ := hall x hx
    obtain ⟨h₃, h₄⟩ := hall y hy
    exact ⟨h₁.trans h₃.symm, h₂.trans h₄.symm⟩
  · rw [(hall x hx).1]
    exact hw
  · exact Nat.le_of_eq (hall x hx).1
  · exact absurd hnil (by simp [Snapshot.noting])
  · rcases hb c with hc | hc
    · show count c ≤ s.count c
      rw [hc]
      exact h.bounded (fun x hx => hz x (List.mem_append_left _ hx)) c
    · exact Nat.le_of_eq hc

/-- What a call keeps after an access: it has noted one more read, or it is as before. -/
theorem Snapshot.Sound.effect {i : Access} {x : Mode} (hi : i.allowed x = true) {s : Live}
    {r : Snapshot} (h : r.Sound s)
    (hcur : x = .reading → (∀ y ∈ r.stamps, y.zeros = s.zeros ∧ y.writes = s.writes) ∧
      s.zeros % Cell.all.length = 0)
    (hs : ∀ c, c.isCounter = true → s.fields.load c = Int64.ofNat (s.count c)) :
    (i.effect s r).2.Sound s := by
  cases i with
  | load c' =>
      obtain ⟨hst, hw⟩ := hcur (by simpa [Access.allowed] using hi)
      refine h.noting hst hw (fun c hc => ?_) (fun c => ?_) _
      · simp only [MetricsRecord.load_store _ _ hc, Function.update_apply]
        split_ifs with heq
        · rw [← heq]
          exact hs c hc
        · exact h.values c hc
      · simp only [Function.update_apply]
        split_ifs with heq
        · exact .inr (by rw [heq])
        · exact .inl rfl
  | loadReconnectTime =>
      obtain ⟨hst, hw⟩ := hcur (by simpa [Access.allowed] using hi)
      refine h.noting hst hw (fun c hc => ?_) (fun c => .inl rfl) _
      refine Eq.trans ?_ (h.values c hc)
      cases c <;> rfl
  | loadHealthCheckTime =>
      obtain ⟨hst, hw⟩ := hcur (by simpa [Access.allowed] using hi)
      refine h.noting hst hw (fun c hc => ?_) (fun c => .inl rfl) _
      refine Eq.trans ?_ (h.values c hc)
      cases c <;> rfl
  | _ => exact h

/-- The reads a call has noted after an access are the old ones and this one if it is one. -/
theorem Access.effect_stamps (i : Access) (s : Live) (r : Snapshot) :
    (i.effect s r).2.stamps =
      r.stamps ++ (readsOf [.act i]).map fun i => ⟨i, s.zeros, s.writes⟩ := by
  cases i with
  | load c => rfl
  | loadReconnectTime => rfl
  | loadHealthCheckTime => rfl
  | _ => exact (List.append_nil _).symm

/-- Reads are made under `RLock`. -/
theorem Access.mode_of_readsOf {i : Access} {x : Mode} (hi : i.allowed x = true)
    (h : readsOf [.act i] ≠ []) : x = .reading := by
  cases i with
  | load c => simpa [Access.allowed] using hi
  | loadReconnectTime => simpa [Access.allowed] using hi
  | loadHealthCheckTime => simpa [Access.allowed] using hi
  | _ => exact absurd rfl h

/-! ### Steps -/

/-- A call that does not move stays as it is: what it reads is not stored meanwhile. -/
theorem CallSound.carry {s : Live} {u : Runner Access.allowed Snapshot} (h : CallSound s u)
    {o : Op Access} {k : List (Op Access)} (hwf : wellFormed Access.allowed (o :: k) = true)
    (hm : mode u.todo = .reading → mode (o :: k) ≠ .writing) (r : Snapshot) :
    CallSound (o.effect Access.effect s r).1 u where
  isTidy := h.isTidy
  reads := h.reads.carry (Op.effect_ages o s r)
  current := by
    intro hr
    refine ⟨(h.current hr).1, fun x hx => ?_⟩
    obtain ⟨h₁, h₂⟩ := (h.current hr).2 x hx
    cases o with
    | act i =>
        simp only [wellFormed, Bool.and_eq_true] at hwf
        obtain ⟨h₃, h₄⟩ := Access.effect_stores hwf.1.2 (hm hr) s r
        exact ⟨h₁.trans h₃.symm, h₂.trans h₄.symm⟩
    | _ => exact ⟨h₁, h₂⟩
  fresh := h.fresh
  complete := h.complete

/-- The call that moves, when it makes an access. -/
theorem CallSound.access {s : Live} {t t' : Runner Access.allowed Snapshot} {i : Access}
    {k : List (Op Access)} (h : CallSound s t) (ht : t.todo = .act i :: k) (ht' : t'.todo = k)
    (hloc : t'.loc = (i.effect s t.loc).2)
    (hwhole : mode k = .reading → s.zeros % Cell.all.length = 0)
    (hs : ∀ c, c.isCounter = true → s.fields.load c = Int64.ofNat (s.count c)) :
    CallSound (i.effect s t.loc).1 t' := by
  have hwf := t.wf
  rw [ht] at hwf
  simp only [wellFormed, Bool.and_eq_true] at hwf
  have hi := hwf.1.2
  have hcur : mode k = .reading → .rLock ∉ k ∧
      ∀ x ∈ t.loc.stamps, x.zeros = s.zeros ∧ x.writes = s.writes := by
    intro hr
    obtain ⟨h₁, h₂⟩ := h.current (by rw [ht]; exact hr)
    rw [ht] at h₁
    exact ⟨fun hm => h₁ (List.mem_cons_of_mem _ hm), h₂⟩
  have hcall : (i.effect s t.loc).2.call = t.loc.call := by cases i <;> rfl
  have hst := Access.effect_stamps i s t.loc
  refine ⟨?_, ?_, fun hr => ?_, fun hm => ?_, ?_⟩
  · rw [ht']
    exact tidy_tail (ht ▸ h.isTidy)
  · rw [hloc]
    refine Snapshot.Sound.carry ?_ (i.effect_ages s t.loc)
    exact h.reads.effect hi (fun hr => ⟨(hcur hr).2, hwhole hr⟩) hs
  · rw [ht'] at hr ⊢
    refine ⟨(hcur hr).1, fun x hx => ?_⟩
    have hne : mode k ≠ .writing := by
      rw [hr]
      decide
    obtain ⟨h₃, h₄⟩ := Access.effect_stores hi hne s t.loc
    rw [h₃, h₄]
    rw [hloc, hst] at hx
    rcases List.mem_append.1 hx with hx | hx
    · exact (hcur hr).2 x hx
    · obtain ⟨j, -, rfl⟩ := List.mem_map.1 hx
      exact ⟨rfl, rfl⟩
  · rw [ht'] at hm
    have hold := h.fresh (by rw [ht]; exact List.mem_cons_of_mem _ hm)
    rw [hloc, hst, hold]
    by_cases hread : readsOf [.act i] = []
    · rw [hread]
      rfl
    · exact absurd hm (hcur (Access.mode_of_readsOf hi hread)).1
  · have hold := h.complete
    have hsplit : readsOf (.act i :: k) = readsOf [.act i] ++ readsOf k := by
      unfold readsOf
      rw [← List.filterMap_append]
      rfl
    rw [ht, hsplit] at hold
    rw [hloc, hst, ht', hcall, ← hold, List.map_append, List.map_map, List.append_assoc]
    simp [Function.comp_def]

/-- The call that moves, when it locks or unlocks. -/
theorem CallSound.locks {s : Live} {t t' : Runner Access.allowed Snapshot} {o : Op Access}
    {k : List (Op Access)} (h : CallSound s t) (ht : t.todo = o :: k) (ht' : t'.todo = k)
    (hloc : t'.loc = t.loc) (ho : readsOf (o :: k) = readsOf k)
    (hnext : mode k = .reading → o = .rLock) : CallSound s t' := by
  have htidy := h.isTidy
  rw [ht] at htidy
  have hfresh : .rLock ∈ k → t.loc.stamps = [] := fun hm =>
    h.fresh (by rw [ht]; exact List.mem_cons_of_mem _ hm)
  refine ⟨?_, ?_, fun hr => ?_, fun hm => ?_, ?_⟩
  · rw [ht']
    exact tidy_tail htidy
  · rw [hloc]
    exact h.reads
  · rw [ht'] at hr ⊢
    obtain rfl := hnext hr
    have hempty : t.loc.stamps = [] := h.fresh (by rw [ht]; exact List.mem_cons_self)
    refine ⟨fun hm => ?_, fun x hx => ?_⟩
    · simp only [tidy, Bool.and_eq_true, Bool.not_eq_true'] at htidy
      rw [List.contains_iff_mem.2 hm] at htidy
      cases htidy.1
    · rw [hloc, hempty] at hx
      cases hx
  · rw [hloc]
    exact hfresh (ht' ▸ hm)
  · rw [hloc, ht', ← ho, ← ht]
    exact h.complete

theorem CallSound.mover {s : Live} {t t' : Runner Access.allowed Snapshot} {o : Op Access}
    {k : List (Op Access)} (h : CallSound s t) (ht : t.todo = o :: k) (ht' : t'.todo = k)
    (hloc : t'.loc = (o.effect Access.effect s t.loc).2)
    (hwhole : mode t.todo = .reading → s.zeros % Cell.all.length = 0)
    (hs : ∀ c, c.isCounter = true → s.fields.load c = Int64.ofNat (s.count c)) :
    CallSound (o.effect Access.effect s t.loc).1 t' := by
  have hwf := t.wf
  rw [ht] at hwf hwhole
  cases o with
  | act i => exact h.access ht ht' hloc hwhole hs
  | rLock => exact h.locks ht ht' hloc rfl fun _ => rfl
  | _ =>
      simp only [wellFormed, Bool.and_eq_true, beq_iff_eq] at hwf
      refine h.locks ht ht' hloc rfl fun hr => ?_
      rw [hwf.1] at hr
      cases hr

theorem MetricsSound.run {p p' : Pool (Guarded Live) (Runner Access.allowed Snapshot)} {i : ℕ}
    (h : MetricsSound p) (hs : callStep Access.effect p (.run i) = some p') : MetricsSound p' := by
  have hlock := h.lock.step hs
  obtain ⟨l, t, r, m', t', new, hl, -, -, hact, rfl⟩ := Pool.step_focus hs
  obtain ⟨o, k, lock, hk, -, hk', rfl, hloc, rfl⟩ := Runner.step_some hact
  have htm : t ∈ p.threads := by
    rw [hl]
    exact mem_focus_self l r t
  have ht := h.calls t htm
  have hwf := t.wf
  rw [hk] at hwf
  refine ⟨hlock, ?_, fun c hc => ?_, ?_⟩
  · have hz := zeros_step hk hk' (hk ▸ ht.isTidy) p.shared.data t.loc
    have hsum := sum_focus l r [] t t' owed
    have hold := h.zeros
    rw [hl] at hold
    simp only [List.map_nil, List.sum_nil, Nat.add_zero] at hsum
    show ((o.effect Access.effect p.shared.data t.loc).1.zeros +
      ((l ++ t' :: r ++ []).map owed).sum) % Cell.all.length = 0
    have hlen : Cell.all.length = 11 := rfl
    rw [hlen] at hz hold ⊢
    omega
  · show (o.effect Access.effect p.shared.data t.loc).1.fields.load c = _
    cases o with
    | act i =>
        simp only [wellFormed, Bool.and_eq_true] at hwf
        exact Access.effect_counts hwf.1.2 h.counts t.loc hc
    | _ => exact h.counts c hc
  · have hall := h.calls
    rw [hl] at hall
    refine forall_focus hall (fun u hu hsound => ?_) ?_ (fun u hu => absurd hu List.not_mem_nil)
    · refine hsound.carry hwf (fun hr => ?_) t.loc
      rw [← hk]
      exact h.lock.not_writing (hl ▸ mem_of_mem_others hu t) hr htm
    · exact ht.mover hk hk' hloc (fun hr => h.whole htm hr) h.counts

theorem MetricsSound.call {p : Pool (Guarded Live) (Runner Access.allowed Snapshot)}
    (h : MetricsSound p) (c : MetricsCall) :
    MetricsSound ⟨p.shared, p.threads ++ [⟨c.ops, c.program.wf, { call := c }⟩]⟩ := by
  have hcall : callStep Access.effect p (.call c.program { call := c }) =
      some ⟨p.shared, p.threads ++ [⟨c.ops, c.program.wf, { call := c }⟩]⟩ := rfl
  have howed : owed ⟨c.ops, c.program.wf, { call := c }⟩ = 0 := by
    unfold owed
    rw [if_neg]
    rw [show mode c.ops = .outside from c.program.starts]
    decide
  refine ⟨h.lock.step hcall, ?_, h.counts, fun t ht => ?_⟩
  · rw [List.map_append, List.sum_append, List.map_singleton, List.sum_singleton, howed]
    exact h.zeros
  · rcases List.mem_append.1 ht with ht | ht
    · exact h.calls t ht
    · obtain rfl := List.mem_singleton.1 ht
      refine ⟨c.tidy_ops, ⟨?_, ?_, ?_, fun _ _ => rfl, fun c' _ => ?_, fun _ _ => Nat.zero_le _⟩,
        fun hr => ?_, fun _ => rfl, rfl⟩
      · exact fun x hx => absurd hx List.not_mem_nil
      · exact fun x hx => absurd hx List.not_mem_nil
      · exact fun x hx => absurd hx List.not_mem_nil
      · cases c' <;> rfl
      · rw [show mode c.ops = .outside from c.program.starts] at hr
        cases hr

/-- **Every run is sound.** -/
theorem metricsSound_of_run {now : Timestamp}
    {p : Pool (Guarded Live) (Runner Access.allowed Snapshot)}
    (h : Run metricsStep always (newMetrics now) p) : MetricsSound p := by
  refine h.invariant (I := MetricsSound) ?_ ?_
  · refine ⟨⟨rfl, rfl, rfl⟩, rfl, fun c _ => ?_, fun t ht => absurd ht List.not_mem_nil⟩
    cases c <;> rfl
  · intro p a p' ih _ hs
    cases a with
    | run i => exact ih.run hs
    | call c =>
        obtain rfl := Option.some.inj hs
        exact ih.call c

/-- **An export sees whole resets and no lost update.**  In every run of any number of
concurrent calls, and for every export in it, `GetStats` or `GetPrometheusMetrics`:

* when it returns it has read every field of its text, and its reads were all made
  behind the same stores under the lock, so no `Reset` and no new time came between them;
* these stores are whole resets: no field was read between the first and the last store of
  a `Reset`;
* the value it has of a counter is the number of increments since the last reset, as a
  64-bit number, at the moment of the read; it is not more than the number of increments
  there are, as long as there was no reset since. -/
theorem exports_see_whole_resets (now : Timestamp)
    (p : Pool (Guarded Live) (Runner Access.allowed Snapshot))
    (t : Runner Access.allowed Snapshot) (h : Run metricsStep always (newMetrics now) p)
    (ht : t ∈ p.threads) :
    (t.todo = [] → t.loc.stamps.map (·.read) = readsOf t.loc.call.ops) ∧
    (∀ x ∈ t.loc.stamps, ∀ y ∈ t.loc.stamps, x.zeros = y.zeros ∧ x.writes = y.writes) ∧
    (∀ x ∈ t.loc.stamps, x.zeros % Cell.all.length = 0) ∧
    (∀ c, c.isCounter = true → t.loc.fields.load c = Int64.ofNat (t.loc.count c)) ∧
    ((∀ x ∈ t.loc.stamps, x.zeros = p.shared.data.zeros) →
      ∀ c, t.loc.count c ≤ p.shared.data.count c) := by
  have hs := metricsSound_of_run h
  have hc := hs.calls t ht
  refine ⟨fun hdone => ?_, hc.reads.same, hc.reads.whole, hc.reads.values, hc.reads.bounded⟩
  have hall := hc.complete
  rwa [hdone, show readsOf [] = [] from rfl, List.append_nil] at hall

/-- `GetStats` in the middle of its reads; a `Reset` asks for the lock and has to wait; a
message is counted before and another one during the reads. -/
def scrapeRun : List MetricsAction :=
  [.call .incrementProducerMessagesSent, .run 0, .call .getStats, .run 1, .run 1,
    .call (.reset .zero), .run 2, .call .incrementProducerMessagesSent, .run 3] ++
    List.replicate 12 (.run 1)

theorem exports_see_whole_resets_scrape :
    ∃ (p : Pool (Guarded Live) (Runner Access.allowed Snapshot))
      (t : Runner Access.allowed Snapshot), t ∈ p.threads ∧ t.loc.call = .getStats ∧
      t.todo = [.rUnlock] ∧ p.shared.data.fields.producerMessagesSent = 2 ∧
      t.loc.fields.producerMessagesSent = 1 ∧
      (∀ x ∈ t.loc.stamps, x.zeros % Cell.all.length = 0) := by
  obtain ⟨p, hr, hp⟩ := exists_run_of_replay metricsStep always (newMetrics .zero)
    (fun p => p.shared.data.fields.producerMessagesSent == 2 &&
      p.threads.any fun t => t.loc.call == .getStats && t.todo == [.rUnlock] &&
        t.loc.fields.producerMessagesSent == 1) scrapeRun (by decide)
  simp only [Bool.and_eq_true, List.any_eq_true, beq_iff_eq] at hp
  obtain ⟨hsent, t, ht, ⟨hcall, htodo⟩, hone⟩ := hp
  exact ⟨p, t, ht, hcall, htodo, hsent, hone, (exports_see_whole_resets .zero p t hr ht).2.2.1⟩

/-- **Calls on the metrics never block one another.**  From every state that any run leads
to, as long as a call has not returned some call can take a step, every step of a call
leaves one operation less to do, and so all calls that were made can return. -/
theorem metrics_calls_finish (now : Timestamp)
    (p : Pool (Guarded Live) (Runner Access.allowed Snapshot))
    (h : Run metricsStep always (newMetrics now) p) :
    ((∃ t ∈ p.threads, t.todo ≠ []) → ∃ i p', metricsStep p (.run i) = some p') ∧
    (∀ i p', metricsStep p (.run i) = some p' → left p' + 1 = left p) ∧
    ∃ p', Run metricsStep always p p' ∧ p'.threads.length = p.threads.length ∧
      ∀ t ∈ p'.threads, t.todo = [] := by
  have hsound := metricsSound_of_run h
  refine ⟨fun ⟨t, ht, hne⟩ => hsound.lock.exists_step ht hne _, fun i p' hs => left_run hs, ?_⟩
  have hnext : ∀ q, (MetricsSound q ∧ q.threads.length = p.threads.length) →
      ¬ (∀ t ∈ q.threads, t.todo = []) → ∃ a q', always q a = true ∧ metricsStep q a = some q' ∧
        (MetricsSound q' ∧ q'.threads.length = p.threads.length) ∧ left q' < left q := by
    intro q hq hnot
    obtain ⟨t, ht, hne⟩ : ∃ t ∈ q.threads, t.todo ≠ [] := by
      by_contra hno
      exact hnot fun t ht => by_contra fun hne => hno ⟨t, ht, hne⟩
    obtain ⟨i, q', hs⟩ := hq.1.lock.exists_step ht hne Access.effect
    refine ⟨.run i, q', rfl, hs, ⟨hq.1.run hs, ?_⟩, ?_⟩
    · obtain ⟨l, u, r, m', u', new, hl, -, -, hact, rfl⟩ := Pool.step_focus hs
      obtain ⟨o, k, lock, -, -, -, -, -, rfl⟩ := Runner.step_some hact
      rw [← hq.2, hl]
      simp
    · have := left_run hs
      omega
  obtain ⟨p', hr, hi, hd⟩ := exists_run_of_measure left hnext ⟨hsound, rfl⟩
  exact ⟨p', hr, hi.2, hd⟩

theorem metrics_calls_finish_scrape :
    ∃ p p' : Pool (Guarded Live) (Runner Access.allowed Snapshot),
      p.threads.map (mode ·.todo) = [.outside, .reading, .asked, .outside] ∧
      Run metricsStep always p p' ∧ p'.threads.length = 4 ∧ ∀ t ∈ p'.threads, t.todo = [] := by
  obtain ⟨p, hr, hp⟩ := exists_run_of_replay metricsStep always (newMetrics .zero)
    (fun p => p.threads.map (mode ·.todo) == [.outside, .reading, .asked, .outside]) scrapeRun
    (by decide)
  have hmodes := eq_of_beq hp
  obtain ⟨-, -, p', hrun, hlen, hall⟩ := metrics_calls_finish .zero p hr
  have hfour : p.threads.length = 4 := by simpa using congrArg List.length hmodes
  exact ⟨p, p', hmodes, hrun, hlen.trans hfour, hall⟩

end LynxRabbit
