/-
# A queue as documented

The simplest queue there is: messages wait in the order they were published, the oldest goes
out first, what is given back waits in front, and nothing is lost.  It meets what
`Amqp.Ledger` asks of a queue (`custodyBroker_documented`, `custodyBroker_lasting`).
-/

import LynxRabbit.Amqp.Ledger

namespace LynxRabbit
namespace Amqp

/-- The messages that wait, and those that were sent. -/
structure Custody (μ : Type*) where
  ready : List μ := []
  ledger : Ledger μ := .empty

namespace Custody

variable {μ : Type*}

/-- The window of a channel leaves room; it only counts deliveries that wait for an
acknowledgement. -/
def hasRoom (q : Custody μ) (ch : ℕ) (auto : Bool) (prefetch : ℤ) : Bool :=
  auto || decide (prefetch ≤ 0) || decide (((q.ledger.outstanding ch).length : ℤ) < prefetch)

/-- The oldest message goes out on channel `ch`. -/
def deliver (q : Custody μ) (ch : ℕ) (auto : Bool) (prefetch : ℤ) : Option (Custody μ) :=
  match q.ready, hl : q.ledger.lost ch with
  | m :: rest, false =>
    if q.hasRoom ch auto prefetch then some ⟨rest, q.ledger.hand ch m auto hl⟩ else none
  | _, _ => none

/-- Channel `ch` is closed. -/
def close (q : Custody μ) (ch : ℕ) : Custody μ := ⟨q.ledger.heldOn ch ++ q.ready, q.ledger.lose ch⟩

/-- A consumer acknowledges or rejects; an unknown tag closes the channel. -/
def settle (q : Custody μ) (ch tag : ℕ) (multiple : Bool) (st : Status) : Custody μ :=
  if tag ∈ q.ledger.outstanding ch then
    ⟨(if st = .requeued then
        (q.ledger.handed.filter (Handed.held (Ledger.named ch tag multiple))).map (·.message)
      else []) ++ q.ready, q.ledger.resolve (Ledger.named ch tag multiple) st⟩
  else q.close ch

/-- A message is published to the queue. -/
def publish (q : Custody μ) (m : μ) : Custody μ := { q with ready := q.ready ++ [m] }

end Custody

/-- The queue with its operations. -/
def custodyBroker (μ : Type*) : QueueBroker (Custody μ) μ μ where
  ledger := Custody.ledger
  deliver := Custody.deliver
  settle := Custody.settle
  close := Custody.close
  other := Custody.publish

variable {μ : Type*} {q q' : Custody μ} {ch : ℕ} {auto : Bool} {prefetch : ℤ}

theorem Custody.deliver_some (h : q.deliver ch auto prefetch = some q') :
    q.hasRoom ch auto prefetch = true ∧ ∃ (hl : q.ledger.lost ch = false) (m : μ),
      q'.ledger = q.ledger.hand ch m auto hl ∧ q.ready = m :: q'.ready := by
  unfold Custody.deliver at h
  split at h
  · rename_i m rest hr hl
    split_ifs at h with hroom
    cases h
    exact ⟨hroom, hl, m, rfl, hr⟩
  · cases h

theorem Custody.settle_known {tag : ℕ} {multiple : Bool} {st : Status}
    (hm : tag ∈ q.ledger.outstanding ch) :
    (q.settle ch tag multiple st).ledger = q.ledger.resolve (Ledger.named ch tag multiple) st ∧
      (st ≠ .requeued → (q.settle ch tag multiple st).ready = q.ready) := by
  rw [Custody.settle, if_pos hm]
  exact ⟨rfl, fun hst => by rw [if_neg hst, List.nil_append]⟩

theorem custodyBroker_documented : (custodyBroker μ).Documented where
  delivers := by
    intro s s' ch auto prefetch h
    obtain ⟨-, hl, m, heq, -⟩ := Custody.deliver_some h
    exact ⟨hl, m, heq⟩
  window := by
    intro s s' ch prefetch hp h
    have hroom := (Custody.deliver_some h).1
    have hne : ¬ prefetch ≤ 0 := by omega
    simp only [Custody.hasRoom, hne, decide_false, Bool.or_false, Bool.false_or,
      decide_eq_true_eq] at hroom
    exact hroom
  settles := by
    intro s ch tag multiple st hm
    exact (Custody.settle_known hm).1
  closes := fun _ _ => rfl
  keeps := fun _ _ => rfl

theorem custodyBroker_lasting : (custodyBroker μ).Lasting Custody.ready where
  sends := by
    intro s ch auto prefetch hw hl hroom
    obtain ⟨m, rest, hr⟩ := List.exists_cons_of_ne_nil hw
    have hroom' : s.hasRoom ch auto prefetch = true := by
      rw [Custody.hasRoom, Bool.or_eq_true, Bool.or_eq_true, decide_eq_true_eq, decide_eq_true_eq,
        or_assoc]
      exact hroom
    show ∃ s', Custody.deliver s ch auto prefetch = some s'
    unfold Custody.deliver
    split
    · rw [if_pos hroom']
      exact ⟨_, rfl⟩
    · rename_i hno
      exact absurd hl (hno m rest hr)
  takes := by
    intro s s' ch auto prefetch h
    obtain ⟨-, hl, m, heq, hr⟩ := Custody.deliver_some h
    exact ⟨hl, m, heq, by rw [hr]⟩
  settled := by
    intro s ch tag st hm hst
    exact .of_eq ((Custody.settle_known hm).2 hst)
  returned := fun _ _ => .refl _

end Amqp
end LynxRabbit
