/-
# The deliveries of a queue, as a broker keeps them

What an AMQP broker keeps of the messages it has sent from one queue: for each the channel
it went out on, the delivery tag it got there and what has become of it.  Under manual
acknowledgement it is outstanding until the consumer acknowledges or rejects it or the
channel is closed; then it is acknowledged, rejected, or given back to the queue.  Under
automatic acknowledgement it counts as delivered as soon as it is sent.

A ledger carries what holds of it: the tags of a channel count from one (`tags`), and a
channel that was closed holds nothing (`released`).  Every way in which outstanding
deliveries are resolved is `Ledger.resolve`.

The queue behind a ledger is not modelled.  `QueueBroker` is any queue with its operations,
and `QueueBroker.Documented` what RabbitMQ documents of them as far as a ledger shows it.
Which message goes out next, and what else becomes of those that wait (they expire, are
pushed out by a length limit, or are gone with an exclusive or auto-delete queue), is left
open.
-/

import Mathlib.Algebra.GroupWithZero.Nat
import Mathlib.Data.List.Nodup
import Mathlib.Data.List.Perm.Basic
import Mathlib.Data.List.Range
import Mathlib.Data.Nat.Notation
import Mathlib.Logic.Function.Basic
import Mathlib.Order.Nat

namespace LynxRabbit
namespace Amqp

/-- What has become of a message that was handed to a consumer. -/
inductive Status
  | outstanding
  | acked
  | rejected
  | automatic
  | requeued
deriving DecidableEq, Repr

/-- A message handed to a consumer: on which channel, under which delivery tag. -/
structure Handed (μ : Type*) where
  channel : ℕ
  tag : ℕ
  message : μ
  status : Status
deriving DecidableEq, Repr

variable {μ : Type*}

/-- The message is outstanding and one of `p`. -/
def Handed.held (p : Handed μ → Bool) (h : Handed μ) : Bool := h.status == .outstanding && p h

/-- An outstanding message of `p` becomes `st`. -/
def Handed.resolve (p : Handed μ → Bool) (st : Status) (h : Handed μ) : Handed μ :=
  if h.held p then { h with status := st } else h

/-- What was sent from a queue. -/
structure Ledger (μ : Type*) where
  handed : List (Handed μ) := []
  lost : ℕ → Bool := fun _ => false
  tags : ∀ ch, (handed.filter (·.channel == ch)).map (·.tag) =
    List.range' 1 (handed.countP (·.channel == ch))
  released : ∀ h ∈ handed, h.status = .outstanding → lost h.channel = false

namespace Ledger

/-- Nothing was sent. -/
def empty : Ledger μ where
  tags := fun _ => rfl
  released := fun _ h => absurd h List.not_mem_nil

/-- How many messages have gone out on a channel. -/
def sentOn (q : Ledger μ) (ch : ℕ) : ℕ := q.handed.countP (·.channel == ch)

/-- The tags that are outstanding on a channel, in the order they went out. -/
def outstanding (q : Ledger μ) (ch : ℕ) : List ℕ :=
  (q.handed.filter (Handed.held (·.channel == ch))).map (·.tag)

/-- The messages that went out on a channel, in order. -/
def messagesOn (q : Ledger μ) (ch : ℕ) : List μ :=
  (q.handed.filter (·.channel == ch)).map (·.message)

/-- The messages a channel holds, in the order they went out. -/
def heldOn (q : Ledger μ) (ch : ℕ) : List μ :=
  (q.handed.filter (Handed.held (·.channel == ch))).map (·.message)

/-- How often a message is outstanding. -/
def tally [DecidableEq μ] (q : Ledger μ) (m : μ) : ℕ :=
  q.handed.countP fun h => h.status == .outstanding && h.message == m

/-! ### What resolving leaves alone -/

section Resolve

variable (p : Handed μ → Bool) (st : Status) (h : Handed μ)

@[simp] theorem channel_resolve : (h.resolve p st).channel = h.channel := by
  unfold Handed.resolve
  split_ifs <;> rfl

@[simp] theorem tag_resolve : (h.resolve p st).tag = h.tag := by
  unfold Handed.resolve
  split_ifs <;> rfl

@[simp] theorem message_resolve : (h.resolve p st).message = h.message := by
  unfold Handed.resolve
  split_ifs <;> rfl

theorem status_resolve :
    (h.resolve p st).status = if h.held p then st else h.status := by
  unfold Handed.resolve
  split_ifs <;> rfl

theorem channel_comp_resolve (c : ℕ) :
    (fun h : Handed μ => h.channel == c) ∘ Handed.resolve p st = fun h => h.channel == c := by
  funext h
  simp

end Resolve

variable {p : Handed μ → Bool} {st : Status} {h : Handed μ}

/-- What is outstanding after a resolution was so before, or nothing was resolved. -/
theorem outstanding_of_resolve (hs : (h.resolve p st).status = .outstanding) :
    h.status = .outstanding := by
  rw [status_resolve] at hs
  split_ifs at hs with hh
  · simp only [Handed.held, Bool.and_eq_true, beq_iff_eq] at hh
    exact hh.1
  · exact hs

/-! ### The operations -/

/-- A message goes out on channel `ch`, under the next tag of the channel. -/
def hand (q : Ledger μ) (ch : ℕ) (m : μ) (auto : Bool) (hl : q.lost ch = false) : Ledger μ where
  handed := q.handed ++ [⟨ch, q.sentOn ch + 1, m, if auto then .automatic else .outstanding⟩]
  lost := q.lost
  tags := by
    intro c
    have hc := q.tags c
    rw [List.filter_append, List.countP_append, List.map_append, hc]
    by_cases hcc : ch = c
    · subst hcc
      simp [sentOn, List.range'_concat, Nat.add_comm 1]
    · simp [hcc]
  released := by
    intro h hm hs
    rcases List.mem_append.1 hm with hm | hm
    · exact q.released h hm hs
    · obtain rfl := List.mem_singleton.1 hm
      exact hl

/-- The outstanding messages of `p` become `st`. -/
def resolve (q : Ledger μ) (p : Handed μ → Bool) (st : Status) : Ledger μ where
  handed := q.handed.map (Handed.resolve p st)
  lost := q.lost
  tags := by
    intro ch
    rw [List.filter_map, List.map_map, List.countP_map, channel_comp_resolve, ← q.tags ch]
    refine List.map_congr_left fun h _ => ?_
    simp
  released := by
    intro h hm hs
    obtain ⟨h', hm', rfl⟩ := List.mem_map.1 hm
    rw [channel_resolve]
    exact q.released h' hm' (outstanding_of_resolve hs)

/-- Tags `tag`, or all up to it, of channel `ch`. -/
def named (ch tag : ℕ) (multiple : Bool) (h : Handed μ) : Bool :=
  h.channel == ch && if multiple then decide (h.tag ≤ tag) else h.tag == tag

/-- Channel `ch` is closed: what it held is given back. -/
def lose (q : Ledger μ) (ch : ℕ) : Ledger μ :=
  { q.resolve (·.channel == ch) .requeued with
    lost := Function.update q.lost ch true
    released := by
      intro h hm hs
      obtain ⟨h', hm', rfl⟩ := List.mem_map.1 hm
      have hout := outstanding_of_resolve hs
      have hne : h'.channel ≠ ch := by
        intro he
        rw [status_resolve, if_pos] at hs
        · cases hs
        · simp [Handed.held, hout, he]
      rw [channel_resolve, Function.update_of_ne hne]
      exact q.released h' hm' hout }

/-! ### What each operation does -/

variable {q : Ledger μ} {ch c tag : ℕ} {m : μ} {auto : Bool}

theorem mem_outstanding :
    tag ∈ q.outstanding ch ↔
      ∃ h ∈ q.handed, h.status = .outstanding ∧ h.channel = ch ∧ h.tag = tag := by
  simp only [outstanding, List.mem_map, List.mem_filter, Handed.held, Bool.and_eq_true, beq_iff_eq]
  constructor
  · rintro ⟨h, ⟨hm, hs, hc⟩, ht⟩
    exact ⟨h, hm, hs, hc, ht⟩
  · rintro ⟨h, hm, hs, hc, ht⟩
    exact ⟨h, ⟨hm, hs, hc⟩, ht⟩

/-- A channel that was closed has nothing outstanding. -/
theorem outstanding_of_lost (h : q.lost ch = true) : q.outstanding ch = [] := by
  refine List.eq_nil_iff_forall_not_mem.2 fun tag hm => ?_
  obtain ⟨e, he, hs, rfl, -⟩ := mem_outstanding.1 hm
  rw [q.released e he hs] at h
  cases h

/-- No tag is outstanding twice on a channel. -/
theorem nodup_outstanding (q : Ledger μ) (ch : ℕ) : (q.outstanding ch).Nodup := by
  have hsub : (q.outstanding ch).Sublist ((q.handed.filter (·.channel == ch)).map (·.tag)) := by
    refine List.Sublist.map _ ?_
    have heq : q.handed.filter (Handed.held (·.channel == ch)) =
        (q.handed.filter (·.channel == ch)).filter (·.status == .outstanding) := by
      rw [List.filter_filter]
      rfl
    rw [heq]
    exact List.filter_sublist
  rw [q.tags ch] at hsub
  exact hsub.nodup List.nodup_range'

theorem sentOn_hand (m : μ) (auto : Bool) (hl : q.lost ch = false) (c : ℕ) :
    (q.hand ch m auto hl).sentOn c = q.sentOn c + (ch == c).toNat := by
  unfold sentOn hand
  rw [List.countP_append]
  cases hc : ch == c <;> simp [hc]

theorem outstanding_hand (m : μ) (auto : Bool) (hl : q.lost ch = false) (c : ℕ) :
    (q.hand ch m auto hl).outstanding c =
      q.outstanding c ++ if ch = c ∧ auto = false then [q.sentOn ch + 1] else [] := by
  rw [outstanding, hand, List.filter_append, List.map_append, outstanding]
  by_cases hc : ch = c <;> cases auto <;> simp [hc, Handed.held]

theorem messagesOn_hand (hl : q.lost ch = false) :
    (q.hand ch m auto hl).messagesOn ch = q.messagesOn ch ++ [m] := by
  simp [messagesOn, hand]

theorem messagesOn_resolve (q : Ledger μ) (p : Handed μ → Bool) (st : Status) (c : ℕ) :
    (q.resolve p st).messagesOn c = q.messagesOn c := by
  show ((q.handed.map (Handed.resolve p st)).filter _).map _ = _
  rw [List.filter_map, List.map_map, channel_comp_resolve]
  exact List.map_congr_left fun h _ => message_resolve p st h

theorem sentOn_resolve (q : Ledger μ) (p : Handed μ → Bool) (st : Status) (c : ℕ) :
    (q.resolve p st).sentOn c = q.sentOn c := by
  show (q.handed.map (Handed.resolve p st)).countP _ = _
  rw [List.countP_map, channel_comp_resolve]
  rfl

theorem outstanding_resolve (q : Ledger μ) (p : Handed μ → Bool) (hst : st ≠ .outstanding)
    (c : ℕ) : (q.resolve p st).outstanding c =
      ((q.handed.filter (Handed.held (·.channel == c))).filter (!p ·)).map (·.tag) := by
  have hkey : ∀ h : Handed μ, Handed.held (·.channel == c) (h.resolve p st) =
      (!p h && h.held (·.channel == c)) := by
    intro h
    unfold Handed.held
    simp only [channel_resolve, status_resolve, Handed.held]
    by_cases hs : h.status = .outstanding <;> by_cases hp : p h = true <;> simp [hs, hp, hst]
  show ((q.handed.map (Handed.resolve p st)).filter _).map _ = _
  rw [List.filter_map, List.map_map, List.filter_filter]
  have hcomp : Handed.held (·.channel == c) ∘ Handed.resolve p st =
      fun h => !p h && h.held (·.channel == c) := funext hkey
  rw [hcomp]
  exact List.map_congr_left fun h _ => tag_resolve p st h

/-- **Giving a channel up** takes everything it held, and nothing of another one. -/
theorem outstanding_lose (q : Ledger μ) (ch c : ℕ) :
    (q.lose ch).outstanding c = if c = ch then [] else q.outstanding c := by
  have hres : (q.lose ch).outstanding c =
      (q.resolve (·.channel == ch) .requeued).outstanding c := rfl
  rw [hres, outstanding_resolve q _ (by decide) c]
  split_ifs with hc
  · subst hc
    refine List.map_eq_nil_iff.2 (List.filter_eq_nil_iff.2 fun h hm => ?_)
    have hh := (List.mem_filter.1 hm).2
    simp only [Handed.held, Bool.and_eq_true] at hh
    simp [hh.2]
  · refine congrArg (List.map _) (List.filter_eq_self.2 fun h hm => ?_)
    have hh := (List.mem_filter.1 hm).2
    simp only [Handed.held, Bool.and_eq_true, beq_iff_eq] at hh
    simp [hh.2, hc]

/-- **Settling one delivery** takes its tag off what is outstanding, and nothing else. -/
theorem outstanding_named (q : Ledger μ) (ch tag : ℕ) (hst : st ≠ .outstanding) (c : ℕ) :
    (q.resolve (named ch tag false) st).outstanding c =
      if c = ch then (q.outstanding c).filter (· != tag) else q.outstanding c := by
  rw [outstanding_resolve q _ hst c]
  split_ifs with hc
  · subst hc
    rw [outstanding, List.filter_map]
    refine congrArg (List.map _) (List.filter_congr fun h hh => ?_)
    have hheld := (List.mem_filter.1 hh).2
    simp only [Handed.held, Bool.and_eq_true] at hheld
    simp [named, hheld.2, bne]
  · refine congrArg (List.map _) (List.filter_eq_self.2 fun h hh => ?_)
    have hheld := (List.mem_filter.1 hh).2
    simp only [Handed.held, Bool.and_eq_true, beq_iff_eq] at hheld
    simp [named, hheld.2, hc]

/-! ### The records after a settlement -/

/-- A record that is no longer outstanding stays as it is. -/
theorem mem_resolve_of_settled (hm : h ∈ q.handed) (hs : h.status ≠ .outstanding) :
    h ∈ (q.resolve p st).handed :=
  List.mem_map.2 ⟨h, hm, if_neg (by simp [Handed.held, hs])⟩

/-- So does a record of another channel. -/
theorem mem_resolve_named {multiple : Bool} (hc : h.channel ≠ ch) :
    h ∈ (q.resolve (named ch tag multiple) st).handed ↔ h ∈ q.handed := by
  have hsame : ∀ e : Handed μ, e.channel ≠ ch → e.resolve (named ch tag multiple) st = e :=
    fun e he => if_neg (by simp [Handed.held, named, he])
  constructor
  · intro hm
    obtain ⟨e, he, rfl⟩ := List.mem_map.1 hm
    rw [channel_resolve] at hc
    rwa [hsame e hc]
  · intro hm
    exact List.mem_map.2 ⟨h, hm, hsame h hc⟩

/-- The record of the tag that is settled. -/
theorem exists_mem_resolve (hm : tag ∈ q.outstanding ch) (st : Status) :
    ∃ e ∈ (q.resolve (named ch tag false) st).handed,
      e.channel = ch ∧ e.tag = tag ∧ e.status = st := by
  obtain ⟨e, he, hs, hc, ht⟩ := mem_outstanding.1 hm
  refine ⟨_, List.mem_map_of_mem he, ?_, ?_, ?_⟩
  · rw [channel_resolve, hc]
  · rw [tag_resolve, ht]
  · rw [status_resolve, if_pos]
    simp [Handed.held, named, hs, hc, ht]

/-- Which channels were closed after one more was. -/
theorem lost_lose (h : (q.lose ch).lost c = true) : q.lost c = true ∨ c = ch := by
  have hc : Function.update q.lost ch true c = true := h
  rw [Function.update_apply] at hc
  split_ifs at hc with heq
  · exact .inr heq
  · exact .inl hc

/-! ### Which message a tag stands for -/

/-- The message that went out on a channel under a tag. -/
def messageAt (q : Ledger μ) (ch tag : ℕ) : Option μ :=
  (q.handed.find? fun h => h.channel == ch && h.tag == tag).map (·.message)

/-- A channel and a tag name one record. -/
theorem eq_of_key {h h' : Handed μ} (hm : h ∈ q.handed) (hm' : h' ∈ q.handed)
    (hc : h.channel = h'.channel) (ht : h.tag = h'.tag) : h = h' := by
  have hnd : ((q.handed.filter (·.channel == h.channel)).map (·.tag)).Nodup := by
    rw [q.tags h.channel]
    exact List.nodup_range'
  refine List.inj_on_of_nodup_map hnd (List.mem_filter.2 ⟨hm, by simp⟩)
    (List.mem_filter.2 ⟨hm', by simp [hc]⟩) ht

theorem messageAt_of_mem (hm : h ∈ q.handed) : q.messageAt h.channel h.tag = some h.message := by
  cases hf : q.handed.find? fun e => e.channel == h.channel && e.tag == h.tag with
  | none => exact absurd (List.find?_eq_none.1 hf h hm) (by simp)
  | some e =>
      have hkey := List.find?_some hf
      simp only [Bool.and_eq_true, beq_iff_eq] at hkey
      obtain rfl := eq_of_key (List.mem_of_find?_eq_some hf) hm hkey.1 hkey.2
      rw [messageAt, hf]
      rfl

/-- The tags of a channel stand for the messages that went out on it. -/
theorem filterMap_messageAt (q : Ledger μ) (ch : ℕ) :
    (List.range' 1 (q.sentOn ch)).filterMap (q.messageAt ch) = q.messagesOn ch := by
  rw [sentOn, messagesOn, ← q.tags ch, List.filterMap_map, ← List.filterMap_eq_map]
  refine List.filterMap_congr fun h hm => ?_
  obtain ⟨hin, hc⟩ := List.mem_filter.1 hm
  obtain rfl : h.channel = ch := by simpa using hc
  exact messageAt_of_mem hin

/-! ### How often a message is outstanding -/

section Tally

variable [DecidableEq μ] (q : Ledger μ) (m : μ)

/-- A channel that is closed gives back what it held. -/
theorem tally_lose (ch : ℕ) :
    (q.lose ch).tally m + (q.heldOn ch).count m = q.tally m := by
  show (q.handed.map (Handed.resolve (·.channel == ch) .requeued)).countP _ +
    ((q.handed.filter (Handed.held (·.channel == ch))).map (·.message)).count m =
      q.handed.countP _
  rw [List.countP_map, List.count, List.countP_map, List.countP_filter]
  induction q.handed with
  | nil => rfl
  | cons h hs ih =>
      simp only [List.countP_cons, ← ih]
      by_cases hs : h.status = .outstanding <;> by_cases hc : h.channel = ch <;>
        by_cases hm : h.message = m <;>
        simp [status_resolve, Handed.held, hs, hc, hm] <;> omega

/-- When no channel has anything outstanding, no message is. -/
theorem tally_eq_zero (h : ∀ c, q.outstanding c = []) : q.tally m = 0 := by
  refine List.countP_eq_zero.2 fun e he hs => ?_
  simp only [Bool.and_eq_true, beq_iff_eq] at hs
  have hmem := mem_outstanding.2 ⟨e, he, hs.1, rfl, rfl⟩
  rw [h] at hmem
  cases hmem

end Tally

end Ledger

/-! ### A queue -/

/-- The queue of a broker: its state `σ`, what it has sent, and what happens to it.  A message
goes out to a consumer on a channel, under automatic acknowledgement or not and with the
prefetch count of the channel, or none does; the consumer settles a delivery; a channel is
closed; and whatever else, `ε`. -/
structure QueueBroker (σ μ ε : Type*) where
  ledger : σ → Ledger μ
  deliver : σ → ℕ → Bool → ℤ → Option σ
  settle : σ → ℕ → ℕ → Bool → Status → σ
  close : σ → ℕ → σ
  other : σ → ε → σ

/-- What RabbitMQ documents of a queue. -/
structure QueueBroker.Documented {σ μ ε : Type*} (B : QueueBroker σ μ ε) : Prop where
  /-- Delivery tags are scoped to an open channel and grow by one from one; a delivery waits for
  its acknowledgement unless the consumer acknowledges automatically. -/
  delivers : ∀ {s s' : σ} {ch : ℕ} {auto : Bool} {prefetch : ℤ},
    B.deliver s ch auto prefetch = some s' → ∃ (hl : (B.ledger s).lost ch = false) (m : μ),
      B.ledger s' = (B.ledger s).hand ch m auto hl
  /-- With a positive prefetch count a channel gets nothing more while as many deliveries wait
  for their acknowledgement. -/
  window : ∀ {s s' : σ} {ch : ℕ} {prefetch : ℤ}, 0 < prefetch →
    B.deliver s ch false prefetch = some s' →
      (((B.ledger s).outstanding ch).length : ℤ) < prefetch
  /-- An acknowledgement or a rejection of an outstanding delivery settles that delivery, or all
  up to it. -/
  settles : ∀ {s : σ} {ch tag : ℕ} {multiple : Bool} {st : Status},
    tag ∈ (B.ledger s).outstanding ch →
      B.ledger (B.settle s ch tag multiple st) =
        (B.ledger s).resolve (Ledger.named ch tag multiple) st
  /-- What a channel held when it is closed is given back to the queue. -/
  closes : ∀ (s : σ) (ch : ℕ), B.ledger (B.close s ch) = (B.ledger s).lose ch
  /-- Nothing else sends or settles deliveries. -/
  keeps : ∀ (s : σ) (e : ε), B.ledger (B.other s e) = B.ledger s

/-- A queue that loses nothing by itself: it is neither exclusive nor deleted with its last
consumer, and its messages do not expire and are not pushed out.  `waiting` are those that were
not sent, or were given back. -/
structure QueueBroker.Lasting {σ μ ε : Type*} (B : QueueBroker σ μ ε) (waiting : σ → List μ) :
    Prop where
  /-- A message that waits goes out to a consumer that has room for it. -/
  sends : ∀ {s : σ} {ch : ℕ} {auto : Bool} {prefetch : ℤ}, waiting s ≠ [] →
    (B.ledger s).lost ch = false →
    auto = true ∨ prefetch ≤ 0 ∨ (((B.ledger s).outstanding ch).length : ℤ) < prefetch →
      ∃ s', B.deliver s ch auto prefetch = some s'
  /-- It is one of those that waited, and the others wait on. -/
  takes : ∀ {s s' : σ} {ch : ℕ} {auto : Bool} {prefetch : ℤ},
    B.deliver s ch auto prefetch = some s' → ∃ (hl : (B.ledger s).lost ch = false) (m : μ),
      B.ledger s' = (B.ledger s).hand ch m auto hl ∧ (waiting s).Perm (m :: waiting s')
  /-- What is acknowledged or rejected for good does not wait again. -/
  settled : ∀ {s : σ} {ch tag : ℕ} {st : Status}, tag ∈ (B.ledger s).outstanding ch →
    st ≠ .requeued → (waiting (B.settle s ch tag false st)).Perm (waiting s)
  /-- What a channel held when it is closed does. -/
  returned : ∀ (s : σ) (ch : ℕ),
    (waiting (B.close s ch)).Perm ((B.ledger s).heldOn ch ++ waiting s)

end Amqp
end LynxRabbit
