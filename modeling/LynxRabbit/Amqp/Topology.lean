/-
# Exchanges, queues and bindings

What an AMQP broker holds besides messages.  Declaring an exchange or a queue adds it
unless one of that name is there; a binding ties a declared queue to a declared
exchange under a key, and a direct exchange sends a message on to the queues bound to
it under exactly the message's key.

A topology carries the proof that its bindings are between things it holds.
Declarations only add: whatever is declared in a sequence of declarations is there at
the end (`holds_declareAll`), and the bindings are those of the beginning
(`bindings_declareAll`).  Nothing is deleted here: the topology is the one that a
sequence of declarations on one live connection leaves.
-/

import Mathlib.Data.List.Basic

namespace LynxRabbit
namespace Amqp

/-- A declared exchange. -/
structure Exchange where
  name : String
  type : String
  durable : Bool
  autoDelete : Bool
deriving DecidableEq, Repr

/-- A declared queue; `args` is its table of arguments. -/
structure Queue where
  name : String
  durable : Bool
  autoDelete : Bool
  exclusive : Bool
  args : List (String × String)
deriving DecidableEq, Repr

/-- A queue bound to an exchange under a key. -/
structure Binding where
  queue : String
  exchange : String
  key : String
deriving DecidableEq, Repr

/-- What a broker holds. -/
structure Topology where
  exchanges : List Exchange := []
  queues : List Queue := []
  bindings : List Binding := []
  bound : ∀ b ∈ bindings, b.exchange ∈ exchanges.map (·.name) ∧ b.queue ∈ queues.map (·.name)

/-- A declaration a client asks for. -/
inductive Declaration
  | exchange (e : Exchange)
  | queue (q : Queue)
deriving DecidableEq, Repr

namespace Topology

/-- A broker that holds nothing. -/
def empty : Topology := ⟨[], [], [], fun b hb => by cases hb⟩

/-- Something of the kind and the name that are declared is there. -/
def holds (t : Topology) : Declaration → Prop
  | .exchange e => e.name ∈ t.exchanges.map (·.name)
  | .queue q => q.name ∈ t.queues.map (·.name)

/-- A declaration that succeeds: what is there already stays as it is. -/
def declare (t : Topology) : Declaration → Topology
  | .exchange e =>
    if e.name ∈ t.exchanges.map (·.name) then t
    else { t with
      exchanges := e :: t.exchanges
      bound := fun b hb => ⟨List.mem_cons_of_mem _ (t.bound b hb).1, (t.bound b hb).2⟩ }
  | .queue q =>
    if q.name ∈ t.queues.map (·.name) then t
    else { t with
      queues := q :: t.queues
      bound := fun b hb => ⟨(t.bound b hb).1, List.mem_cons_of_mem _ (t.bound b hb).2⟩ }

/-- Several declarations, in order. -/
def declareAll (t : Topology) (ds : List Declaration) : Topology := ds.foldl declare t

/-- The exchange is there and is direct. -/
def isDirect (t : Topology) (exchange : String) : Bool :=
  t.exchanges.any fun e => e.name == exchange && e.type == "direct"

/-- The queues a direct exchange sends a message with this key to. -/
def routes (t : Topology) (exchange key : String) : List String :=
  (t.bindings.filter fun b => b.exchange == exchange && b.key == key).map (·.queue)

variable {t : Topology} {ds : List Declaration}

theorem bindings_declare (t : Topology) (d : Declaration) :
    (t.declare d).bindings = t.bindings := by
  cases d <;> simp only [declare] <;> split_ifs <;> rfl

/-- **Declarations bind nothing.** -/
theorem bindings_declareAll (t : Topology) (ds : List Declaration) :
    (t.declareAll ds).bindings = t.bindings := by
  induction ds generalizing t with
  | nil => rfl
  | cons d ds ih => exact (ih (t.declare d)).trans (bindings_declare t d)

/-- **A declaration adds its own** and keeps what was there. -/
theorem holds_declare {d d' : Declaration} (h : t.holds d ∨ d = d') : (t.declare d').holds d := by
  cases d' with
  | exchange e =>
      rw [declare]
      split_ifs with hin
      · rcases h with h | rfl
        · exact h
        · exact hin
      · rcases h with h | rfl
        · cases d with
          | exchange e' => exact List.mem_cons_of_mem _ h
          | queue q => exact h
        · exact List.mem_cons_self ..
  | queue q =>
      rw [declare]
      split_ifs with hin
      · rcases h with h | rfl
        · exact h
        · exact hin
      · rcases h with h | rfl
        · cases d with
          | exchange e => exact h
          | queue q' => exact List.mem_cons_of_mem _ h
        · exact List.mem_cons_self ..

/-- **What is declared is there in the end.** -/
theorem holds_declareAll {d : Declaration} (h : t.holds d ∨ d ∈ ds) :
    (t.declareAll ds).holds d := by
  induction ds generalizing t with
  | nil =>
      rcases h with h | h
      · exact h
      · cases h
  | cons d' ds ih =>
      refine ih ?_
      rcases h with h | h
      · exact .inl (holds_declare (.inl h))
      · rcases List.mem_cons.1 h with rfl | h
        · exact .inl (holds_declare (.inr rfl))
        · exact .inr h

/-- A direct exchange sends a message to every queue bound under its key. -/
theorem mem_routes {b : Binding} (h : b ∈ t.bindings) : b.queue ∈ t.routes b.exchange b.key := by
  refine List.mem_map_of_mem (List.mem_filter.2 ⟨h, ?_⟩)
  simp

end Topology
end Amqp
end LynxRabbit
