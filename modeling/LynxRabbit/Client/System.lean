/-
# The client as a system of goroutines

A state is the shared `Client` and the goroutines over it; a step is one atomic
step of one of them, a disconnect by the broker, a new call of the public
interface, or the cancellation of a caller's context.  Nothing but the locks the
source takes orders the goroutines, so a run of the machine is any interleaving.
After a panic the process is gone and no step is enabled.
-/

import LynxRabbit.Client.Lifecycle
import LynxRabbit.Runs.Machine
import LynxRabbit.Runs.Pool

namespace LynxRabbit

open Runs

/-- A goroutine of the process, or a call some caller's goroutine is in. -/
inductive Thread
  | watcher (pc : WatchConnection)
  | force (pc : ForceReconnect)
  | subscribe (id : ℕ) (pc : SubscribeCall)
  | loop (l : Loop) (pc : LoopPc)
  | cleanup (pc : CleanupWithContext)
  | startup (pc : StartupWithContext)
  | health (pc : HealthRun)
deriving DecidableEq, Repr

/-- The goroutine a `go` statement starts. -/
def Spawn.thread : Spawn → Thread
  | .loop l => .loop l .select
  | .watcher n => .watcher (.waiting n)
  | .health => .health .select

/-- One atomic step of a goroutine. -/
def Thread.step (s : Client) (t : Thread) (o : Choice) : Option (Client × Thread × List Thread) :=
  match t with
  | .watcher pc => (pc.step s o).map fun q => (q.1, .watcher q.2.1, q.2.2.map Spawn.thread)
  | .force pc => (pc.step s o).map fun q => (q.1, .force q.2.1, q.2.2.map Spawn.thread)
  | .subscribe id pc =>
    (pc.step s o id).map fun q => (q.1, .subscribe id q.2.1, q.2.2.map Spawn.thread)
  | .loop l pc => (pc.step s o l).map fun q => (q.1, .loop l q.2, [])
  | .cleanup pc => (pc.step s o).map fun q => (q.1, .cleanup q.2, [])
  | .startup pc => (pc.step s o).map fun q => (q.1, .startup q.2.1, q.2.2.map Spawn.thread)
  | .health pc => (pc.step s o).map fun q => (q.1, .health q.2, [])

/-- A call of the public interface. -/
inductive Call
  | startup
  | cleanup
  | forceReconnect
  | subscribe (queue : String) (handler : Handler)
  | subscribeWith (consumerName queue : String) (handler : Handler)
deriving DecidableEq, Repr

/-- The goroutine in a call that has just been made; `id` is its number. -/
def Call.thread (id : ℕ) : Call → Thread
  | .startup => .startup .enter
  | .cleanup => .cleanup .enter
  | .forceReconnect => .force .enter
  | .subscribe queue handler => .subscribe id (.lookup queue handler)
  | .subscribeWith name queue handler => .subscribe id (.lookupWith name queue handler)

/-- What can happen next. -/
inductive Action
  | run (i : ℕ) (o : Choice)
  | drop (c : ConnId)
  | call (k : Call)
  | cancel (id : ℕ)
deriving DecidableEq, Repr

/-- The client and its goroutines. -/
abbrev State := Pool Client Thread

/-- A step of the system. -/
def step (p : State) (a : Action) : Option State :=
  if p.shared.panicked then none
  else match a with
    | .run i o => p.step Thread.step i o
    | .drop c =>
      if c < p.shared.amqp.dialled ∧ p.shared.amqp.closed c = false then
        some { p with shared := { p.shared with amqp := p.shared.amqp.drop c } }
      else none
    | .call k => some { p with threads := p.threads ++ [k.thread p.threads.length] }
    | .cancel id =>
      some { p with shared :=
        { p.shared with cancelled := Function.update p.shared.cancelled id true } }

/-- A client after `NewRabbitMQClient` and `InitializeResources`, before any
call. -/
def fresh (cfg : RabbitMQ) : State := ⟨{ config := cfg }, []⟩

/-- Goroutine `i` takes `n` steps with nothing in between, and every call it makes
succeeds. -/
def solo (i n : ℕ) : List Action := List.replicate n (.run i .ok)

/-- The startup of the default configuration on a fresh client, alone: it ends
with the startup returned, the health ticker, and a watcher on the first
receiver. -/
def boot : List Action := .call .startup :: solo 0 29

/-- The execution of the reconnect callback a goroutine is in. -/
def Thread.callback? : Thread → Option Callback
  | .watcher (.callback _ cb) => some cb
  | .force (.callback cb) => some cb
  | _ => none

end LynxRabbit
