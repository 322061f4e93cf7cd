/-
# A readers-writer lock in which a waiting writer goes first

`sync.RWMutex`, as its documentation has it: any number of readers or one writer
hold the lock, and once a writer has asked for it no reader gets in before the
writer had it.  Asking and getting are two steps, since a writer that has asked
waits for the readers that are in.  A writer that waits for another one has not
asked yet: the other one keeps the readers out.

That a held lock has no readers is a field, so no step can lose it.
-/

import Mathlib.Data.Nat.Basic

namespace LynxRabbit
namespace Runs

/-- Where the writers stand: none has asked, one waits for the readers to leave,
or one holds the lock. -/
inductive Writer
  | free
  | pending
  | held
deriving DecidableEq, Repr

/-- The state of the lock. -/
structure RWMutex where
  readers : ℕ
  writer : Writer
  excl : writer = .held → readers = 0

namespace RWMutex

/-- Nobody holds the lock. -/
def unlocked : RWMutex := ⟨0, .free, nofun⟩

/-- A reader gets in, unless a writer has asked. -/
def rLock (m : RWMutex) : Option RWMutex :=
  if m.writer = .free then some ⟨m.readers + 1, .free, nofun⟩ else none

/-- A reader leaves. -/
def rUnlock (m : RWMutex) : RWMutex :=
  ⟨m.readers - 1, m.writer, fun h => by rw [m.excl h]⟩

/-- A writer asks, once the one before it has left. -/
def request (m : RWMutex) : Option RWMutex :=
  if m.writer = .free then some ⟨m.readers, .pending, nofun⟩ else none

/-- The writer that has asked gets the lock when the last reader has left. -/
def acquire (m : RWMutex) : Option RWMutex :=
  if m.writer = .pending ∧ m.readers = 0 then some ⟨0, .held, fun _ => rfl⟩ else none

/-- The writer leaves. -/
def unlock (m : RWMutex) : RWMutex := ⟨m.readers, .free, nofun⟩

variable {m m' : RWMutex}

theorem rLock_some (h : m.rLock = some m') :
    m.writer = .free ∧ m'.readers = m.readers + 1 ∧ m'.writer = .free := by
  unfold rLock at h
  split_ifs at h with hw
  cases h
  exact ⟨hw, rfl, rfl⟩

theorem request_some (h : m.request = some m') :
    m.writer = .free ∧ m'.readers = m.readers ∧ m'.writer = .pending := by
  unfold request at h
  split_ifs at h with hw
  cases h
  exact ⟨hw, rfl, rfl⟩

theorem acquire_some (h : m.acquire = some m') :
    m.writer = .pending ∧ m.readers = 0 ∧ m'.readers = 0 ∧ m'.writer = .held := by
  unfold acquire at h
  split_ifs at h with hw
  cases h
  exact ⟨hw.1, hw.2, rfl, rfl⟩

/-- While there are readers no writer holds the lock. -/
theorem not_held_of_readers (h : 0 < m.readers) : m.writer ≠ .held := by
  intro hh
  have := m.excl hh
  omega

end RWMutex
end Runs
end LynxRabbit
