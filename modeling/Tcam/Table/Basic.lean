import Tcam.Config
import Tcam.Lock

/-!
# Tables and sessions

A table is one of a device's classification tables behind a register bus.  Its
data registers are shared by all commands, so an operation runs with the table
locked from its first access to its last, and several operations can be run in
one such session.  The first failing access ends an operation; what was done
before stays done.
-/

namespace Tcam

/-- How often operations completed and failed. -/
structure Stats where
  flushes : Nat
  loads : Nat
  reads : Nat
  getNext : Nat
  busyTimeouts : Nat
  transportErrors : Nat
  deriving DecidableEq, Repr

instance : Inhabited Stats where
  default := ⟨0, 0, 0, 0, 0, 0⟩

/-- How far the current command is.  Between operations a table is idle. -/
inductive Phase where
  | idle
  | awaitingBusy
  | commandIssued
  deriving DecidableEq, Repr

/-- A table: its geometry and the number of polls after which it gives up. -/
structure Table where
  geometry : Geometry
  pollLimit : Nat
  deriving DecidableEq, Repr

/-- What an operation on a table can change: the bus and the records of the
table.  `σ` is the state of the bus. -/
structure Table.State (σ : Type) where
  bus : σ
  phase : Phase
  stats : Stats

/-- An operation on a locked table. -/
abbrev Session (σ α : Type) := EStateM Error (Table.State σ) α

/-- An operation that takes the lock of a table itself. -/
abbrev Transaction (σ α : Type) := EStateM Error (Lock (Table.State σ)) α

namespace Session

variable {σ α : Type}

def count (f : Stats → Stats) : Session σ Unit :=
  modify fun s => { s with stats := f s.stats }

def enter (phase : Phase) : Session σ Unit :=
  modify fun s => { s with phase := phase }

/-- Runs register accesses.  A failed access is counted. -/
def onBus (access : EStateM RegError σ α) : Session σ α := fun s =>
  match access s.bus with
  | .ok a bus => .ok a { s with bus := bus }
  | .error e bus =>
    .error (.transport e) { s with
      bus := bus
      stats := { s.stats with transportErrors := s.stats.transportErrors + 1 } }

/-- Runs an operation with the table locked.  The table is idle afterwards. -/
def locked (op : Session σ α) : Transaction σ α :=
  Lock.hold .lockPoisoned fun s =>
    match op s with
    | .ok a s => .ok a { s with phase := .idle }
    | .error e s => .error e { s with phase := .idle }

end Session

namespace Table

variable {σ : Type}

/-- The table of a geometry. -/
def ofGeometry (g : Geometry) (pollLimit : Nat) : Except Error Table := do
  g.validate
  if pollLimit = 0 then
    throw (.config .zeroTablePollLimit)
  return ⟨g, pollLimit⟩

/-- The records of a table that has done nothing yet. -/
def State.ofBus (bus : σ) : State σ :=
  ⟨bus, .idle, default⟩

def block (t : Table) : BlockAddr :=
  t.geometry.blockAddr

/-- How far the table's command is, as seen from outside. -/
def phase : Transaction σ Phase :=
  Lock.hold .lockPoisoned do return (← get).phase

/-- The counts so far. -/
def stats : Transaction σ Stats :=
  Lock.hold .lockPoisoned do return (← get).stats

end Table

end Tcam
