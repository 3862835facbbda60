import Tcam.Register.Basic

/-!
# Locks that a failed holder poisons

A locked value is used by one holder at a time.  A holder that breaks off
inside poisons the lock, and from then on every attempt to take it is refused
and leaves the value alone.  A bus behind a lock is a bus again.
-/

namespace Tcam

/-- A value behind a lock. -/
structure Lock (α : Type) where
  content : α
  poisoned : Bool
  deriving Repr

namespace Lock

variable {α β ε : Type}

/-- A fresh lock around a value. -/
def ofContent (a : α) : Lock α :=
  ⟨a, false⟩

/-- The lock after a holder broke off. -/
def poison (l : Lock α) : Lock α :=
  { l with poisoned := true }

/-- Runs `use` on the content while holding the lock; a poisoned lock answers `refusal`. -/
def hold (refusal : ε) (use : EStateM ε α β) : EStateM ε (Lock α) β := fun l =>
  if l.poisoned then .error refusal l
  else match use l.content with
    | .ok b a => .ok b { l with content := a }
    | .error e a => .error e { l with content := a }

instance [RegisterBus α] : RegisterBus (Lock α) where
  readRegister block offset :=
    hold (.busUnavailable .lockPoisoned) (RegisterBus.readRegister block offset)
  writeRegister block offset value :=
    hold (.busUnavailable .lockPoisoned) (RegisterBus.writeRegister block offset value)

end Lock

end Tcam
