import Tcam.Register.Basic

/-!
# Buses that record their accesses

A recorder is put between a table and its bus.  It passes every access on and
notes where the access went and what the bus was before it.
-/

namespace Tcam

/-- A register access, with the state of the bus right before it. -/
structure Access (σ : Type) where
  block : BlockAddr
  offset : RegOffset
  before : σ

/-- A bus with the accesses made to it, oldest first. -/
structure Recorder (σ : Type) where
  bus : σ
  log : List (Access σ)

namespace Recorder

variable {σ α : Type}

/-- Passes an access on and notes it, whether it fails or not. -/
def pass (block : BlockAddr) (offset : RegOffset) (access : EStateM RegError σ α) :
    EStateM RegError (Recorder σ) α := fun r =>
  match access r.bus with
  | .ok a bus => .ok a ⟨bus, r.log ++ [⟨block, offset, r.bus⟩]⟩
  | .error e bus => .error e ⟨bus, r.log ++ [⟨block, offset, r.bus⟩]⟩

instance [RegisterBus σ] : RegisterBus (Recorder σ) where
  readRegister block offset := pass block offset (RegisterBus.readRegister block offset)
  writeRegister block offset value :=
    pass block offset (RegisterBus.writeRegister block offset value)

end Recorder

end Tcam
