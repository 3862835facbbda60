import Tcam.Device.Execute

/-!
# Register accesses of a table block

A block answers register accesses the way the hardware does.  Writing the
operation register with the busy bit set runs a command at once; the bit then
reads as set for a number of polls.  Every access to the block is counted and
may fail by its number; an access to another block is refused uncounted.
-/

namespace Tcam.Device

variable {g : Geometry}

/-- Refuses the registers of other blocks. -/
def checkBlock (block : BlockAddr) (offset : RegOffset) : EStateM RegError (Device g) Unit :=
  fun d =>
    if block = g.blockAddr then .ok () d
    else .error (.noSuchRegister block offset) d

/-- Counts an access, and fails it if its turn has come. -/
def grant (offset : RegOffset) : EStateM RegError (Device g) Unit := fun d =>
  let d := { d with accesses := d.accesses + 1 }
  if d.failAt = some d.accesses then
    .error (.access g.blockAddr offset .injected) { d with failAt := none }
  else .ok () d

/-- The index of a data register. -/
def dataIndex? (offset : RegOffset) : Option Nat :=
  let i := offset.position.toNat - 2
  if 2 ≤ offset.position.toNat ∧ i < dataRegisters then some i else none

/-- Reads the operation register, which is one busy poll. -/
def poll : EStateM RegError (Device g) Word := fun d =>
  let busy := d.stuckBusy || decide (0 < d.busyRemaining)
  .ok (busyField.setFlag d.operation busy)
    { d with polls := d.polls + 1, busyRemaining := d.busyRemaining - 1 }

/-- Reads a granted register. -/
def fetch (offset : RegOffset) : EStateM RegError (Device g) Word :=
  if offset = operationRegister then poll
  else if offset = extensionRegister then fun d => .ok d.extension d
  else match dataIndex? offset with
    | some i => fun d => .ok (d.data.get i) d
    | none => throw (.noSuchRegister g.blockAddr offset)

/-- Writes a granted register. -/
def store (offset : RegOffset) (value : Word) : EStateM RegError (Device g) Unit := fun d =>
  if offset = operationRegister then
    if busyField.getFlag value then
      match commandOf value d with
      | .ok c => .ok () (d.perform c)
      | .error fault => .error (.access g.blockAddr operationRegister fault) d
    else .ok () { d with operation := value }
  else if offset = extensionRegister then .ok () { d with extension := value }
  else match dataIndex? offset with
    | some i => .ok () { d with data := d.data.set i value }
    | none => .error (.noSuchRegister g.blockAddr offset) d

instance : RegisterBus (Device g) where
  readRegister block offset := do
    checkBlock block offset
    grant offset
    fetch offset
  writeRegister block offset value := do
    checkBlock block offset
    grant offset
    store offset value

end Tcam.Device
