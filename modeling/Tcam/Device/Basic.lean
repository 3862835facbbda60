import Tcam.Slot.Image

/-!
# The table block of a device

A block keeps the image of every slot, the registers through which slots are
reached, and how long its busy bit stays set.  For testing, it counts its
accesses and polls, keeps a history of its commands, and can be made slow,
stuck, or faulty at a chosen access.
-/

namespace Tcam

/-- The state of a table block whose slots reach up to the largest index of `g`. -/
structure Device (g : Geometry) where
  slots : Vector SlotImage (g.maxIndex.toNat + 1)
  operation : Word
  extension : Word
  data : Registers dataRegisters
  /-- Polls for which the busy bit stays set after a command. -/
  busyDelay : Nat
  /-- Polls for which the busy bit still stays set. -/
  busyRemaining : Nat
  stuckBusy : Bool
  /-- The number of the access that will fail. -/
  failAt : Option Nat
  accesses : Nat
  polls : Nat
  /-- The executed commands, latest first. -/
  history : List Command

namespace Device

variable {g : Geometry}

/-- A flushed table. -/
def fresh (g : Geometry) : Device g where
  slots := Vector.replicate _ .empty
  operation := 0#16
  extension := 0#16
  data := 0#_
  busyDelay := 0
  busyRemaining := 0
  stuckBusy := false
  failAt := none
  accesses := 0
  polls := 0
  history := []

/-- The image of a slot, if the block has that slot. -/
def slot? (d : Device g) (slot : SlotIndex) : Option SlotImage :=
  d.slots[slot.toNat]?

def isValid (d : Device g) (slot : SlotIndex) : Bool :=
  (d.slot? slot).any SlotImage.isValid

/-- The loaded slots in ascending order. -/
def validSlots (d : Device g) : List SlotIndex :=
  ((List.range (g.maxIndex.toNat + 1)).map (BitVec.ofNat 16)).filter d.isValid

/-- Keeps the busy bit set for `polls` reads after every command. -/
def setBusyDelay (d : Device g) (polls : Nat) : Device g :=
  { d with busyDelay := polls }

/-- Makes the busy bit read as set until this is undone. -/
def setStuckBusy (d : Device g) (stuck : Bool) : Device g :=
  { d with stuckBusy := stuck }

/-- Makes the `n`-th access from now fail, once. -/
def failNthAccess (d : Device g) (n : Nat) : Device g :=
  { d with failAt := some (d.accesses + n) }

def clearHistory (d : Device g) : Device g :=
  { d with history := [] }

end Device

end Tcam
