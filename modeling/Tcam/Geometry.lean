import Tcam.Error

/-!
# Table geometry

A table occupies one register block and has a range of slots.  Each slot holds
a frame window of one page, twenty-two octets, or of two pages, forty-eight.
-/

namespace Tcam

/-- Where a table lives and how large it is. -/
structure Geometry where
  block : Octet
  minIndex : SlotIndex
  maxIndex : SlotIndex
  windowPages : Octet
  deriving DecidableEq, Repr

/-- The octets of a frame window. -/
abbrev windowOctets : Nat := 48

/-- The window octets that the key page carries. -/
abbrev keyPageOctets : Nat := 22

/-- The largest index the entry field of a command addresses. -/
def maxSlotIndex : SlotIndex := 255#16

namespace Geometry

/-- The ingress table of 256 slots. -/
def ingress : Geometry :=
  ⟨0x1f#8, 0#16, 255#16, 2#8⟩

/-- The egress table of 63 slots; slot zero is reserved. -/
def egress : Geometry :=
  ⟨0x1e#8, 1#16, 63#16, 1#8⟩

def blockAddr (g : Geometry) : BlockAddr :=
  ⟨g.block⟩

/-- Slots have a second window page. -/
def hasWindowPage (g : Geometry) : Bool :=
  decide (2#8 ≤ g.windowPages)

/-- The window octets a slot of the table can hold. -/
def octets (g : Geometry) : Nat :=
  if g.hasWindowPage then windowOctets else keyPageOctets

def contains (g : Geometry) (slot : SlotIndex) : Bool :=
  decide (g.minIndex ≤ slot) && decide (slot ≤ g.maxIndex)

/-- Refuses slots outside the table. -/
def checkSlot (g : Geometry) (slot : SlotIndex) : Except Error Unit :=
  if g.contains slot then .ok ()
  else .error (.invalidArgument (.slotOutsideTable slot g.minIndex g.maxIndex))

/-- Refuses geometries no device has. -/
def validate (g : Geometry) : Except Error Unit := do
  if !g.blockAddr.isValid then
    throw (.config (.blockOutOfRange g.blockAddr))
  if maxSlotIndex < g.maxIndex then
    throw (.config (.maxIndexTooLarge g.maxIndex))
  if g.maxIndex < g.minIndex then
    throw (.config (.minAboveMax g.minIndex g.maxIndex))
  if !(g.windowPages == 1#8 || g.windowPages == 2#8) then
    throw (.config (.windowPageCount g.windowPages))

end Geometry

end Tcam
