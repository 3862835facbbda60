import Tcam.Slot.Check
import Tcam.Table.Command

/-!
# Operations on slots

Flushing, loading, reading and searching slots, and changing the ports of a
loaded one.  A load writes the key page last, because its sentinel makes the
slot valid; a read takes the pages in the opposite order.  Arguments are checked
before the first access.
-/

namespace Tcam.Table

variable {σ : Type} [RegisterBus σ]

open Session (count)

/-- Invalidates every slot. -/
def flushAll (t : Table) : Session σ Unit := do
  t.command .flushAll .key 0#16
  count fun s => { s with flushes := s.flushes + 1 }

/-- Invalidates one slot. -/
def flushEntry (t : Table) (slot : SlotIndex) : Session σ Unit := do
  ofExcept (t.geometry.checkSlot slot)
  t.command .flushEntry .key slot
  count fun s => { s with flushes := s.flushes + 1 }

/-- Writes one page to the data registers and moves it to a slot. -/
def loadPage (t : Table) (slot : SlotIndex) (page : Page) (image : SlotImage) :
    Session σ Unit := do
  t.writePage (image.page page)
  t.command .load page slot

/-- Writes an entry to a slot, the key page last. -/
def loadEntry (t : Table) (slot : SlotIndex) (entry : Entry) : Session σ Unit := do
  ofExcept (t.geometry.checkSlot slot)
  ofExcept (entry.check t.geometry)
  let image := SlotImage.ofEntry entry
  t.selectActionSubBlock
  t.loadPage slot .action image
  if t.geometry.hasWindowPage then
    t.loadPage slot .window image
  t.loadPage slot .key image
  count fun s => { s with loads := s.loads + 1 }

/-- Moves one page of a slot to the data registers and reads it. -/
def fetchPage (t : Table) (slot : SlotIndex) (page : Page) :
    Session σ (Registers page.registers) := do
  t.command .read page slot
  t.readPage page.registers

/-- Reads a slot, valid or not. -/
def readEntry (t : Table) (slot : SlotIndex) : Session σ Slot := do
  ofExcept (t.geometry.checkSlot slot)
  let key ← t.fetchPage slot .key
  let window ← if t.geometry.hasWindowPage then t.fetchPage slot .window
    else pure SlotImage.empty.window
  t.selectActionSubBlock
  let action ← t.fetchPage slot .action
  count fun s => { s with reads := s.reads + 1 }
  let image : SlotImage := ⟨key, window, action⟩
  return ⟨slot, image.isValid, image.entry⟩

/-- The registers that a search without a hit leaves at zero. -/
def missRegisters : List Nat := [0, 1, 2]

/-- All listed data registers read as zero.  Reading ends at the first that does not. -/
def registersAreZero (t : Table) : List Nat → Session σ Bool
  | [] => pure true
  | i :: rest => do
    let word ← t.readRegister (dataRegister i)
    if word = 0#16 then t.registersAreZero rest else pure false

/-- Reads the first valid slot after the given one, or of all slots after the
largest index.  The largest index is reported both for a hit there and for no hit
at all; the data registers tell them apart. -/
def getNextEntry (t : Table) (slot : SlotIndex) : Session σ Slot := do
  if t.geometry.maxIndex < slot then
    throw (.invalidArgument (.slotBeyondMaximum slot t.geometry.maxIndex))
  t.command .getNext .key slot
  count fun s => { s with getNext := s.getNext + 1 }
  let found : SlotIndex := entryField.get (← t.readRegister operationRegister)
  if found = t.geometry.maxIndex then
    if ← t.registersAreZero missRegisters then
      throw (.notFound slot)
  t.readEntry found

/-- The slot after which a search finds `slot` first. -/
def previous (t : Table) (slot : SlotIndex) : SlotIndex :=
  if slot = 0#16 then t.geometry.maxIndex else slot - 1#16

/-- Reads a slot that must be valid. -/
def findEntry (t : Table) (slot : SlotIndex) : Session σ Slot := do
  ofExcept (t.geometry.checkSlot slot)
  let found ← tryCatch (t.getNextEntry (t.previous slot)) fun
    | .notFound _ => throw (.notFound slot)
    | e => throw e
  if found.index = slot then
    return found
  throw (.notFound slot)

/-- Changes the source ports of a valid slot. -/
def updatePorts (t : Table) (slot : SlotIndex) (port : Octet)
    (update : Masked PortVector → Masked PortVector) : Session σ Unit := do
  if PortVector.width ≤ port.toNat then
    throw (.invalidArgument (.portBeyondVector port))
  let found ← t.findEntry slot
  let key := found.entry.key
  let ports := update ⟨key.value.sourcePorts, key.mask.sourcePorts⟩
  t.loadEntry slot { found.entry with
    key := ⟨{ key.value with sourcePorts := ports.value },
      { key.mask with sourcePorts := ports.mask }⟩ }

/-- Admits the frames of a port. -/
def addPort (t : Table) (slot : SlotIndex) (port : Octet) : Session σ Unit :=
  t.updatePorts slot port fun ports =>
    ⟨ports.value.erase port.toNat, ports.mask.erase port.toNat⟩

/-- Stops admitting the frames of a port. -/
def removePort (t : Table) (slot : SlotIndex) (port : Octet) : Session σ Unit :=
  t.updatePorts slot port fun ports =>
    ⟨ports.value.erase port.toNat, ports.mask.insert port.toNat⟩

end Tcam.Table
