import Tcam.Device.Basic

/-!
# Commands of a table block

A command moves a page between the data registers and a slot, invalidates
slots, or searches for the next loaded slot.  Commands that the block does not
know, that address a slot it does not have, or that need another sub-block are
refused and change nothing.
-/

namespace Tcam.Device

variable {g : Geometry}

/-- The command that an operation word asks for, if the block can run it. -/
def commandOf (word : Word) (d : Device g) : Except AccessFault Command :=
  match Opcode.ofBits? (opcodeField.get word) with
  | none => .error .unknownOpcode
  | some opcode =>
    match Page.ofBits? (pageField.get word) with
    | none => .error .unknownPage
    | some page =>
      let index : SlotIndex := entryField.get word
      if opcode ≠ .flushAll ∧ opcode ≠ .getNext ∧ g.maxIndex < index then
        .error .indexBeyondTable
      else if page = .action ∧ (opcode = .load ∨ opcode = .read) ∧
          (subBlockField.get d.extension : Word) ≠ actionSubBlock then
        .error .subBlockNotSelected
      else .ok ⟨opcode, page, index⟩

/-- The index at which a search after `index` starts.  It wraps at the end of
the table. -/
def searchStart (g : Geometry) (index : SlotIndex) : Nat :=
  if g.maxIndex ≤ index then g.minIndex.toNat
  else max (index.toNat + 1) g.minIndex.toNat

/-- The first loaded slot from `start` on. -/
def firstValid? (d : Device g) (start : Nat) : Option Nat :=
  (List.range' start (g.maxIndex.toNat + 1 - start)).find? fun i =>
    (d.slots[i]?).any SlotImage.isValid

/-- Replaces the image of a slot. -/
def updateSlot (d : Device g) (slot : SlotIndex) (f : SlotImage → SlotImage) : Device g :=
  match d.slots[slot.toNat]? with
  | some image => { d with slots := d.slots.setIfInBounds slot.toNat (f image) }
  | none => d

/-- What a command does to slots and data registers, and the index it reports.
A search without a hit clears the data registers and reports the largest index. -/
def effect (c : Command) (d : Device g) : SlotIndex × Device g :=
  match c.opcode with
  | .flushAll => (c.index, { d with slots := Vector.replicate _ .empty })
  | .flushEntry => (c.index, d.updateSlot c.index fun _ => .empty)
  | .load => (c.index, d.updateSlot c.index fun s => s.setPage c.page (d.data.setWidth _))
  | .read =>
    (c.index, { d with data := (((d.slot? c.index).getD .empty).page c.page).setWidth _ })
  | .getNext =>
    match d.firstValid? (searchStart g c.index) with
    | some i =>
      (BitVec.ofNat 16 i, { d with data := ((d.slots[i]?).getD .empty).key })
    | none => (g.maxIndex, { d with data := 0#_ })

/-- Runs a command: it enters the history, takes effect, and makes the block
busy. -/
def perform (c : Command) (d : Device g) : Device g :=
  let r := effect c { d with history := c :: d.history }
  { r.2 with operation := { c with index := r.1 }.idleWord, busyRemaining := d.busyDelay }

end Tcam.Device
