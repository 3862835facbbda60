import Tcam.Slot.Image
import Tcam.Table.Basic

/-!
# Commands over the bus

A command waits for the busy bit to clear, writes the operation register, and
waits again; both waits give up after a fixed number of polls.  Pages are moved
through the data registers one register at a time.
-/

namespace Tcam.Table

variable {σ : Type} [RegisterBus σ]

open Session (count enter onBus)

def readRegister (t : Table) (offset : RegOffset) : Session σ Word :=
  onBus (RegisterBus.readRegister t.block offset)

def writeRegister (t : Table) (offset : RegOffset) (value : Word) : Session σ Unit :=
  onBus (RegisterBus.writeRegister t.block offset value)

/-- Polls the busy bit up to the given number of times. -/
def poll (t : Table) : Nat → Session σ Unit
  | 0 => do
    count fun s => { s with busyTimeouts := s.busyTimeouts + 1 }
    throw (.busyTimeout t.block t.pollLimit)
  | n + 1 => do
    let busy ← onBus (RegisterBus.readField t.block operationRegister busyField)
    if busy = 0#16 then pure () else t.poll n

/-- Waits for the block to be ready. -/
def waitReady (t : Table) : Session σ Unit :=
  t.poll t.pollLimit

/-- Starts a command and waits for it, phase by phase. -/
def issue (t : Table) (c : Command) : Session σ Unit := do
  enter .awaitingBusy
  t.waitReady
  t.writeRegister operationRegister c.word
  enter .commandIssued
  t.waitReady

/-- Runs a command; the table is idle afterwards in any case. -/
def command (t : Table) (opcode : Opcode) (page : Page) (index : SlotIndex) : Session σ Unit :=
  fun s =>
    match t.issue ⟨opcode, page, index⟩ s with
    | .ok () s => .ok () { s with phase := .idle }
    | .error e s => .error e { s with phase := .idle }

/-- Selects the sub-block that shows the action page. -/
def selectActionSubBlock (t : Table) : Session σ Unit :=
  onBus (RegisterBus.writeField t.block extensionRegister subBlockField actionSubBlock)

/-- Writes the data registers of a page, lowest first. -/
def writePage (t : Table) {n : Nat} (page : Registers n) : Session σ Unit :=
  (List.range n).forM fun i => t.writeRegister (dataRegister i) (page.get i)

/-- Reads `n` data registers, lowest first. -/
def readPage (t : Table) (n : Nat) : Session σ (Registers n) :=
  (List.range n).foldlM
    (fun (page : Registers n) i => do return page.set i (← t.readRegister (dataRegister i)))
    0#_

end Tcam.Table
