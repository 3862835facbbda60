import Tcam.Geometry

/-!
# Commands of a table

A table is operated through one register.  Writing a word with the busy bit set
starts a command on one page of one slot; the bit reads as set until the command
is done.
-/

namespace Tcam

/-- What a command does. -/
inductive Opcode where
  | flushAll
  | flushEntry
  | load
  | getNext
  | read
  deriving DecidableEq, Repr

namespace Opcode

def bits : Opcode → Word
  | flushAll => 1#16
  | flushEntry => 2#16
  | load => 3#16
  | getNext => 4#16
  | read => 5#16

def ofBits? (bits : Word) : Option Opcode :=
  [flushAll, flushEntry, load, getNext, read].find? fun o => o.bits == bits

end Opcode

/-- The part of a slot that the data registers show. -/
inductive Page where
  | key
  | window
  | action
  deriving DecidableEq, Repr

namespace Page

def bits : Page → Word
  | key => 0#16
  | window => 1#16
  | action => 2#16

def ofBits? (bits : Word) : Option Page :=
  [key, window, action].find? fun p => p.bits == bits

/-- The number of data registers the page takes. -/
abbrev registers : Page → Nat
  | key => 27
  | window => 26
  | action => 8

end Page

/-- A command on one page of one slot. -/
structure Command where
  opcode : Opcode
  page : Page
  index : SlotIndex
  deriving DecidableEq, Repr

/-- The register that starts commands. -/
def operationRegister : RegOffset := ⟨0x00#8⟩

/-- The register that selects the sub-block shown on the action page. -/
def extensionRegister : RegOffset := ⟨0x01#8⟩

/-- The number of data registers. -/
abbrev dataRegisters : Nat := 27

/-- Data register `i`. -/
def dataRegister (i : Nat) : RegOffset := ⟨0x02#8 + BitVec.ofNat 8 i⟩

def busyField : BitField := ⟨15, 1⟩

def opcodeField : BitField := ⟨12, 3⟩

def pageField : BitField := ⟨10, 2⟩

def entryField : BitField := ⟨0, 8⟩

def subBlockField : BitField := ⟨0, 4⟩

/-- The sub-block that shows the action page. -/
def actionSubBlock : Word := 0#16

namespace Command

/-- The command as the operation register keeps it, with the busy bit clear. -/
def idleWord (c : Command) : Word :=
  entryField.set (pageField.set (opcodeField.set 0#16 c.opcode.bits) c.page.bits) c.index

/-- The word that starts the command. -/
def word (c : Command) : Word :=
  entryField.set
    (pageField.set (opcodeField.set (busyField.set 0#16 1#1) c.opcode.bits) c.page.bits) c.index

end Command

end Tcam
