import Tcam.Text.Hex

/-!
# Registers and the buses that reach them

A device has blocks of sixteen-bit registers.  A bus reads and writes one
register at a time and may refuse; what the bus did before a refusal stays
done, so an access returns the new state of the bus in either case.  Writing a
bit field is a read followed by a write of the whole register.
-/

namespace Tcam

/-- The address of a register block. -/
structure BlockAddr where
  address : Octet
  deriving DecidableEq, Repr

namespace BlockAddr

/-- Addresses go up to `0x1f`. -/
def isValid (b : BlockAddr) : Bool :=
  decide (b.address ≤ 0x1f#8)

/-- The address as the messages show it. -/
def text (b : BlockAddr) : String :=
  "0x" ++ Hex.padded b.address

end BlockAddr

/-- The position of a register inside its block. -/
structure RegOffset where
  position : Octet
  deriving DecidableEq, Repr

namespace RegOffset

/-- The register `n` positions further on. -/
def add (o : RegOffset) (n : Octet) : RegOffset :=
  ⟨o.position + n⟩

/-- The position as the messages show it. -/
def text (o : RegOffset) : String :=
  "0x" ++ Hex.padded o.position

end RegOffset

/-- Why a register refused an access. -/
inductive AccessFault where
  | injected
  | unknownOpcode
  | unknownPage
  | indexBeyondTable
  | subBlockNotSelected
  | note (text : String)
  deriving DecidableEq, Repr

namespace AccessFault

def message : AccessFault → String
  | injected => "injected fault"
  | unknownOpcode => "unknown opcode"
  | unknownPage => "unknown page"
  | indexBeyondTable => "entry index beyond table"
  | subBlockNotSelected => "action page needs sub-block 0"
  | note text => text

end AccessFault

/-- Why a bus as a whole cannot be used. -/
inductive BusFault where
  | lockPoisoned
  | note (text : String)
  deriving DecidableEq, Repr

namespace BusFault

def message : BusFault → String
  | lockPoisoned => "shared bus lock poisoned"
  | note text => text

end BusFault

/-- What can go wrong with a register access. -/
inductive RegError where
  | access (block : BlockAddr) (offset : RegOffset) (fault : AccessFault)
  | noSuchRegister (block : BlockAddr) (offset : RegOffset)
  | busUnavailable (fault : BusFault)
  deriving DecidableEq, Repr

namespace RegError

def message : RegError → String
  | access block offset fault =>
    s!"register access failed at block {block.text} offset {offset.text}: {fault.message}"
  | noSuchRegister block offset => s!"no register at block {block.text} offset {offset.text}"
  | busUnavailable fault => s!"register bus unavailable: {fault.message}"

end RegError

/-- A bus of sixteen-bit registers whose own state is of type `σ`. -/
class RegisterBus (σ : Type) where
  readRegister : BlockAddr → RegOffset → EStateM RegError σ Word
  writeRegister : BlockAddr → RegOffset → Word → EStateM RegError σ Unit

namespace RegisterBus

variable {σ : Type} [RegisterBus σ]

/-- Reads one field of a register. -/
def readField (block : BlockAddr) (offset : RegOffset) (field : BitField) :
    EStateM RegError σ Word := do
  let word ← readRegister block offset
  return field.get word

/-- Replaces one field of a register and keeps its other bits. -/
def writeField (block : BlockAddr) (offset : RegOffset) (field : BitField) (value : Word) :
    EStateM RegError σ Unit := do
  let word ← readRegister block offset
  writeRegister block offset (field.set word value)

end RegisterBus

end Tcam
