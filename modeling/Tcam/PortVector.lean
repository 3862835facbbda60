import Tcam.Masked
import Tcam.Bits.Field

/-!
# Port vectors

A port vector is a set of switch ports, kept as the bits of a sixteen-bit
number.  The widest device has eleven ports, so a mask that compares every port
has eleven bits.
-/

namespace Tcam

/-- A set of ports; bit `n` stands for port `n`. -/
structure PortVector where
  bits : Word
  deriving DecidableEq, Repr

namespace PortVector

/-- The number of ports a vector field of a register holds. -/
def width : Nat := 11

instance : Inhabited PortVector where
  default := ⟨0#16⟩

/-- Every port of the widest device. -/
def all : PortVector :=
  ⟨0x7ff#16⟩

instance : FullMask PortVector where
  full := all

/-- The set of one port. -/
def single (port : Nat) : PortVector :=
  ⟨1#16 <<< port⟩

def contains (v : PortVector) (port : Nat) : Bool :=
  v.bits.getLsbD port

/-- The set with `port` added. -/
def insert (v : PortVector) (port : Nat) : PortVector :=
  ⟨v.bits ||| 1#16 <<< port⟩

/-- The set with `port` taken out. -/
def erase (v : PortVector) (port : Nat) : PortVector :=
  ⟨v.bits &&& ~~~(1#16 <<< port)⟩

def isEmpty (v : PortVector) : Bool :=
  v.bits == 0#16

/-- The ports of the set in ascending order. -/
def toList (v : PortVector) : List Nat :=
  (List.range 16).filter v.contains

/-- The set of the listed ports. -/
def ofList (ports : List Nat) : PortVector :=
  ports.foldl insert default

/-- The ports in brackets, separated by commas. -/
def text (v : PortVector) : String :=
  "[" ++ String.intercalate "," (v.toList.map toString) ++ "]"

end PortVector

end Tcam
