import Tcam.Bits.Layout

/-!
# Runs of registers

The registers of a page follow each other, so a page is one long word and a
field of one of its registers is a field of that word.
-/

namespace Tcam

/-- A run of `n` registers; the first one is in the lowest bits. -/
abbrev Registers (n : Nat) := BitVec (16 * n)

namespace Registers

variable {n : Nat}

/-- Bits of register `i` as a field of the run. -/
def field (i offset width : Nat) : BitField :=
  ⟨16 * i + offset, width⟩

def get (r : Registers n) (i : Nat) : Word :=
  (field i 0 16).get r

def set (r : Registers n) (i : Nat) (w : Word) : Registers n :=
  (field i 0 16).set r w

def toList (r : Registers n) : List Word :=
  (List.range n).map r.get

end Registers

end Tcam
