/-!
# Ternary match values

A masked value is a value with a mask of the same type.  A mask bit of one says
that the bit must compare equal; a mask of zero compares nothing.  Whole headers
and windows are masked in the same way as single numbers, with one record of
values and one of masks.
-/

namespace Tcam

/-- Types that have a mask comparing every bit. -/
class FullMask (α : Type) where
  full : α

instance {n : Nat} : FullMask (BitVec n) where
  full := BitVec.allOnes n

/-- A value together with the bits of it that are compared. -/
structure Masked (α : Type) where
  value : α
  mask : α
  deriving DecidableEq, Repr

namespace Masked

variable {α β : Type}

/-- Matches anything. -/
def any [Inhabited α] : Masked α :=
  ⟨default, default⟩

instance [Inhabited α] : Inhabited (Masked α) where
  default := any

/-- Matches `value` in every bit of its type. -/
def exact [FullMask α] (value : α) : Masked α :=
  ⟨value, FullMask.full⟩

/-- No bit is compared. -/
def isWildcard [DecidableEq α] [Inhabited α] (m : Masked α) : Bool :=
  m.mask == default

/-- The number `x` agrees with the value in every compared bit. -/
def Accepts {n : Nat} (m : Masked (BitVec n)) (x : BitVec n) : Prop :=
  (x ^^^ m.value) &&& m.mask = 0#n

instance {n : Nat} (m : Masked (BitVec n)) (x : BitVec n) : Decidable (m.Accepts x) :=
  inferInstanceAs (Decidable (_ = _))

end Masked

end Tcam
