import Tcam.Bits.Layout
import Tcam.Error
import Tcam.Masked

/-!
# Width checks

Records hold their numbers in machine words that are often wider than the place
a layout gives them.  These checks refuse such a record and name the first
number that is too wide.
-/

namespace Tcam.Layout

variable {α : Type}

/-- Refuses a record with a number that is too wide for its place. -/
def check (l : Layout α) (a : α) : Except Error Unit :=
  match l.overflow? a with
  | none => .ok ()
  | some c => .error (.invalidArgument (.valueTooWide c.label (c.get a).toNat c.place.width))

/-- Refuses a header with a value or mask that is too wide for its place. -/
def checkMasked (l : Layout α) (h : Masked α) : Except Error Unit :=
  match l.find? fun c => !(c.fits h.value && c.fits h.mask) with
  | none => .ok ()
  | some c =>
    .error (.invalidArgument
      (.maskedValueTooWide c.label (c.get h.value).toNat (c.get h.mask).toNat c.place.width))

end Tcam.Layout
