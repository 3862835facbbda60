import Tcam.Geometry
import Tcam.Slot.Pages
import Tcam.Widths

/-!
# Entries that a slot can hold

An entry is accepted if a slot would give it back unchanged: every number fits
its place, and the window ends where the table's windows end.
-/

namespace Tcam

def KeyMatch.check (k : KeyMatch) : Except Error Unit :=
  KeyMatch.layout.check k

def Action.check (a : Action) : Except Error Unit :=
  Action.layout.check a

namespace Entry

/-- Refuses an entry that a slot of the geometry would not keep as it is. -/
def check (e : Entry) (g : Geometry) : Except Error Unit := do
  e.key.check
  e.fields.action.check
  if e.window.comparesBeyond g.octets || e.window.hasValuesBeyond g.octets then
    throw (.invalidArgument (.windowTooLong g.octets))

end Entry

end Tcam
