import Tcam.Rule.Basic

/-!
# Slot entries

What one slot of a table holds: a match on the key header, one frame window,
and an action.  An entry may continue in another slot, which then compares the
second window and carries the action.
-/

namespace Tcam

/-- An action and the slot in which matching continues. -/
structure ActionFields where
  continueNext : Bool
  nextId : Octet
  action : Action
  deriving DecidableEq, Repr

namespace ActionFields

/-- The fields of an entry that does not continue. -/
def terminal (action : Action) : ActionFields :=
  ⟨false, 0#8, action⟩

instance : Inhabited ActionFields where
  default := terminal default

end ActionFields

/-- The content of a slot. -/
structure Entry where
  key : KeyMatch
  window : FrameWindow
  fields : ActionFields
  deriving DecidableEq, Repr

namespace Entry

instance : Inhabited Entry where
  default := ⟨.any, .any, default⟩

/-- The slot in which the entry continues. -/
def next? (e : Entry) : Option SlotIndex :=
  if e.fields.continueNext then some (e.fields.nextId.setWidth 16) else none

end Entry

/-- A slot as it is read back. -/
structure Slot where
  index : SlotIndex
  valid : Bool
  entry : Entry
  deriving DecidableEq, Repr

end Tcam
