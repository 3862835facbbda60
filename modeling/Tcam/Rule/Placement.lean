import Tcam.Frame.Mapping
import Tcam.Slot.Check

/-!
# Rules placed in slots

A rule whose match ends in the first frame window takes one slot.  A rule that
compares octets of the second window takes two: the first slot matches the first
window and continues in the second slot, which matches the second window and
carries the action.  The key of the second slot compares nothing but the VLAN id,
with the slot's own index.  A value under a zero mask in a second window that is not
stored could not be read back and is refused.
-/

namespace Tcam

/-- The entries of a rule and, if it takes two slots, the index of the second. -/
structure Placement where
  primary : Entry
  continuation : Option (SlotIndex × Entry)
  deriving DecidableEq, Repr

namespace Placement

/-- The rule takes two slots. -/
def isCascaded (p : Placement) : Bool :=
  p.continuation.isSome

end Placement

namespace Entry

/-- The VLAN id mask of an entry that continues another one. -/
def cascadeTagMask : Word := 0xfff#16

/-- A second entry is worth its slot if it compares something. -/
def isUsedAsSecond (e : Entry) : Bool :=
  !e.window.isWildcard

/-- The key header of an entry that continues another one and lives in `slot`. -/
def cascadeKey (slot : SlotIndex) : KeyMatch where
  value := { (default : KeyHeader) with vlanId := slot }
  mask := { (default : KeyHeader) with vlanId := cascadeTagMask }

/-- Makes `first` continue in `second`, which lives in `slot` and takes over the
action. -/
def link (first second : Entry) (slot : SlotIndex) (action : Action) :
    Except Error (Entry × Entry) :=
  if maxSlotIndex < slot then
    .error (.invalidArgument (.cascadeSlotTooLarge slot))
  else
    .ok ({ first with fields := ⟨true, slot.setWidth 8, default⟩ },
      { second with key := cascadeKey slot, fields := .terminal action })

end Entry

namespace Rule

/-- The stream that the headers of the rule describe. -/
def stream (r : Rule) : Except Error FrameStream :=
  let start := FrameStream.putEthernet .any r.ethernet r.shape
  match FrameStream.putHeaders r.headers start with
  | .ok () s => .ok s
  | .error e _ => .error e

/-- The entries of the rule.  The second one, if needed, is meant for `slot2`. -/
def place (r : Rule) (slot2 : SlotIndex) : Except Error Placement := do
  r.key.check
  r.action.check
  let s ← r.stream
  let primary : Entry := ⟨r.key, s.firstWindow, .terminal r.action⟩
  let second : Entry := { (default : Entry) with window := s.secondWindow }
  if r.shape.reachesSecondWindow && second.isUsedAsSecond then
    let (primary, second) ← primary.link second slot2 r.action
    return ⟨primary, some (slot2, second)⟩
  if s.secondWindow.value ≠ 0#_ then
    throw (.invalidArgument (.valuesUnderZeroMask r.shape))
  return ⟨primary, none⟩

/-- The rule that a stream and the parts kept outside of it describe. -/
def ofStream (key : KeyMatch) (s : FrameStream) (action : Action) : Except Error Rule := do
  let shape ← s.shape
  return ⟨key, s.readEthernet, s.readHeaders shape, action⟩

/-- The rule whose entries are given.  The second one is looked at only if the
first one continues. -/
def ofEntries (first : Entry) (second : Option Entry) : Except Error Rule :=
  if first.fields.continueNext then
    match second with
    | some second =>
      ofStream first.key (.ofWindows first.window (some second.window)) second.fields.action
    | none => .error (.invalidArgument (.continuationMissing first.fields.nextId))
  else
    ofStream first.key (.ofWindows first.window none) first.fields.action

end Rule

end Tcam
