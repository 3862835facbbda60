import Tcam.Slot.Pages

/-!
# Slot images

The register content of one slot.  The sentinel tells a loaded slot from a
flushed one.  Encoding an entry cuts every number to the width of its place, so
only entries that fit are read back as they were.
-/

namespace Tcam

open Registers (field)

/-- The register content of a slot. -/
structure SlotImage where
  key : Registers 27
  window : Registers 26
  action : Registers 8
  deriving DecidableEq, Repr

namespace SlotImage

/-- The place that tells whether the slot is loaded. -/
def sentinel : BitField := field 0 0 8

/-- The sentinel of a flushed slot. -/
def emptySentinel : Octet := 0xff#8

/-- The sentinel that a load writes.  It is not zero, so the first data
register never reads like a search without a hit. -/
def loadedSentinel : Octet := 0x01#8

/-- The content of a flushed slot. -/
def empty : SlotImage :=
  ⟨sentinel.set 0#(16 * 27) emptySentinel, 0#(16 * 26), 0#(16 * 8)⟩

/-- The registers of one page. -/
def page (s : SlotImage) : (p : Page) → Registers p.registers
  | .key => s.key
  | .window => s.window
  | .action => s.action

/-- The image with one page replaced. -/
def setPage (s : SlotImage) : (p : Page) → Registers p.registers → SlotImage
  | .key, r => { s with key := r }
  | .window, r => { s with window := r }
  | .action, r => { s with action := r }

/-- The slot is loaded: its sentinel is not the one of a flushed slot. -/
def isValid (s : SlotImage) : Bool :=
  (sentinel.get s.key : Octet) != emptySentinel

/-- The image that a load of the entry leaves. -/
def ofEntry (e : Entry) : SlotImage where
  key := FrameWindow.keyPageLayout.pack
    (KeyMatch.layout.pack (sentinel.set 0#(16 * 27) loadedSentinel) e.key) e.window
  window := FrameWindow.windowPageLayout.pack 0#(16 * 26) e.window
  action := ActionFields.referenceLayout.pack
    (Action.layout.pack 0#(16 * 8) e.fields.action) e.fields

/-- The entry that the image holds, whether the slot is loaded or not. -/
def entry (s : SlotImage) : Entry where
  key := KeyMatch.layout.unpack s.key .any
  window := FrameWindow.windowPageLayout.unpack s.window
    (FrameWindow.keyPageLayout.unpack s.key .any)
  fields := ActionFields.referenceLayout.unpack s.action
    ⟨false, 0#8, Action.layout.unpack s.action default⟩

end SlotImage

end Tcam
