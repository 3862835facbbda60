import Tcam.Rule.Placement
import Tcam.Table.Operations

/-!
# Rules in a table

The operations on whole rules.  A rule of two slots is loaded with its second slot
first and removed with its first slot first.  A rule to be loaded is placed, and the
slots that it takes are checked, before the table is locked; so is the number of a
port.  All other checks are those of the operations on slots, and each of these is
made with the table locked, when the turn of its operation has come.
-/

namespace Tcam

/-- One table of a configured device, used through rules. -/
structure Classifier where
  config : Config
  table : Table
  deriving DecidableEq, Repr

namespace Classifier

variable {σ : Type} [RegisterBus σ]

/-- The classifier of one direction. -/
def ofConfig (config : Config) (direction : Direction) : Except Error Classifier := do
  config.validate
  let table ← Table.ofGeometry (config.geometry direction) config.busyPollLimit.toNat
  return ⟨config, table⟩

/-- Loads the entries of a rule, the continuation first. -/
def load (t : Table) (slot : SlotIndex) (p : Placement) : Session σ Unit := do
  match p.continuation with
  | some (slot2, second) => t.loadEntry slot2 second
  | none => pure ()
  t.loadEntry slot p.primary

/-- Refuses a placement whose second slot cannot be used together with `slot`. -/
def checkContinuation (c : Classifier) (slot : SlotIndex) (p : Placement) : Except Error Unit :=
  match p.continuation with
  | some (slot2, _) => do
    c.table.geometry.checkSlot slot2
    if slot2 = slot then
      throw (.invalidArgument (.cascadeIntoItself slot))
  | none => .ok ()

/-- The placement of a rule, with all arguments checked. -/
def plan (c : Classifier) (slot1 slot2 : SlotIndex) (rule : Rule) : Except Error Placement := do
  c.table.geometry.checkSlot slot1
  let p ← rule.place slot2
  c.checkContinuation slot1 p
  return p

/-- Puts a rule at `slot1`, and at `slot2` if it takes two slots.  Tells whether
it does. -/
def configure (c : Classifier) (slot1 slot2 : SlotIndex) (rule : Rule) : Transaction σ Bool := do
  let p ← ofExcept (c.plan slot1 slot2 rule)
  (load c.table slot1 p).locked
  return p.isCascaded

/-- Reads the slot in which an entry continues.  It must be valid. -/
def readContinuation (t : Table) (first : Entry) : Session σ (Option Entry) := do
  match first.next? with
  | none => return none
  | some next =>
    let second ← t.readEntry next
    if second.valid then
      return some second.entry
    throw (.notFound next)

/-- Reads a slot, or nothing if it is not valid. -/
def lookup? (t : Table) (slot : SlotIndex) : Session σ (Option Slot) :=
  tryCatch (do return some (← t.findEntry slot)) fun
    | .notFound _ => return none
    | e => throw e

/-- Reads the rule at a slot, if the slot is valid. -/
def readRule (c : Classifier) (slot : SlotIndex) : Transaction σ (Option Rule) :=
  Session.locked do
    match ← lookup? c.table slot with
    | none => return none
    | some first =>
      let second ← readContinuation c.table first.entry
      let rule ← ofExcept (Rule.ofEntries first.entry second)
      return some rule

/-- Flushes the rule at a slot, then the slot in which it continues. -/
def removeRule (c : Classifier) (slot : SlotIndex) : Transaction σ Unit :=
  Session.locked do
    let first ← c.table.findEntry slot
    c.table.flushEntry slot
    match first.entry.next? with
    | some next => c.table.flushEntry next
    | none => pure ()

/-- Admits the frames of a port of the device. -/
def addPort (c : Classifier) (slot : SlotIndex) (port : Octet) : Transaction σ Unit := do
  ofExcept (c.config.checkPort port)
  (c.table.addPort slot port).locked

/-- Stops admitting the frames of a port of the device. -/
def removePort (c : Classifier) (slot : SlotIndex) (port : Octet) : Transaction σ Unit := do
  ofExcept (c.config.checkPort port)
  (c.table.removePort slot port).locked

end Classifier

end Tcam
