import Tcam.Geometry
import Tcam.PortVector

/-!
# Configuration of a device

The two tables of a device, how often the busy bit is read before an operation
gives up, and how many ports the device has.
-/

namespace Tcam

/-- One of the two tables of a device. -/
inductive Direction where
  | ingress
  | egress
  deriving DecidableEq, Repr

/-- What is known about a device before it is used. -/
structure Config where
  ingress : Geometry
  egress : Geometry
  busyPollLimit : BitVec 32
  portCount : Octet
  deriving DecidableEq, Repr

namespace Config

instance : Inhabited Config where
  default := ⟨.ingress, .egress, 1000#32, 11#8⟩

/-- The geometry of one of the tables. -/
def geometry (c : Config) : Direction → Geometry
  | .ingress => c.ingress
  | .egress => c.egress

/-- Refuses configurations no device has. -/
def validate (c : Config) : Except Error Unit := do
  c.ingress.validate
  c.egress.validate
  if c.ingress.block = c.egress.block then
    throw (.config .sharedBlock)
  if c.busyPollLimit = 0#32 then
    throw (.config .zeroPollLimit)
  if c.portCount = 0#8 ∨ PortVector.width < c.portCount.toNat then
    throw (.config (.portCountOutOfRange c.portCount))

/-- Refuses ports the device does not have. -/
def checkPort (c : Config) (port : Octet) : Except Error Unit :=
  if port < c.portCount then .ok ()
  else .error (.invalidArgument (.portBeyondDevice port c.portCount))

end Config

end Tcam
