import Tcam.Register.Basic
import Tcam.Shape

/-!
# Errors and the status a caller sees

Every refusal names its cause; the wording is in the `message` functions.  A
caller of the rule-level operations only sees a status, in which a busy timeout
and a failed register access look alike.
-/

namespace Tcam

/-- The index of a slot.  A table uses at most the low eight bits. -/
abbrev SlotIndex := BitVec 16

/-- Why an argument is refused. -/
inductive ArgumentError where
  | slotOutsideTable (slot minIndex maxIndex : SlotIndex)
  | slotBeyondMaximum (slot maxIndex : SlotIndex)
  | portBeyondVector (port : Octet)
  | portBeyondDevice (port portCount : Octet)
  | valueTooWide (label : String) (value : Nat) (width : Nat)
  | maskedValueTooWide (label : String) (value mask : Nat) (width : Nat)
  | windowTooLong (octets : Nat)
  | unknownShape (text : String)
  | malformedMac (text : String)
  | noShapeMatch (etherType : Word) (protocol : Octet)
  | cascadeSlotTooLarge (slot : SlotIndex)
  | cascadeIntoItself (slot : SlotIndex)
  | continuationMissing (slot : Octet)
  | valuesUnderZeroMask (shape : Shape)
  | note (text : String)
  deriving DecidableEq, Repr

namespace ArgumentError

def message : ArgumentError → String
  | slotOutsideTable slot minIndex maxIndex =>
    s!"slot {slot.toNat} outside table range {minIndex.toNat}..={maxIndex.toNat}"
  | slotBeyondMaximum slot maxIndex =>
    s!"slot {slot.toNat} beyond table maximum {maxIndex.toNat}"
  | portBeyondVector port => s!"port {port.toNat} beyond the 11-port vector"
  | portBeyondDevice port portCount =>
    s!"port {port.toNat} out of range (device has {portCount.toNat} ports)"
  | valueTooWide label value width =>
    s!"{label} value 0x{Hex.natDigits value} exceeds its {width}-bit field"
  | maskedValueTooWide label value mask width =>
    s!"{label} value/mask 0x{Hex.natDigits value}/0x{Hex.natDigits mask} exceeds its {width}-bit field"
  | windowTooLong octets => s!"window uses octets beyond the {octets} this table holds"
  | unknownShape text => s!"unsupported protocol shape: {text}"
  | malformedMac text => s!"invalid MAC address: {text}"
  | noShapeMatch etherType protocol =>
    s!"entry matches no supported protocol shape (ethertype 0x{Hex.padded etherType}, protocol {protocol.toNat})"
  | cascadeSlotTooLarge slot => s!"cascade slot {slot.toNat} beyond index 255"
  | cascadeIntoItself slot => s!"rule cascades into its own slot {slot.toNat}"
  | continuationMissing slot =>
    s!"entry continues into slot {slot.toNat} but no continuation image was given"
  | valuesUnderZeroMask shape =>
    s!"{shape.text} rule sets values under a zero mask in the second window"
  | note text => text

end ArgumentError

/-- Why a configuration is refused. -/
inductive ConfigError where
  | blockOutOfRange (block : BlockAddr)
  | maxIndexTooLarge (maxIndex : SlotIndex)
  | minAboveMax (minIndex maxIndex : SlotIndex)
  | windowPageCount (pages : Octet)
  | sharedBlock
  | zeroPollLimit
  | portCountOutOfRange (count : Octet)
  | zeroTablePollLimit
  | malformedText
  | note (text : String)
  deriving DecidableEq, Repr

namespace ConfigError

def message : ConfigError → String
  | blockOutOfRange block => s!"block address {block.text} out of range"
  | maxIndexTooLarge maxIndex =>
    s!"max_index {maxIndex.toNat} exceeds the 256-slot index field"
  | minAboveMax minIndex maxIndex =>
    s!"min_index {minIndex.toNat} above max_index {maxIndex.toNat}"
  | windowPageCount pages => s!"window_pages must be 1 or 2, got {pages.toNat}"
  | sharedBlock => "ingress and egress share a block address"
  | zeroPollLimit => "busy_poll_limit must be non-zero"
  | portCountOutOfRange count => s!"port_count must be 1..=11, got {count.toNat}"
  | zeroTablePollLimit => "busy poll limit must be non-zero"
  | malformedText => "not a configuration"
  | note text => text

end ConfigError

/-- What a caller of the rule-level operations is told. -/
inductive Status where
  | ok
  | invalidArgument
  | notFound
  | fail
  deriving DecidableEq, Repr

namespace Status

def text : Status → String
  | ok => "TCAM_OK"
  | invalidArgument => "TCAM_INVALID_ARGUMENT"
  | notFound => "TCAM_NOT_FOUND"
  | fail => "TCAM_FAIL"

def isOk (s : Status) : Bool :=
  s == ok

end Status

/-- What can go wrong with an operation on a table. -/
inductive Error where
  | invalidArgument (cause : ArgumentError)
  | busyTimeout (block : BlockAddr) (attempts : Nat)
  | transport (cause : RegError)
  | notFound (slot : SlotIndex)
  | lockPoisoned
  | config (cause : ConfigError)
  deriving DecidableEq, Repr

namespace Error

def message : Error → String
  | invalidArgument cause => s!"invalid argument: {cause.message}"
  | busyTimeout block attempts => s!"TCAM block {block.text} still busy after {attempts} polls"
  | transport cause => s!"register transport failure: {cause.message}"
  | notFound slot => s!"no valid TCAM entry for slot {slot.toNat}"
  | lockPoisoned => "TCAM table lock poisoned"
  | config cause => s!"invalid TCAM configuration: {cause.message}"

def status : Error → Status
  | invalidArgument _ | config _ => .invalidArgument
  | notFound _ => .notFound
  | busyTimeout _ _ | transport _ | lockPoisoned => .fail

/-- The same call may succeed when it is made again. -/
def isRetryable : Error → Bool
  | busyTimeout _ _ | transport _ => true
  | _ => false

/-- The status of a call that returned `result`. -/
def statusOf {α : Type} (result : Except Error α) : Status :=
  match result with
  | .ok _ => .ok
  | .error e => e.status

end Error

end Tcam
