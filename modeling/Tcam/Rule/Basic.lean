import Tcam.Frame.Header
import Tcam.PortVector

/-!
# Rules

A rule matches the key header that the switch adds to a frame, the Ethernet
header, and the network and transport headers of one shape.  Its action is
applied to the frames that match.
-/

namespace Tcam

/-- What the switch knows about a frame besides its octets.  The frame type has
two bits, the time key one, the source ports eleven, the priority three and the
VLAN id twelve. -/
structure KeyHeader where
  frameType : Octet
  timeKey : Octet
  sourcePorts : PortVector
  priority : Octet
  vlanId : Word
  deriving DecidableEq, Repr

instance : Inhabited KeyHeader where
  default := ⟨0#8, 0#8, default, 0#8, 0#16⟩

/-- The match on the key header, kept outside the frame window.  A port is
admitted by a zero mask bit. -/
abbrev KeyMatch := Masked KeyHeader

/-- The frame types that a key header distinguishes. -/
inductive FrameType where
  | normal
  | dsa
  | provider
  deriving DecidableEq, Repr

namespace FrameType

def bits : FrameType → Octet
  | normal => 0#8
  | dsa => 1#8
  | provider => 2#8

def ofBits? (bits : Octet) : Option FrameType :=
  [normal, dsa, provider].find? fun t => t.bits == bits

end FrameType

/-- How an action's destination ports combine with the forwarding decision. -/
inductive ForwardMode where
  | keep
  | intersect
  | union
  | replace
  deriving DecidableEq, Repr

namespace ForwardMode

def bits : ForwardMode → BitVec 2
  | keep => 0#2
  | intersect => 1#2
  | union => 2#2
  | replace => 3#2

/-- Every two-bit number is a mode. -/
def ofBits (bits : BitVec 2) : ForwardMode :=
  if bits = 0#2 then keep
  else if bits = 1#2 then intersect
  else if bits = 2#2 then union
  else replace

def text : ForwardMode → String
  | keep => "NOP"
  | intersect => "AND"
  | union => "OR"
  | replace => "REPLACE"

instance : Inhabited ForwardMode where
  default := keep

@[simp] theorem ofBits_bits (m : ForwardMode) : ofBits m.bits = m := by
  cases m <;> rfl

end ForwardMode

/-- What happens to a matching frame. -/
structure Action where
  interrupt : Bool
  incrementCounter : Bool
  vidOverride : Bool
  vid : Word
  queuePriorityOverride : Bool
  queuePriority : Octet
  framePriorityOverride : Bool
  framePriority : Octet
  forwardMode : ForwardMode
  destinationPorts : PortVector
  colorMode : Octet
  vtuPageOverride : Bool
  vtuPage : Bool
  unknownFilter : Octet
  egressActionPointer : Octet
  loadBalanceOverride : Bool
  loadBalance : Octet
  dscpOverride : Bool
  dscp : Octet
  frameActionOverride : Bool
  frameAction : Word
  counterBank : Octet
  flowMeterEnable : Bool
  flowMeterId : Octet
  streamFilterEnable : Bool
  streamFilterId : Octet
  deriving DecidableEq, Repr

namespace Action

instance : Inhabited Action where
  default := {
    interrupt := false, incrementCounter := false
    vidOverride := false, vid := 0#16
    queuePriorityOverride := false, queuePriority := 0#8
    framePriorityOverride := false, framePriority := 0#8
    forwardMode := default, destinationPorts := default
    colorMode := 0#8, vtuPageOverride := false, vtuPage := false
    unknownFilter := 0#8, egressActionPointer := 0#8
    loadBalanceOverride := false, loadBalance := 0#8
    dscpOverride := false, dscp := 0#8
    frameActionOverride := false, frameAction := 0#16
    counterBank := 0#8, flowMeterEnable := false, flowMeterId := 0#8
    streamFilterEnable := false, streamFilterId := 0#8 }

/-- Forwards matching frames to exactly the given ports. -/
def redirect (ports : PortVector) : Action :=
  { (default : Action) with forwardMode := .replace, destinationPorts := ports }

end Action

/-- The match on the network header. -/
inductive NetworkMatch where
  | ipv4 (header : Masked Ipv4Header)
  | ipv6 (header : Masked Ipv6Header)
  deriving DecidableEq, Repr

/-- The match on the transport header. -/
inductive TransportMatch where
  | tcp (header : Masked TcpHeader)
  | udp (header : Masked UdpHeader)
  deriving DecidableEq, Repr

/-- The match on the headers behind the EtherType. -/
structure Headers where
  network : NetworkMatch
  transport : TransportMatch
  deriving DecidableEq, Repr

def NetworkMatch.kind : NetworkMatch → Network
  | ipv4 _ => .ipv4
  | ipv6 _ => .ipv6

def TransportMatch.kind : TransportMatch → Transport
  | tcp _ => .tcp
  | udp _ => .udp

/-- The network match that compares nothing. -/
def NetworkMatch.wildcard : Network → NetworkMatch
  | .ipv4 => .ipv4 .any
  | .ipv6 => .ipv6 .any

/-- The transport match that compares nothing. -/
def TransportMatch.wildcard : Transport → TransportMatch
  | .tcp => .tcp .any
  | .udp => .udp .any

namespace Headers

def shape (h : Headers) : Shape :=
  ⟨h.network.kind, h.transport.kind⟩

/-- Headers of a shape that compare no field. -/
def wildcard (s : Shape) : Headers :=
  ⟨.wildcard s.network, .wildcard s.transport⟩

end Headers

/-- A classification rule. -/
structure Rule where
  key : KeyMatch
  ethernet : Masked EthernetHeader
  headers : Headers
  action : Action
  deriving DecidableEq, Repr

namespace Rule

def shape (r : Rule) : Shape :=
  r.headers.shape

/-- The rule that matches every frame of a shape and does nothing. -/
def wildcard (s : Shape) : Rule :=
  ⟨.any, .any, .wildcard s, default⟩

end Rule

end Tcam
