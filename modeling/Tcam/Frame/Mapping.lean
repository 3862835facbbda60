import Tcam.Rule.Basic
import Tcam.Widths

/-!
# Headers in the stream

Writing the headers of a rule into a stream, and reading them back.  Each
header is checked before any of its fields is written: a transport header that
does not fit leaves the network header written.  The writer therefore returns
the stream as far as it got together with the outcome.
-/

namespace Tcam

namespace FrameStream

/-- Writes the Ethernet header and the EtherType of the shape. -/
def putEthernet (s : FrameStream) (h : Masked EthernetHeader) (shape : Shape) : FrameStream :=
  (s.putHeader EthernetHeader.layout h).put etherTypeField (.exact shape.etherType)

def readEthernet (s : FrameStream) : Masked EthernetHeader :=
  s.readHeader EthernetHeader.layout

/-- Writes a header if all of it fits. -/
def putChecked {α : Type} (layout : Layout α) (h : Masked α) : EStateM Error FrameStream Unit :=
  fun s =>
    match layout.checkMasked h with
    | .ok () => .ok () (s.putHeader layout h)
    | .error e => .error e s

/-- Writes the network header and the protocol number. -/
def putNetwork (h : NetworkMatch) (protocol : Octet) : EStateM Error FrameStream Unit := do
  match h with
  | .ipv4 header => putChecked Ipv4Header.layout header
  | .ipv6 header => putChecked Ipv6Header.layout header
  modify fun s => s.put h.kind.protocolField (.exact protocol)

/-- Writes the transport header that starts at bit `start`. -/
def putTransport (h : TransportMatch) (start : Nat) : EStateM Error FrameStream Unit :=
  match h with
  | .tcp header => putChecked (TcpHeader.layout start) header
  | .udp header => putChecked (UdpHeader.layout start) header

/-- Writes network and transport header. -/
def putHeaders (h : Headers) : EStateM Error FrameStream Unit := do
  putNetwork h.network h.shape.protocol
  putTransport h.transport h.network.kind.transportStart

def readNetwork (s : FrameStream) : Network → NetworkMatch
  | .ipv4 => .ipv4 (s.readHeader Ipv4Header.layout)
  | .ipv6 => .ipv6 (s.readHeader Ipv6Header.layout)

def readTransport (s : FrameStream) (start : Nat) : Transport → TransportMatch
  | .tcp => .tcp (s.readHeader (TcpHeader.layout start))
  | .udp => .udp (s.readHeader (UdpHeader.layout start))

/-- Reads the headers of a shape. -/
def readHeaders (s : FrameStream) (shape : Shape) : Headers :=
  ⟨s.readNetwork shape.network, s.readTransport shape.network.transportStart shape.transport⟩

/-- The protocol number at the place where the network layer keeps it, or zero
if the EtherType names no network layer. -/
def protocolNumber (s : FrameStream) : Octet :=
  match Network.ofEtherType? (etherTypeField.get s.value) with
  | some network => network.protocolField.get s.value
  | none => 0#8

/-- The shape that the values of the stream announce. -/
def shape (s : FrameStream) : Except Error Shape :=
  let etherType : Word := etherTypeField.get s.value
  match Shape.ofNumbers? etherType s.protocolNumber with
  | some shape => .ok shape
  | none => .error (.invalidArgument (.noShapeMatch etherType s.protocolNumber))

end FrameStream

end Tcam
