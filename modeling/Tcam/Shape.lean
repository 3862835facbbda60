import Tcam.Bits.Field

/-!
# Protocol shapes

A rule matches frames of one shape: IPv4 or IPv6 carrying TCP or UDP.  The shape
fixes the EtherType and the protocol number a frame must show, and with them
where every header field lies.
-/

namespace Tcam

/-- The network layer of a frame. -/
inductive Network where
  | ipv4
  | ipv6
  deriving DecidableEq, Repr

namespace Network

/-- The number that announces the network layer in the Ethernet header. -/
def etherType : Network → Word
  | ipv4 => 0x0800#16
  | ipv6 => 0x86dd#16

def text : Network → String
  | ipv4 => "IPV4"
  | ipv6 => "IPV6"

def ofEtherType? (t : Word) : Option Network :=
  if t = ipv4.etherType then some ipv4
  else if t = ipv6.etherType then some ipv6
  else none

end Network

/-- The transport layer of a frame. -/
inductive Transport where
  | tcp
  | udp
  deriving DecidableEq, Repr

namespace Transport

/-- The number that announces the transport layer in the network header. -/
def protocol : Transport → Octet
  | tcp => 6#8
  | udp => 17#8

def text : Transport → String
  | tcp => "TCP"
  | udp => "UDP"

def ofProtocol? (p : Octet) : Option Transport :=
  if p = tcp.protocol then some tcp
  else if p = udp.protocol then some udp
  else none

end Transport

/-- The protocol combination a rule matches on. -/
structure Shape where
  network : Network
  transport : Transport
  deriving DecidableEq, Repr

namespace Shape

def all : List Shape :=
  [⟨.ipv4, .tcp⟩, ⟨.ipv4, .udp⟩, ⟨.ipv6, .tcp⟩, ⟨.ipv6, .udp⟩]

def etherType (s : Shape) : Word :=
  s.network.etherType

def protocol (s : Shape) : Octet :=
  s.transport.protocol

/-- The shape announced by an EtherType and a protocol number. -/
def ofNumbers? (etherType : Word) (protocol : Octet) : Option Shape := do
  let network ← Network.ofEtherType? etherType
  let transport ← Transport.ofProtocol? protocol
  return ⟨network, transport⟩

/-- Headers of this shape can reach past the first frame window.  Only UDP over
IPv4 always ends inside it. -/
def reachesSecondWindow (s : Shape) : Bool :=
  s.network == .ipv6 || s.transport == .tcp

/-- The name of the shape, for instance `IPV4_TCP`. -/
def text (s : Shape) : String :=
  s.network.text ++ "_" ++ s.transport.text

end Shape

end Tcam
