import Tcam.Frame.Window
import Tcam.Shape

/-!
# Frame headers and where their fields lie

The headers a rule can match, as records of plain numbers, and the layout of
each header in the stream.  A frame starts with both addresses and a VLAN tag;
the EtherType follows at octet 16 and the network header at octet 18.  Places are given
in bits from the start of the header, in the order of transmission.  EtherType
and protocol number are no fields of a header here: the shape fixes them.
-/

namespace Tcam

/-- The fields in front of the EtherType. -/
structure EthernetHeader where
  destination : BitVec 48
  source : BitVec 48
  vlanTag : BitVec 32
  deriving DecidableEq, Repr

/-- The fields of an IPv4 header without options, except the protocol. -/
structure Ipv4Header where
  version : Octet
  ihl : Octet
  tos : Octet
  totalLength : Word
  identification : Word
  flags : Octet
  fragmentOffset : Word
  ttl : Octet
  checksum : Word
  source : BitVec 32
  destination : BitVec 32
  deriving DecidableEq, Repr

/-- The fields of an IPv6 header, except the next-header number. -/
structure Ipv6Header where
  version : Octet
  trafficClass : Octet
  flowLabel : BitVec 32
  payloadLength : Word
  hopLimit : Octet
  source : BitVec 128
  destination : BitVec 128
  deriving DecidableEq, Repr

/-- The fields of a TCP header without options. -/
structure TcpHeader where
  sourcePort : Word
  destinationPort : Word
  sequence : BitVec 32
  acknowledgment : BitVec 32
  dataOffset : Octet
  flags : Word
  window : Word
  checksum : Word
  urgentPointer : Word
  deriving DecidableEq, Repr

/-- The fields of a UDP header. -/
structure UdpHeader where
  sourcePort : Word
  destinationPort : Word
  length : Word
  checksum : Word
  deriving DecidableEq, Repr

instance : Inhabited EthernetHeader where
  default := ⟨0#48, 0#48, 0#32⟩

instance : Inhabited Ipv4Header where
  default := ⟨0#8, 0#8, 0#8, 0#16, 0#16, 0#8, 0#16, 0#8, 0#16, 0#32, 0#32⟩

instance : Inhabited Ipv6Header where
  default := ⟨0#8, 0#8, 0#32, 0#16, 0#8, 0#128, 0#128⟩

instance : Inhabited TcpHeader where
  default := ⟨0#16, 0#16, 0#32, 0#32, 0#8, 0#16, 0#16, 0#16, 0#16⟩

instance : Inhabited UdpHeader where
  default := ⟨0#16, 0#16, 0#16, 0#16⟩

open FrameStream (span)

/-- The bit at which the network header starts. -/
def networkStart : Nat := 8 * 18

/-- The octets of the network header. -/
def Network.headerOctets : Network → Nat
  | .ipv4 => 20
  | .ipv6 => 40

/-- The bit at which the transport header starts. -/
def Network.transportStart (n : Network) : Nat :=
  networkStart + 8 * n.headerOctets

/-- The octets of the transport header. -/
def Transport.headerOctets : Transport → Nat
  | .tcp => 20
  | .udp => 8

/-- The number of octets up to the end of the transport header. -/
def Shape.headerEnd (s : Shape) : Nat :=
  18 + s.network.headerOctets + s.transport.headerOctets

/-- Where the EtherType lies. -/
def etherTypeField : BitField := span 128 16

/-- Where the network header announces the transport layer. -/
def Network.protocolField : Network → BitField
  | .ipv4 => span (networkStart + 72) 8
  | .ipv6 => span (networkStart + 48) 8

def EthernetHeader.layout : Layout EthernetHeader :=
  [⟨"destination", span 0 48, 48, fun h => h.destination, fun v h => { h with destination := v }⟩,
   ⟨"source", span 48 48, 48, fun h => h.source, fun v h => { h with source := v }⟩,
   ⟨"VLAN tag", span 96 32, 32, fun h => h.vlanTag, fun v h => { h with vlanTag := v }⟩]

def Ipv4Header.layout : Layout Ipv4Header :=
  [⟨"IPv4 version", span networkStart 4, 8,
      fun h => h.version, fun v h => { h with version := v }⟩,
   ⟨"IPv4 IHL", span (networkStart + 4) 4, 8,
      fun h => h.ihl, fun v h => { h with ihl := v }⟩,
   ⟨"IPv4 TOS", span (networkStart + 8) 8, 8,
      fun h => h.tos, fun v h => { h with tos := v }⟩,
   ⟨"IPv4 total length", span (networkStart + 16) 16, 16,
      fun h => h.totalLength, fun v h => { h with totalLength := v }⟩,
   ⟨"IPv4 identification", span (networkStart + 32) 16, 16,
      fun h => h.identification, fun v h => { h with identification := v }⟩,
   ⟨"IPv4 flags", span (networkStart + 48) 3, 8,
      fun h => h.flags, fun v h => { h with flags := v }⟩,
   ⟨"IPv4 fragment offset", span (networkStart + 51) 13, 16,
      fun h => h.fragmentOffset, fun v h => { h with fragmentOffset := v }⟩,
   ⟨"IPv4 TTL", span (networkStart + 64) 8, 8,
      fun h => h.ttl, fun v h => { h with ttl := v }⟩,
   ⟨"IPv4 checksum", span (networkStart + 80) 16, 16,
      fun h => h.checksum, fun v h => { h with checksum := v }⟩,
   ⟨"IPv4 source", span (networkStart + 96) 32, 32,
      fun h => h.source, fun v h => { h with source := v }⟩,
   ⟨"IPv4 destination", span (networkStart + 128) 32, 32,
      fun h => h.destination, fun v h => { h with destination := v }⟩]

def Ipv6Header.layout : Layout Ipv6Header :=
  [⟨"IPv6 version", span networkStart 4, 8,
      fun h => h.version, fun v h => { h with version := v }⟩,
   ⟨"IPv6 traffic class", span (networkStart + 4) 8, 8,
      fun h => h.trafficClass, fun v h => { h with trafficClass := v }⟩,
   ⟨"IPv6 flow label", span (networkStart + 12) 20, 32,
      fun h => h.flowLabel, fun v h => { h with flowLabel := v }⟩,
   ⟨"IPv6 payload length", span (networkStart + 32) 16, 16,
      fun h => h.payloadLength, fun v h => { h with payloadLength := v }⟩,
   ⟨"IPv6 hop limit", span (networkStart + 56) 8, 8,
      fun h => h.hopLimit, fun v h => { h with hopLimit := v }⟩,
   ⟨"IPv6 source", span (networkStart + 64) 128, 128,
      fun h => h.source, fun v h => { h with source := v }⟩,
   ⟨"IPv6 destination", span (networkStart + 192) 128, 128,
      fun h => h.destination, fun v h => { h with destination := v }⟩]

/-- The TCP header that starts at bit `start`. -/
def TcpHeader.layout (start : Nat) : Layout TcpHeader :=
  [⟨"TCP source port", span start 16, 16,
      fun h => h.sourcePort, fun v h => { h with sourcePort := v }⟩,
   ⟨"TCP destination port", span (start + 16) 16, 16,
      fun h => h.destinationPort, fun v h => { h with destinationPort := v }⟩,
   ⟨"TCP sequence", span (start + 32) 32, 32,
      fun h => h.sequence, fun v h => { h with sequence := v }⟩,
   ⟨"TCP acknowledgment", span (start + 64) 32, 32,
      fun h => h.acknowledgment, fun v h => { h with acknowledgment := v }⟩,
   ⟨"TCP data offset", span (start + 96) 4, 8,
      fun h => h.dataOffset, fun v h => { h with dataOffset := v }⟩,
   ⟨"TCP flags", span (start + 100) 12, 16,
      fun h => h.flags, fun v h => { h with flags := v }⟩,
   ⟨"TCP window", span (start + 112) 16, 16,
      fun h => h.window, fun v h => { h with window := v }⟩,
   ⟨"TCP checksum", span (start + 128) 16, 16,
      fun h => h.checksum, fun v h => { h with checksum := v }⟩,
   ⟨"TCP urgent pointer", span (start + 144) 16, 16,
      fun h => h.urgentPointer, fun v h => { h with urgentPointer := v }⟩]

/-- The UDP header that starts at bit `start`. -/
def UdpHeader.layout (start : Nat) : Layout UdpHeader :=
  [⟨"UDP source port", span start 16, 16,
      fun h => h.sourcePort, fun v h => { h with sourcePort := v }⟩,
   ⟨"UDP destination port", span (start + 16) 16, 16,
      fun h => h.destinationPort, fun v h => { h with destinationPort := v }⟩,
   ⟨"UDP length", span (start + 32) 16, 16,
      fun h => h.length, fun v h => { h with length := v }⟩,
   ⟨"UDP checksum", span (start + 48) 16, 16,
      fun h => h.checksum, fun v h => { h with checksum := v }⟩]

end Tcam
