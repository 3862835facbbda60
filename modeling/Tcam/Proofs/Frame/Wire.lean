import Tcam.Frame.Header
import Tcam.Proofs.Masked

/-!
# Frames as octets

A frame is a run of octets, and a header field is one number in network order or
some bits of one.  The definitions here give the position of every field by its
octet, with shifts and masks for the fields below an octet, and do not refer to
the layouts.  The `layout_reads` theorems say that the layouts describe the same
positions.
-/

namespace Tcam

/-- The octets of a frame that two windows see, in the order they are sent. -/
abbrev Frame := Vector Octet streamOctets

namespace Frame

/-- Octet `i` of the frame; behind the last octet there are zeros. -/
def octet (f : Frame) (i : Nat) : Octet :=
  f.getD i 0#8

/-- The `count` octets from octet `start` on as one number, the first octet most
significant. -/
def number (f : Frame) (start : Nat) : (count : Nat) → BitVec (8 * count)
  | 0 => 0#0
  | count + 1 => f.number start count ++ f.octet (start + count)

def ethernet (f : Frame) : EthernetHeader where
  destination := f.number 0 6
  source := f.number 6 6
  vlanTag := f.number 12 4

def ipv4 (f : Frame) : Ipv4Header where
  version := f.octet 18 >>> 4
  ihl := f.octet 18 &&& 0x0f#8
  tos := f.octet 19
  totalLength := f.number 20 2
  identification := f.number 22 2
  flags := f.octet 24 >>> 5
  fragmentOffset := f.number 24 2 &&& 0x1fff#16
  ttl := f.octet 26
  checksum := f.number 28 2
  source := f.number 30 4
  destination := f.number 34 4

def ipv6 (f : Frame) : Ipv6Header where
  version := f.octet 18 >>> 4
  trafficClass := (f.number 18 2 >>> 4).setWidth 8
  flowLabel := f.number 18 4 &&& 0xfffff#32
  payloadLength := f.number 22 2
  hopLimit := f.octet 25
  source := f.number 26 16
  destination := f.number 42 16

/-- The TCP header that starts at octet `start`. -/
def tcp (f : Frame) (start : Nat) : TcpHeader where
  sourcePort := f.number start 2
  destinationPort := f.number (start + 2) 2
  sequence := f.number (start + 4) 4
  acknowledgment := f.number (start + 8) 4
  dataOffset := f.octet (start + 12) >>> 4
  flags := f.number (start + 12) 2 &&& 0x0fff#16
  window := f.number (start + 14) 2
  checksum := f.number (start + 16) 2
  urgentPointer := f.number (start + 18) 2

/-- The UDP header that starts at octet `start`. -/
def udp (f : Frame) (start : Nat) : UdpHeader where
  sourcePort := f.number start 2
  destinationPort := f.number (start + 2) 2
  length := f.number (start + 4) 2
  checksum := f.number (start + 6) 2

/-- The octet with the protocol or next-header number. -/
def protocolOctet : Network → Nat
  | .ipv4 => 27
  | .ipv6 => 24

/-- The octet at which the transport header starts. -/
def transportOctet : Network → Nat
  | .ipv4 => 38
  | .ipv6 => 58

/-- The whole frame as one number, laid out like a stream. -/
def bits (f : Frame) : BitVec (8 * streamOctets) :=
  f.number 0 streamOctets

theorem getLsbD_number (f : Frame) (start count i : Nat) :
    (f.number start count).getLsbD i =
      (decide (i < 8 * count) && (f.octet (start + count - 1 - i / 8)).getLsbD (i % 8)) := by
  induction count generalizing i with
  | zero => simp
  | succ count ih =>
      show (f.number start count ++ f.octet (start + count) : BitVec (8 * count + 8)).getLsbD i = _
      rw [BitVec.getLsbD_append]
      -- The last octet fills the low eight bits, the others lie above it.
      by_cases hlast : i < 8
      · have hdiv : i / 8 = 0 := Nat.div_eq_of_lt hlast
        have hlt : i < 8 * (count + 1) := by omega
        simp [hlast, hdiv, hlt, Nat.mod_eq_of_lt hlast]
      · have hindex : start + count - 1 - (i - 8) / 8 = start + (count + 1) - 1 - i / 8 := by
          omega
        have hbit : (i - 8) % 8 = i % 8 := by omega
        have hlt : i - 8 < 8 * count ↔ i < 8 * (count + 1) := by omega
        rw [if_neg hlast, ih, hindex, hbit, decide_eq_decide.mpr hlt]

theorem number_one (f : Frame) (start : Nat) : f.number start 1 = f.octet start := by
  apply BitVec.eq_of_getLsbD_eq
  intro i hi
  have hlast : i < 8 := hi
  have hdiv : i / 8 = 0 := Nat.div_eq_of_lt hlast
  rw [getLsbD_number, hdiv, Nat.mod_eq_of_lt hlast, decide_eq_true hi]
  rfl

/-- A run of bits of the frame is a run of bits of the octets around it. -/
theorem get_span_bits {m : Nat} (f : Frame) (start count skip width : Nat)
    (hrun : skip + width ≤ 8 * count) (hin : start + count ≤ streamOctets) :
    ((FrameStream.span (8 * start + skip) width).get f.bits : BitVec m) =
      (⟨8 * count - skip - width, width⟩ : BitField).get (f.number start count) := by
  apply BitVec.eq_of_getLsbD_eq
  intro i hi
  simp only [BitField.getLsbD_get, bits, getLsbD_number, FrameStream.span]
  by_cases hw : i < width
  · have hwhole : 8 * streamOctets - (8 * start + skip) - width + i < 8 * streamOctets := by omega
    have hpart : 8 * count - skip - width + i < 8 * count := by omega
    -- Octets start at multiples of eight bits in the frame as in its part.
    have hoctet : 0 + streamOctets - 1 -
        (8 * streamOctets - (8 * start + skip) - width + i) / 8 =
          start + count - 1 - (8 * count - skip - width + i) / 8 := by
      omega
    have hbit : (8 * streamOctets - (8 * start + skip) - width + i) % 8 =
        (8 * count - skip - width + i) % 8 := by
      omega
    rw [hoctet, hbit, decide_eq_true hwhole, decide_eq_true hpart]
  · simp [hw]

/-- Whole octets are read as one number. -/
theorem get_span_number (f : Frame) (start count : Nat) (hin : start + count ≤ streamOctets) :
    ((FrameStream.span (8 * start) (8 * count)).get f.bits : BitVec (8 * count)) =
      f.number start count := by
  have hread := get_span_bits (m := 8 * count) f start count 0 (8 * count) (by omega) hin
  rw [Nat.add_zero] at hread
  rw [hread]
  simp [BitField.get]

/-- The first `width` bits of some octets are what a right shift leaves. -/
theorem get_span_high (f : Frame) (start count width : Nat) (hwidth : width ≤ 8 * count)
    (hin : start + count ≤ streamOctets) :
    ((FrameStream.span (8 * start) width).get f.bits : BitVec (8 * count)) =
      f.number start count >>> (8 * count - width) := by
  have hread := get_span_bits (m := 8 * count) f start count 0 width (by omega) hin
  rw [Nat.add_zero, Nat.sub_zero] at hread
  rw [hread]
  apply BitVec.eq_of_getLsbD_eq
  intro i hi
  rw [BitField.getLsbD_get, BitVec.getLsbD_ushiftRight, decide_eq_true hi, Bool.true_and]
  by_cases hw : i < width
  · rw [decide_eq_true hw, Bool.true_and]
  · have hbeyond : 8 * count ≤ 8 * count - width + i := by omega
    rw [BitVec.getLsbD_of_ge _ _ hbeyond, Bool.and_false]

/-- The bits of some octets behind the first `skip` are what a mask leaves. -/
theorem get_span_low (f : Frame) (start count skip : Nat) (hskip : skip ≤ 8 * count)
    (hin : start + count ≤ streamOctets) :
    ((FrameStream.span (8 * start + skip) (8 * count - skip)).get f.bits : BitVec (8 * count)) =
      f.number start count &&& (BitVec.allOnes (8 * count - skip)).setWidth (8 * count) := by
  rw [get_span_bits f start count skip (8 * count - skip) (by omega) hin]
  apply BitVec.eq_of_getLsbD_eq
  intro i hi
  have hstart : 8 * count - skip - (8 * count - skip) + i = i := by omega
  rw [BitField.getLsbD_get, BitVec.getLsbD_and, hstart, BitVec.getLsbD_setWidth,
    BitVec.getLsbD_allOnes, decide_eq_true hi, Bool.true_and, Bool.true_and, Bool.and_comm]

end Frame

theorem EthernetHeader.layout_reads (f : Frame) :
    ∀ c ∈ EthernetHeader.layout, c.place.get f.bits = c.get f.ethernet := by
  simp only [EthernetHeader.layout, List.forall_mem_cons]
  exact ⟨f.get_span_number 0 6 (by decide), f.get_span_number 6 6 (by decide),
    f.get_span_number 12 4 (by decide), List.forall_mem_nil _⟩

theorem Ipv4Header.layout_reads (f : Frame) :
    ∀ c ∈ Ipv4Header.layout, c.place.get f.bits = c.get f.ipv4 := by
  have hversion : ((FrameStream.span (8 * 18) 4).get f.bits : Octet) = f.octet 18 >>> 4 := by
    rw [← f.number_one]
    exact f.get_span_high 18 1 4 (by decide) (by decide)
  have hihl : ((FrameStream.span (8 * 18 + 4) 4).get f.bits : Octet) =
      f.octet 18 &&& 0x0f#8 := by
    rw [← f.number_one]
    exact f.get_span_low 18 1 4 (by decide) (by decide)
  have hflags : ((FrameStream.span (8 * 24) 3).get f.bits : Octet) = f.octet 24 >>> 5 := by
    rw [← f.number_one]
    exact f.get_span_high 24 1 3 (by decide) (by decide)
  have hoctet (i : Nat) (hi : i + 1 ≤ streamOctets) :
      ((FrameStream.span (8 * i) 8).get f.bits : Octet) = f.octet i := by
    rw [← f.number_one]
    exact f.get_span_number i 1 hi
  simp only [Ipv4Header.layout, List.forall_mem_cons]
  exact ⟨hversion, hihl, hoctet 19 (by decide), f.get_span_number 20 2 (by decide),
    f.get_span_number 22 2 (by decide), hflags, f.get_span_low 24 2 3 (by decide) (by decide),
    hoctet 26 (by decide), f.get_span_number 28 2 (by decide),
    f.get_span_number 30 4 (by decide), f.get_span_number 34 4 (by decide),
    List.forall_mem_nil _⟩

theorem Ipv6Header.layout_reads (f : Frame) :
    ∀ c ∈ Ipv6Header.layout, c.place.get f.bits = c.get f.ipv6 := by
  have hversion : ((FrameStream.span (8 * 18) 4).get f.bits : Octet) = f.octet 18 >>> 4 := by
    rw [← f.number_one]
    exact f.get_span_high 18 1 4 (by decide) (by decide)
  have hclass : ((FrameStream.span (8 * 18 + 4) 8).get f.bits : Octet) =
      (f.number 18 2 >>> 4).setWidth 8 := by
    rw [f.get_span_bits 18 2 4 8 (by decide) (by decide)]
    apply BitVec.eq_of_getLsbD_eq
    intro i hi
    simp only [BitField.getLsbD_get, BitVec.getLsbD_setWidth, BitVec.getLsbD_ushiftRight, hi,
      decide_true, Bool.true_and]
  have hlimit : ((FrameStream.span (8 * 25) 8).get f.bits : Octet) = f.octet 25 := by
    rw [← f.number_one]
    exact f.get_span_number 25 1 (by decide)
  simp only [Ipv6Header.layout, List.forall_mem_cons]
  exact ⟨hversion, hclass, f.get_span_low 18 4 12 (by decide) (by decide),
    f.get_span_number 22 2 (by decide), hlimit, f.get_span_number 26 16 (by decide),
    f.get_span_number 42 16 (by decide), List.forall_mem_nil _⟩

theorem TcpHeader.layout_reads (f : Frame) (n : Network) :
    ∀ c ∈ TcpHeader.layout n.transportStart,
      c.place.get f.bits = c.get (f.tcp (Frame.transportOctet n)) := by
  have hoffset (i : Nat) (hi : i + 1 ≤ streamOctets) :
      ((FrameStream.span (8 * i) 4).get f.bits : Octet) = f.octet i >>> 4 := by
    rw [← f.number_one]
    exact f.get_span_high i 1 4 (by decide) hi
  have hflags (i : Nat) (hi : i + 2 ≤ streamOctets) :
      ((FrameStream.span (8 * i + 4) 12).get f.bits : Word) = f.number i 2 &&& 0x0fff#16 :=
    f.get_span_low i 2 4 (by decide) hi
  simp only [TcpHeader.layout, List.forall_mem_cons]
  cases n with
  | ipv4 =>
      exact ⟨f.get_span_number 38 2 (by decide), f.get_span_number 40 2 (by decide),
        f.get_span_number 42 4 (by decide), f.get_span_number 46 4 (by decide),
        hoffset 50 (by decide), hflags 50 (by decide), f.get_span_number 52 2 (by decide),
        f.get_span_number 54 2 (by decide), f.get_span_number 56 2 (by decide),
        List.forall_mem_nil _⟩
  | ipv6 =>
      exact ⟨f.get_span_number 58 2 (by decide), f.get_span_number 60 2 (by decide),
        f.get_span_number 62 4 (by decide), f.get_span_number 66 4 (by decide),
        hoffset 70 (by decide), hflags 70 (by decide), f.get_span_number 72 2 (by decide),
        f.get_span_number 74 2 (by decide), f.get_span_number 76 2 (by decide),
        List.forall_mem_nil _⟩

theorem UdpHeader.layout_reads (f : Frame) (n : Network) :
    ∀ c ∈ UdpHeader.layout n.transportStart,
      c.place.get f.bits = c.get (f.udp (Frame.transportOctet n)) := by
  simp only [UdpHeader.layout, List.forall_mem_cons]
  cases n with
  | ipv4 =>
      exact ⟨f.get_span_number 38 2 (by decide), f.get_span_number 40 2 (by decide),
        f.get_span_number 42 2 (by decide), f.get_span_number 44 2 (by decide),
        List.forall_mem_nil _⟩
  | ipv6 =>
      exact ⟨f.get_span_number 58 2 (by decide), f.get_span_number 60 2 (by decide),
        f.get_span_number 62 2 (by decide), f.get_span_number 64 2 (by decide),
        List.forall_mem_nil _⟩

theorem etherTypeField_reads (f : Frame) : (etherTypeField.get f.bits : Word) = f.number 16 2 :=
  f.get_span_number 16 2 (by decide)

theorem Network.protocolField_reads (f : Frame) (n : Network) :
    (n.protocolField.get f.bits : Octet) = f.octet (Frame.protocolOctet n) := by
  rw [← f.number_one]
  cases n with
  | ipv4 => exact f.get_span_number 27 1 (by decide)
  | ipv6 => exact f.get_span_number 24 1 (by decide)

end Tcam
