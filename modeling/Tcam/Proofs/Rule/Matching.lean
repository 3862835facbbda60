import Mathlib.Tactic.MkIffOfInductiveProp
import Tcam.Proofs.Frame.Octets
import Tcam.Proofs.Frame.Wire
import Tcam.Proofs.Rule.RoundTrip

/-!
# The frames that a placed rule accepts

A slot compares octets, a rule compares header fields.  `place_accepts_iff` says
that both accept the same frames: the windows of an accepted rule accept a frame
exactly when it announces the shape of the rule and every header field, at its
position on the wire, is accepted by the rule.

The windows compare the mask bits of the written stream only, and these lie
inside the places of the headers, the EtherType and the protocol number.  So the
comparison splits into one for each place.
-/

namespace Tcam

/-- Every octet of the window accepts the octet of the frame that it faces.  The
window faces the frame from octet `start` on. -/
def FrameWindow.AcceptsFrom (w : FrameWindow) (f : Frame) (start : Nat) : Prop :=
  ∀ i < windowOctets,
    (⟨w.valueOctet i, w.maskOctet i⟩ : Masked Octet).Accepts (f.octet (start + i))

/-- The first window accepts the frame, and so does the second if there is one. -/
def Placement.Accepts (p : Placement) (f : Frame) : Prop :=
  p.primary.window.AcceptsFrom f 0 ∧
    ∀ slot second, p.continuation = some (slot, second) →
      second.window.AcceptsFrom f windowOctets

@[mk_iff]
structure EthernetHeader.Matches (m : Masked EthernetHeader) (h : EthernetHeader) : Prop where
  destination : (m.map EthernetHeader.destination).Accepts h.destination
  source : (m.map EthernetHeader.source).Accepts h.source
  vlanTag : (m.map EthernetHeader.vlanTag).Accepts h.vlanTag

@[mk_iff]
structure Ipv4Header.Matches (m : Masked Ipv4Header) (h : Ipv4Header) : Prop where
  version : (m.map Ipv4Header.version).Accepts h.version
  ihl : (m.map Ipv4Header.ihl).Accepts h.ihl
  tos : (m.map Ipv4Header.tos).Accepts h.tos
  totalLength : (m.map Ipv4Header.totalLength).Accepts h.totalLength
  identification : (m.map Ipv4Header.identification).Accepts h.identification
  flags : (m.map Ipv4Header.flags).Accepts h.flags
  fragmentOffset : (m.map Ipv4Header.fragmentOffset).Accepts h.fragmentOffset
  ttl : (m.map Ipv4Header.ttl).Accepts h.ttl
  checksum : (m.map Ipv4Header.checksum).Accepts h.checksum
  source : (m.map Ipv4Header.source).Accepts h.source
  destination : (m.map Ipv4Header.destination).Accepts h.destination

@[mk_iff]
structure Ipv6Header.Matches (m : Masked Ipv6Header) (h : Ipv6Header) : Prop where
  version : (m.map Ipv6Header.version).Accepts h.version
  trafficClass : (m.map Ipv6Header.trafficClass).Accepts h.trafficClass
  flowLabel : (m.map Ipv6Header.flowLabel).Accepts h.flowLabel
  payloadLength : (m.map Ipv6Header.payloadLength).Accepts h.payloadLength
  hopLimit : (m.map Ipv6Header.hopLimit).Accepts h.hopLimit
  source : (m.map Ipv6Header.source).Accepts h.source
  destination : (m.map Ipv6Header.destination).Accepts h.destination

@[mk_iff]
structure TcpHeader.Matches (m : Masked TcpHeader) (h : TcpHeader) : Prop where
  sourcePort : (m.map TcpHeader.sourcePort).Accepts h.sourcePort
  destinationPort : (m.map TcpHeader.destinationPort).Accepts h.destinationPort
  sequence : (m.map TcpHeader.sequence).Accepts h.sequence
  acknowledgment : (m.map TcpHeader.acknowledgment).Accepts h.acknowledgment
  dataOffset : (m.map TcpHeader.dataOffset).Accepts h.dataOffset
  flags : (m.map TcpHeader.flags).Accepts h.flags
  window : (m.map TcpHeader.window).Accepts h.window
  checksum : (m.map TcpHeader.checksum).Accepts h.checksum
  urgentPointer : (m.map TcpHeader.urgentPointer).Accepts h.urgentPointer

@[mk_iff]
structure UdpHeader.Matches (m : Masked UdpHeader) (h : UdpHeader) : Prop where
  sourcePort : (m.map UdpHeader.sourcePort).Accepts h.sourcePort
  destinationPort : (m.map UdpHeader.destinationPort).Accepts h.destinationPort
  length : (m.map UdpHeader.length).Accepts h.length
  checksum : (m.map UdpHeader.checksum).Accepts h.checksum

/-- The network header of the frame is accepted. -/
def NetworkMatch.Matches : NetworkMatch → Frame → Prop
  | .ipv4 m, f => Ipv4Header.Matches m f.ipv4
  | .ipv6 m, f => Ipv6Header.Matches m f.ipv6

/-- The transport header that starts at octet `start` of the frame is accepted. -/
def TransportMatch.Matches (start : Nat) : TransportMatch → Frame → Prop
  | .tcp m, f => TcpHeader.Matches m (f.tcp start)
  | .udp m, f => UdpHeader.Matches m (f.udp start)

/-- The places of the header's fields. -/
def NetworkMatch.places : NetworkMatch → List BitField
  | .ipv4 _ => Ipv4Header.layout.map Cell.place
  | .ipv6 _ => Ipv6Header.layout.map Cell.place

/-- The places of the header's fields if it starts at bit `start`. -/
def TransportMatch.places (start : Nat) : TransportMatch → List BitField
  | .tcp _ => (TcpHeader.layout start).map Cell.place
  | .udp _ => (UdpHeader.layout start).map Cell.place

/-- The frame has the shape of the rule and every header field is accepted. -/
structure Rule.Matches (r : Rule) (f : Frame) : Prop where
  etherType : f.number 16 2 = r.shape.etherType
  protocol : f.octet (Frame.protocolOctet r.shape.network) = r.shape.protocol
  ethernet : EthernetHeader.Matches r.ethernet f.ethernet
  network : r.headers.network.Matches f
  transport : r.headers.transport.Matches (Frame.transportOctet r.shape.network) f

namespace FrameStream

variable {α : Type}

/-- Every mask bit of the stream lies in one of the fields. -/
def MaskWithin (s : FrameStream) (fields : List BitField) : Prop :=
  ∀ i, s.mask.getLsbD i = true → ∃ f ∈ fields, f.Contains i

theorem maskWithin_any : MaskWithin .any [] := by
  intro i hi
  rw [Masked.any_mask, BitVec.getLsbD_zero] at hi
  exact absurd hi Bool.false_ne_true

theorem MaskWithin.put {n : Nat} {s : FrameStream} {fields : List BitField}
    (h : s.MaskWithin fields) (f : BitField) (field : Masked (BitVec n)) :
    (s.put f field).MaskWithin (f :: fields) := by
  intro i hi
  by_cases hf : f.Contains i
  · exact ⟨f, List.mem_cons_self, hf⟩
  · rw [FrameStream.put, BitField.getLsbD_set_of_not_contains hf] at hi
    obtain ⟨g, hg, hcontains⟩ := h i hi
    exact ⟨g, List.mem_cons_of_mem f hg, hcontains⟩

theorem MaskWithin.putHeader {s : FrameStream} {fields : List BitField}
    (h : s.MaskWithin fields) (l : Layout α) (header : Masked α) :
    (s.putHeader l header).MaskWithin (l.map Cell.place ++ fields) := by
  intro i hi
  by_cases hplace : ∃ c ∈ l, c.place.Contains i
  · obtain ⟨c, hc, hcontains⟩ := hplace
    exact ⟨c.place, List.mem_append_left _ (List.mem_map_of_mem hc), hcontains⟩
  · have houtside : ∀ c ∈ l, ¬c.place.Contains i := fun c hc hcontains =>
      hplace ⟨c, hc, hcontains⟩
    rw [FrameStream.putHeader, Layout.getLsbD_pack_of_outside houtside] at hi
    obtain ⟨g, hg, hcontains⟩ := h i hi
    exact ⟨g, List.mem_append_right _ hg, hcontains⟩

theorem MaskWithin.withNetwork {s : FrameStream} {fields : List BitField}
    (h : s.MaskWithin fields) (m : NetworkMatch) (protocol : Octet) :
    (s.withNetwork m protocol).MaskWithin (m.kind.protocolField :: (m.places ++ fields)) := by
  cases m with
  | ipv4 header => exact (h.putHeader Ipv4Header.layout header).put _ _
  | ipv6 header => exact (h.putHeader Ipv6Header.layout header).put _ _

theorem MaskWithin.withTransport {s : FrameStream} {fields : List BitField}
    (h : s.MaskWithin fields) (m : TransportMatch) (start : Nat) :
    (s.withTransport m start).MaskWithin (m.places start ++ fields) := by
  cases m with
  | tcp header => exact h.putHeader (TcpHeader.layout start) header
  | udp header => exact h.putHeader (UdpHeader.layout start) header

/-- How wide the field is taken does not matter if it is taken in full. -/
theorem accepts_read_iff {n : Nat} {s : FrameStream} {x : BitVec (8 * streamOctets)}
    {g : BitField} (hn : g.width ≤ n) :
    (s.read g : Masked (BitVec g.width)).Accepts (g.get x) ↔
      (s.read g : Masked (BitVec n)).Accepts (g.get x) :=
  (Masked.accepts_field_iff (Nat.le_refl _)).trans (Masked.accepts_field_iff hn).symm

/-- A stream accepts a frame octet by octet. -/
theorem accepts_iff_forall_octets {s : FrameStream} {f : Frame} :
    s.Accepts f.bits ↔
      ∀ i < streamOctets, (s.read (span (8 * i) 8) : Masked Octet).Accepts (f.octet i) := by
  have hcover : s.MaskWithin ((List.range streamOctets).map fun i => span (8 * i) 8) := by
    intro i hi
    have hlt : i < 8 * streamOctets := BitVec.lt_of_getLsbD hi
    refine ⟨span (8 * (streamOctets - 1 - i / 8)) 8,
      List.mem_map.mpr ⟨streamOctets - 1 - i / 8, List.mem_range.mpr (by omega), rfl⟩, ?_⟩
    simp only [BitField.Contains, span, streamOctets] at hlt ⊢
    omega
  rw [Masked.accepts_iff_forall_fields hcover, List.forall_mem_map]
  refine forall_congr' fun i => ?_
  rw [List.mem_range]
  refine forall_congr' fun hi => ?_
  have hread : ((span (8 * i) 8).get f.bits : Octet) = f.octet i := by
    rw [← f.number_one]
    exact f.get_span_number i 1 hi
  exact Iff.of_eq (congrArg (Masked.Accepts _) hread)

/-- A stream accepts a frame exactly when both of its windows do. -/
theorem accepts_iff_windows {s : FrameStream} {f : Frame} :
    s.Accepts f.bits ↔
      s.firstWindow.AcceptsFrom f 0 ∧ s.secondWindow.AcceptsFrom f windowOctets := by
  rw [accepts_iff_forall_octets]
  constructor
  · intro hall
    constructor
    · intro i hi
      rw [octets_firstWindow s hi, Nat.zero_add]
      exact hall i (Nat.lt_of_lt_of_le hi (by decide))
    · intro i hi
      rw [octets_secondWindow s hi]
      exact hall (windowOctets + i) (Nat.add_lt_add_left hi windowOctets)
  · rintro ⟨hfirst, hsecond⟩ i hi
    by_cases hlow : i < windowOctets
    · have hoctet := hfirst i hlow
      rwa [octets_firstWindow s hlow, Nat.zero_add] at hoctet
    · obtain ⟨k, rfl⟩ := Nat.exists_eq_add_of_le (Nat.le_of_not_lt hlow)
      have hk : k < windowOctets := Nat.lt_of_add_lt_add_left hi
      have hoctet := hsecond k hk
      rwa [octets_secondWindow s hk] at hoctet

/-- A window without mask bits accepts everything. -/
theorem acceptsFrom_any (f : Frame) (start : Nat) :
    FrameWindow.AcceptsFrom .any f start := by
  intro i _
  rw [Masked.accepts_iff]
  intro j hj
  simp [FrameWindow.maskOctet] at hj

/-- Where a header shows, the stream accepts its places exactly when the header
accepts the numbers found there. -/
theorem accepts_places_iff {l : Layout α} (hsize : ∀ c ∈ l, c.place.width ≤ c.size)
    {s : FrameStream} {m : Masked α} (hshow : s.Shows l m) {h : α}
    {x : BitVec (8 * streamOctets)} (hread : ∀ c ∈ l, c.place.get x = c.get h) :
    (∀ f ∈ l.map Cell.place, (s.read f : Masked (BitVec f.width)).Accepts (f.get x)) ↔
      ∀ c ∈ l, (m.map c.get).Accepts (c.get h) := by
  rw [List.forall_mem_map]
  refine forall₂_congr fun c hc => ?_
  rw [accepts_read_iff (hsize c hc), hshow c hc, hread c hc]
  rfl

theorem accepts_ethernet_iff {s : FrameStream} {m : Masked EthernetHeader}
    (hshow : s.Shows EthernetHeader.layout m) (f : Frame) :
    (∀ g ∈ EthernetHeader.layout.map Cell.place,
        (s.read g : Masked (BitVec g.width)).Accepts (g.get f.bits)) ↔
      EthernetHeader.Matches m f.ethernet := by
  rw [accepts_places_iff (by decide) hshow (EthernetHeader.layout_reads f),
    EthernetHeader.matches_iff]
  simp only [EthernetHeader.layout, List.forall_mem_cons, List.not_mem_nil, false_imp_iff,
    implies_true, and_true]

theorem accepts_network_iff {s : FrameStream} {m : NetworkMatch} (hshow : s.ShowsNetwork m)
    (f : Frame) :
    (∀ g ∈ m.places, (s.read g : Masked (BitVec g.width)).Accepts (g.get f.bits)) ↔
      m.Matches f := by
  cases m with
  | ipv4 header =>
      rw [NetworkMatch.Matches, Ipv4Header.matches_iff, NetworkMatch.places,
        accepts_places_iff (by decide) hshow (Ipv4Header.layout_reads f)]
      simp only [Ipv4Header.layout, List.forall_mem_cons, List.not_mem_nil, false_imp_iff,
        implies_true, and_true]
  | ipv6 header =>
      rw [NetworkMatch.Matches, Ipv6Header.matches_iff, NetworkMatch.places,
        accepts_places_iff (by decide) hshow (Ipv6Header.layout_reads f)]
      simp only [Ipv6Header.layout, List.forall_mem_cons, List.not_mem_nil, false_imp_iff,
        implies_true, and_true]

theorem accepts_transport_iff {s : FrameStream} {m : TransportMatch} {n : Network}
    (hshow : s.ShowsTransport n.transportStart m) (f : Frame) :
    (∀ g ∈ m.places n.transportStart,
        (s.read g : Masked (BitVec g.width)).Accepts (g.get f.bits)) ↔
      m.Matches (Frame.transportOctet n) f := by
  cases m with
  | tcp header =>
      have hsize : ∀ c ∈ TcpHeader.layout n.transportStart, c.place.width ≤ c.size := by
        cases n <;> decide
      rw [TransportMatch.Matches, TcpHeader.matches_iff, TransportMatch.places,
        accepts_places_iff hsize hshow (TcpHeader.layout_reads f n)]
      simp only [TcpHeader.layout, List.forall_mem_cons, List.not_mem_nil, false_imp_iff,
        implies_true, and_true]
  | udp header =>
      have hsize : ∀ c ∈ UdpHeader.layout n.transportStart, c.place.width ≤ c.size := by
        cases n <;> decide
      rw [TransportMatch.Matches, UdpHeader.matches_iff, TransportMatch.places,
        accepts_places_iff hsize hshow (UdpHeader.layout_reads f n)]
      simp only [UdpHeader.layout, List.forall_mem_cons, List.not_mem_nil, false_imp_iff,
        implies_true, and_true]

end FrameStream

namespace Rule

open FrameStream

/-- The written stream accepts a frame exactly when the rule matches it. -/
theorem written_accepts_iff {r : Rule} (hfit : r.headers.Fits) (f : Frame) :
    r.written.Accepts f.bits ↔ r.Matches f := by
  have hshow : r.written.ShowsAll r.ethernet r.headers :=
    withHeaders_showsAll hfit r.ethernet .any
  -- The stream compares nothing outside of the places of its headers.
  have hwithin : r.written.MaskWithin
      (r.headers.transport.places r.headers.network.kind.transportStart ++
        r.headers.network.kind.protocolField :: (r.headers.network.places ++
          etherTypeField :: (EthernetHeader.layout.map Cell.place ++ []))) :=
    (((maskWithin_any.putHeader EthernetHeader.layout r.ethernet).put etherTypeField _).withNetwork
      r.headers.network _).withTransport r.headers.transport _
  have hfields := Masked.accepts_iff_forall_fields (x := f.bits) hwithin
  simp only [List.forall_mem_append, List.forall_mem_cons, List.not_mem_nil, false_imp_iff,
    implies_true, and_true] at hfields
  have htype : (r.written.read etherTypeField : Masked (BitVec etherTypeField.width)).Accepts
      (etherTypeField.get f.bits) ↔ f.number 16 2 = r.shape.etherType := by
    rw [accepts_read_iff (n := 16) (by decide), hshow.etherType, Masked.accepts_exact_iff,
      etherTypeField_reads]
    rfl
  have hprotocol : (r.written.read r.headers.network.kind.protocolField :
      Masked (BitVec r.headers.network.kind.protocolField.width)).Accepts
        (r.headers.network.kind.protocolField.get f.bits) ↔
          f.octet (Frame.protocolOctet r.shape.network) = r.shape.protocol := by
    have hwidth : r.headers.network.kind.protocolField.width ≤ 8 := by
      cases r.headers.network.kind <;> decide
    rw [accepts_read_iff (n := 8) hwidth, hshow.protocol, Masked.accepts_exact_iff,
      Network.protocolField_reads]
    rfl
  refine hfields.trans ?_
  constructor
  · rintro ⟨htransport, hproto, hnetwork, hether, hethernet⟩
    exact {
      etherType := htype.mp hether
      protocol := hprotocol.mp hproto
      ethernet := (accepts_ethernet_iff hshow.ethernet f).mp hethernet
      network := (accepts_network_iff hshow.network f).mp hnetwork
      transport := (accepts_transport_iff hshow.transport f).mp htransport }
  · intro hmatch
    exact ⟨(accepts_transport_iff hshow.transport f).mpr hmatch.transport,
      hprotocol.mpr hmatch.protocol, (accepts_network_iff hshow.network f).mpr hmatch.network,
      htype.mpr hmatch.etherType, (accepts_ethernet_iff hshow.ethernet f).mpr hmatch.ethernet⟩

theorem accepts_linkedPlacement {r : Rule} {slot2 : SlotIndex} {f : Frame} :
    (r.linkedPlacement slot2).Accepts f ↔
      r.written.firstWindow.AcceptsFrom f 0 ∧
        r.written.secondWindow.AcceptsFrom f windowOctets := by
  constructor
  · rintro ⟨hfirst, hsecond⟩
    have hwindow := hsecond _ _ rfl
    exact ⟨hfirst, hwindow⟩
  · rintro ⟨hfirst, hwindow⟩
    refine ⟨hfirst, fun slot second hcontinuation => ?_⟩
    obtain ⟨-, rfl⟩ := Prod.mk.inj (Option.some.inj hcontinuation)
    exact hwindow

theorem accepts_singlePlacement {r : Rule} {f : Frame} :
    r.singlePlacement.Accepts f ↔ r.written.firstWindow.AcceptsFrom f 0 := by
  unfold Placement.Accepts singlePlacement
  simp only [reduceCtorEq, false_imp_iff, implies_true, and_true]

/-- The windows of an accepted rule accept exactly the frames that the rule
matches.  A rule of one slot is decided by its first window alone. -/
theorem place_accepts_iff {r : Rule} {slot2 : SlotIndex} {p : Placement}
    (h : r.place slot2 = .ok p) (f : Frame) : p.Accepts f ↔ r.Matches f := by
  obtain ⟨-, -, hfit, hplaced⟩ := place_eq_ok_iff.mp h
  rw [← written_accepts_iff hfit, accepts_iff_windows]
  rcases hplaced with ⟨-, -, hp⟩ | ⟨hzero, hp⟩
  · rw [hp, accepts_linkedPlacement]
  · -- The second window is not stored, but it compares nothing.
    have hrest : r.written.secondWindow.AcceptsFrom f windowOctets := by
      rw [hzero]
      exact acceptsFrom_any f windowOctets
    rw [hp, accepts_singlePlacement, and_iff_left hrest]

theorem place_accepts_iff_twoSlotSample :
    twoSlotSample.place 17#16 = .ok (twoSlotSample.linkedPlacement 17#16) ∧
      ∀ f, (twoSlotSample.linkedPlacement 17#16).Accepts f ↔ twoSlotSample.Matches f :=
  ⟨place_twoSlotSample, place_accepts_iff place_twoSlotSample⟩

end Rule

end Tcam
