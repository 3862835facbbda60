import Tcam.Frame.Mapping
import Tcam.Proofs.Frame.Stream

/-!
# What header mapping leaves in a stream

Headers that fit are written in full (`putHeaders_eq_ok_iff`).  Their places are
apart from each other, from the EtherType and from the protocol number, so a
stream with the Ethernet header and the headers of a shape gives back all of
them, together with the shape, from whatever stream the writing started.  Bits
outside the places of the shape are those of that stream.
-/

namespace Tcam

theorem EthernetHeader.layout_separate :
    EthernetHeader.layout.Separate (8 * streamOctets) := by decide

theorem EthernetHeader.layout_covers : EthernetHeader.layout.Covers := fun _ _ => rfl

theorem Ipv4Header.layout_separate : Ipv4Header.layout.Separate (8 * streamOctets) := by decide

theorem Ipv4Header.layout_covers : Ipv4Header.layout.Covers := fun _ _ => rfl

theorem Ipv6Header.layout_separate : Ipv6Header.layout.Separate (8 * streamOctets) := by decide

theorem Ipv6Header.layout_covers : Ipv6Header.layout.Covers := fun _ _ => rfl

theorem TcpHeader.layout_separate (n : Network) :
    (TcpHeader.layout n.transportStart).Separate (8 * streamOctets) := by
  cases n <;> decide

theorem TcpHeader.layout_covers (start : Nat) : (TcpHeader.layout start).Covers := fun _ _ => rfl

theorem UdpHeader.layout_separate (n : Network) :
    (UdpHeader.layout n.transportStart).Separate (8 * streamOctets) := by
  cases n <;> decide

theorem UdpHeader.layout_covers (start : Nat) : (UdpHeader.layout start).Covers := fun _ _ => rfl

/-- Every Ethernet number has the width of its place. -/
theorem EthernetHeader.layout_holds (h : Masked EthernetHeader) :
    EthernetHeader.layout.Holds h := by
  have hfits : ∀ (a : EthernetHeader), ∀ c ∈ EthernetHeader.layout, c.fits a = true := by
    intro a c hc
    have hwidth : c.size ≤ c.place.width := by
      revert c
      decide
    exact (c.place.fits_iff _).mpr fun i hi => BitVec.getLsbD_of_ge _ i (by omega)
  exact ⟨hfits h.value, hfits h.mask⟩

/-- Every number of the header fits its place in the stream. -/
def NetworkMatch.Fits : NetworkMatch → Prop
  | .ipv4 h => Ipv4Header.layout.Holds h
  | .ipv6 h => Ipv6Header.layout.Holds h

/-- Every number of the header, which starts at bit `start`, fits its place. -/
def TransportMatch.Fits (start : Nat) : TransportMatch → Prop
  | .tcp h => (TcpHeader.layout start).Holds h
  | .udp h => (UdpHeader.layout start).Holds h

/-- Network and transport header both fit. -/
def Headers.Fits (h : Headers) : Prop :=
  h.network.Fits ∧ h.transport.Fits h.network.kind.transportStart

instance (h : NetworkMatch) : Decidable h.Fits :=
  match h with
  | .ipv4 h => inferInstanceAs (Decidable (Ipv4Header.layout.Holds h))
  | .ipv6 h => inferInstanceAs (Decidable (Ipv6Header.layout.Holds h))

instance (start : Nat) (h : TransportMatch) : Decidable (h.Fits start) :=
  match h with
  | .tcp h => inferInstanceAs (Decidable ((TcpHeader.layout start).Holds h))
  | .udp h => inferInstanceAs (Decidable ((UdpHeader.layout start).Holds h))

instance (h : Headers) : Decidable h.Fits :=
  inferInstanceAs (Decidable (_ ∧ _))

namespace FrameStream

/-- The stream with a network header and the protocol number written to it. -/
def withNetwork (s : FrameStream) (h : NetworkMatch) (protocol : Octet) : FrameStream :=
  match h with
  | .ipv4 header =>
    (s.putHeader Ipv4Header.layout header).put Network.ipv4.protocolField (.exact protocol)
  | .ipv6 header =>
    (s.putHeader Ipv6Header.layout header).put Network.ipv6.protocolField (.exact protocol)

/-- The stream with a transport header written to it from bit `start` on. -/
def withTransport (s : FrameStream) (h : TransportMatch) (start : Nat) : FrameStream :=
  match h with
  | .tcp header => s.putHeader (TcpHeader.layout start) header
  | .udp header => s.putHeader (UdpHeader.layout start) header

/-- The stream with both headers written to it. -/
def withHeaders (s : FrameStream) (h : Headers) : FrameStream :=
  (s.withNetwork h.network h.shape.protocol).withTransport h.transport
    h.network.kind.transportStart

theorem putChecked_eq {α : Type} (l : Layout α) (h : Masked α) (s : FrameStream) :
    (putChecked l h s = .ok () (s.putHeader l h) ∧ l.Holds h) ∨
      ∃ e, putChecked l h s = .error e s ∧ ¬l.Holds h := by
  unfold putChecked
  rw [← Layout.checkMasked_eq_ok_iff]
  cases l.checkMasked h with
  | ok u => exact .inl ⟨rfl, rfl⟩
  | error e => exact .inr ⟨e, rfl, by simp⟩

/-- What follows the header is written if the header fits. -/
theorem putChecked_modify_eq_ok_iff {α : Type} {l : Layout α} {h : Masked α}
    {f : FrameStream → FrameStream} {s t : FrameStream} :
    (putChecked l h >>= fun _ => modify f) s = .ok () t ↔ l.Holds h ∧ t = f (s.putHeader l h) := by
  change EStateM.bind (putChecked l h) (fun _ => modify f) s = _ ↔ _
  unfold EStateM.bind
  rcases putChecked_eq l h s with ⟨hrun, hfit⟩ | ⟨e, hrun, hfit⟩
  · rw [hrun, and_iff_right hfit]
    constructor
    · rintro ⟨⟩
      rfl
    · rintro rfl
      rfl
  · rw [hrun]
    exact iff_of_false (fun hok => by cases hok) fun hall => hfit hall.1

theorem putNetwork_eq_ok_iff {h : NetworkMatch} {protocol : Octet} {s t : FrameStream} :
    putNetwork h protocol s = .ok () t ↔ h.Fits ∧ t = s.withNetwork h protocol := by
  cases h with
  | ipv4 header => exact putChecked_modify_eq_ok_iff
  | ipv6 header => exact putChecked_modify_eq_ok_iff

theorem putTransport_eq_ok_iff {h : TransportMatch} {start : Nat} {s t : FrameStream} :
    putTransport h start s = .ok () t ↔ h.Fits start ∧ t = s.withTransport h start := by
  cases h with
  | tcp header =>
      rcases putChecked_eq (TcpHeader.layout start) header s with ⟨hrun, hfit⟩ | ⟨e, hrun, hfit⟩
      · simp [putTransport, hrun, TransportMatch.Fits, hfit, withTransport, eq_comm]
      · simp [putTransport, hrun, TransportMatch.Fits, hfit]
  | udp header =>
      rcases putChecked_eq (UdpHeader.layout start) header s with ⟨hrun, hfit⟩ | ⟨e, hrun, hfit⟩
      · simp [putTransport, hrun, TransportMatch.Fits, hfit, withTransport, eq_comm]
      · simp [putTransport, hrun, TransportMatch.Fits, hfit]

/-- Headers are written in full exactly when all of their numbers fit. -/
theorem putHeaders_eq_ok_iff {h : Headers} {s t : FrameStream} :
    putHeaders h s = .ok () t ↔ h.Fits ∧ t = s.withHeaders h := by
  unfold putHeaders
  cases hnet : putNetwork h.network h.shape.protocol s with
  | ok u s' =>
      obtain ⟨hfit, rfl⟩ := putNetwork_eq_ok_iff.mp hnet
      simp only [bind, EStateM.bind, hnet, putTransport_eq_ok_iff, Headers.Fits, hfit, true_and]
      rfl
  | error e s' =>
      have hfit : ¬h.network.Fits := by
        intro hfit
        rw [putNetwork_eq_ok_iff.mpr ⟨hfit, rfl⟩] at hnet
        exact absurd hnet (by simp)
      simp [bind, EStateM.bind, hnet, Headers.Fits, hfit]

/-! ## Refusals -/

theorem putChecked_eq_error {α : Type} {l : Layout α} {h : Masked α} {s t : FrameStream}
    {e : Error} (herror : putChecked l h s = .error e t) : e.IsRefusal ∧ t = s := by
  unfold putChecked at herror
  cases hcheck : l.checkMasked h with
  | ok u =>
      rw [hcheck] at herror
      exact nomatch herror
  | error e' =>
      rw [hcheck] at herror
      obtain ⟨rfl, rfl⟩ := EStateM.Result.error.inj herror
      exact ⟨Layout.isRefusal_of_checkMasked hcheck, rfl⟩

/-- A network header that is refused is not written. -/
theorem putNetwork_eq_error {h : NetworkMatch} {protocol : Octet} {s t : FrameStream}
    {e : Error} (herror : putNetwork h protocol s = .error e t) : e.IsRefusal ∧ t = s := by
  -- Only the check of the header can fail; the protocol number always fits.
  have hchecked {α : Type} {l : Layout α} {header : Masked α} {f : FrameStream → FrameStream}
      (herror : (putChecked l header >>= fun _ => modify f) s = .error e t) :
      e.IsRefusal ∧ t = s := by
    rcases of_bind_eq_error herror with hput | ⟨_, _, -, hmodify⟩
    · exact putChecked_eq_error hput
    · cases hmodify
  cases h with
  | ipv4 header => exact hchecked herror
  | ipv6 header => exact hchecked herror

theorem putTransport_eq_error {h : TransportMatch} {start : Nat} {s t : FrameStream}
    {e : Error} (herror : putTransport h start s = .error e t) : e.IsRefusal ∧ t = s := by
  cases h with
  | tcp header => exact putChecked_eq_error herror
  | udp header => exact putChecked_eq_error herror

/-- Of headers that are refused at most the network header is written. -/
theorem putHeaders_eq_error {h : Headers} {s t : FrameStream} {e : Error}
    (herror : putHeaders h s = .error e t) :
    e.IsRefusal ∧ (t = s ∨ t = s.withNetwork h.network h.shape.protocol) := by
  rcases of_bind_eq_error herror with hnetwork | ⟨_, s', hnetwork, htransport⟩
  · obtain ⟨he, ht⟩ := putNetwork_eq_error hnetwork
    exact ⟨he, Or.inl ht⟩
  · obtain ⟨-, rfl⟩ := putNetwork_eq_ok_iff.mp hnetwork
    obtain ⟨he, ht⟩ := putTransport_eq_error htransport
    exact ⟨he, Or.inr ht⟩

/-! ## What shows -/

/-- The network header shows in the stream. -/
def ShowsNetwork (s : FrameStream) : NetworkMatch → Prop
  | .ipv4 h => s.Shows Ipv4Header.layout h
  | .ipv6 h => s.Shows Ipv6Header.layout h

/-- The transport header, which starts at bit `start`, shows in the stream. -/
def ShowsTransport (s : FrameStream) (start : Nat) : TransportMatch → Prop
  | .tcp h => s.Shows (TcpHeader.layout start) h
  | .udp h => s.Shows (UdpHeader.layout start) h

/-- The stream shows all that the headers of a rule say. -/
structure ShowsAll (s : FrameStream) (ethernet : Masked EthernetHeader) (h : Headers) : Prop where
  ethernet : s.Shows EthernetHeader.layout ethernet
  etherType : (s.read etherTypeField : Masked Word) = .exact h.shape.etherType
  network : s.ShowsNetwork h.network
  protocol : (s.read h.network.kind.protocolField : Masked Octet) = .exact h.shape.protocol
  transport : s.ShowsTransport h.network.kind.transportStart h.transport

theorem showsNetwork_withNetwork {h : NetworkMatch} (hfit : h.Fits) (s : FrameStream)
    (protocol : Octet) : (s.withNetwork h protocol).ShowsNetwork h := by
  cases h with
  | ipv4 header => exact (shows_putHeader Ipv4Header.layout_separate hfit s).put (by decide) _
  | ipv6 header => exact (shows_putHeader Ipv6Header.layout_separate hfit s).put (by decide) _

theorem read_withNetwork_protocol (s : FrameStream) (h : NetworkMatch) (protocol : Octet) :
    ((s.withNetwork h protocol).read h.kind.protocolField : Masked Octet) = .exact protocol := by
  cases h with
  | ipv4 header => exact read_put_self (by decide) (by decide) _ _
  | ipv6 header => exact read_put_self (by decide) (by decide) _ _

/-- Writing the network header leaves what lies in front of it. -/
theorem read_withNetwork_of_endsBefore {n : Nat} {f : BitField} (hf : EndsBefore f networkStart)
    (s : FrameStream) (h : NetworkMatch) (protocol : Octet) :
    ((s.withNetwork h protocol).read f : Masked (BitVec n)) = s.read f := by
  have hprotocol (k : Network) : f.Disjoint k.protocolField := by
    have hplace : StartsFrom k.protocolField networkStart := by
      cases k <;> decide
    exact disjoint_of_endsBefore hf hplace
  cases h with
  | ipv4 header =>
      have hplaces : ∀ c ∈ Ipv4Header.layout, StartsFrom c.place networkStart := by decide
      rw [withNetwork, read_put_of_disjoint (hprotocol .ipv4),
        read_putHeader_of_avoids (avoids_of_endsBefore hplaces hf)]
  | ipv6 header =>
      have hplaces : ∀ c ∈ Ipv6Header.layout, StartsFrom c.place networkStart := by decide
      rw [withNetwork, read_put_of_disjoint (hprotocol .ipv6),
        read_putHeader_of_avoids (avoids_of_endsBefore hplaces hf)]

theorem showsTransport_withTransport {h : TransportMatch} {n : Network}
    (hfit : h.Fits n.transportStart) (s : FrameStream) :
    (s.withTransport h n.transportStart).ShowsTransport n.transportStart h := by
  cases h with
  | tcp header => exact shows_putHeader (TcpHeader.layout_separate n) hfit s
  | udp header => exact shows_putHeader (UdpHeader.layout_separate n) hfit s

/-- Writing the transport header leaves what lies in front of it. -/
theorem read_withTransport_of_endsBefore {m : Nat} {f : BitField} {n : Network}
    (hf : EndsBefore f n.transportStart) (s : FrameStream) (h : TransportMatch) :
    ((s.withTransport h n.transportStart).read f : Masked (BitVec m)) = s.read f := by
  cases h with
  | tcp header =>
      have hplaces : ∀ c ∈ TcpHeader.layout n.transportStart,
          StartsFrom c.place n.transportStart := by
        cases n <;> decide
      exact read_putHeader_of_avoids (avoids_of_endsBefore hplaces hf) s header
  | udp header =>
      have hplaces : ∀ c ∈ UdpHeader.layout n.transportStart,
          StartsFrom c.place n.transportStart := by
        cases n <;> decide
      exact read_putHeader_of_avoids (avoids_of_endsBefore hplaces hf) s header

theorem ShowsNetwork.withTransport {s : FrameStream} {h : NetworkMatch}
    (hshow : s.ShowsNetwork h) (transport : TransportMatch) :
    (s.withTransport transport h.kind.transportStart).ShowsNetwork h := by
  cases h with
  | ipv4 header =>
      have hends : ∀ c ∈ Ipv4Header.layout, EndsBefore c.place Network.ipv4.transportStart := by
        decide
      exact hshow.of_read_eq fun c hc => read_withTransport_of_endsBefore (hends c hc) s transport
  | ipv6 header =>
      have hends : ∀ c ∈ Ipv6Header.layout, EndsBefore c.place Network.ipv6.transportStart := by
        decide
      exact hshow.of_read_eq fun c hc => read_withTransport_of_endsBefore (hends c hc) s transport

/-- Headers that fit show in full, whatever the stream held before. -/
theorem withHeaders_showsAll {h : Headers} (hfit : h.Fits) (ethernet : Masked EthernetHeader)
    (s : FrameStream) :
    ((s.putEthernet ethernet h.shape).withHeaders h).ShowsAll ethernet h := by
  have hfront (f : BitField) (hf : EndsBefore f networkStart) :
      EndsBefore f h.network.kind.transportStart :=
    hf.mono (Nat.le_add_right _ _)
  have hheth : ∀ c ∈ EthernetHeader.layout, EndsBefore c.place networkStart := by decide
  have htype : EndsBefore etherTypeField networkStart := by decide
  have hprot : EndsBefore h.network.kind.protocolField h.network.kind.transportStart := by
    cases h.network.kind <;> decide
  -- Each part shows once it is written, and later parts lie behind it.
  refine {
    ethernet := ?_
    etherType := ?_
    network := (showsNetwork_withNetwork hfit.1 _ _).withTransport h.transport
    protocol := ?_
    transport := showsTransport_withTransport hfit.2 _ }
  · have hwritten := shows_putHeader EthernetHeader.layout_separate
      (EthernetHeader.layout_holds ethernet) s
    have hput := hwritten.put (f := etherTypeField) (by decide) (.exact h.shape.etherType)
    refine hput.of_read_eq fun c hc => ?_
    rw [withHeaders, read_withTransport_of_endsBefore (hfront _ (hheth c hc)),
      read_withNetwork_of_endsBefore (hheth c hc)]
    rfl
  · rw [withHeaders, read_withTransport_of_endsBefore (hfront _ htype),
      read_withNetwork_of_endsBefore htype]
    exact read_put_self (by decide) (by decide) _ _
  · rw [withHeaders, read_withTransport_of_endsBefore hprot]
    exact read_withNetwork_protocol _ _ _

theorem read_putEthernet_of_startsFrom {n : Nat} {f : BitField}
    (hf : StartsFrom f networkStart) (s : FrameStream) (h : Masked EthernetHeader)
    (shape : Shape) : ((s.putEthernet h shape).read f : Masked (BitVec n)) = s.read f := by
  have hplaces : ∀ c ∈ EthernetHeader.layout, EndsBefore c.place networkStart := by decide
  have htype : EndsBefore etherTypeField networkStart := by decide
  rw [putEthernet, read_put_of_disjoint
      (BitField.disjoint_comm (disjoint_of_endsBefore htype hf)),
    read_putHeader_of_avoids (avoids_of_startsFrom hplaces hf)]

/-- Writing the network header leaves what lies behind it. -/
theorem read_withNetwork_of_startsFrom {n : Nat} {f : BitField} {h : NetworkMatch}
    (hf : StartsFrom f h.kind.transportStart) (s : FrameStream) (protocol : Octet) :
    ((s.withNetwork h protocol).read f : Masked (BitVec n)) = s.read f := by
  have hprotocol (k : Network) (hk : StartsFrom f k.transportStart) :
      f.Disjoint k.protocolField := by
    have hplace : EndsBefore k.protocolField k.transportStart := by
      cases k <;> decide
    exact BitField.disjoint_comm (disjoint_of_endsBefore hplace hk)
  cases h with
  | ipv4 header =>
      have hplaces : ∀ c ∈ Ipv4Header.layout,
          EndsBefore c.place Network.ipv4.transportStart := by decide
      rw [withNetwork, read_put_of_disjoint (hprotocol .ipv4 hf),
        read_putHeader_of_avoids (avoids_of_startsFrom hplaces hf)]
  | ipv6 header =>
      have hplaces : ∀ c ∈ Ipv6Header.layout,
          EndsBefore c.place Network.ipv6.transportStart := by decide
      rw [withNetwork, read_put_of_disjoint (hprotocol .ipv6 hf),
        read_putHeader_of_avoids (avoids_of_startsFrom hplaces hf)]

/-- Writing the transport header leaves what lies behind it. -/
theorem read_withTransport_of_startsFrom {m : Nat} {f : BitField} {n : Network}
    {h : TransportMatch} (hf : StartsFrom f (n.transportStart + 8 * h.kind.headerOctets))
    (s : FrameStream) :
    ((s.withTransport h n.transportStart).read f : Masked (BitVec m)) = s.read f := by
  cases h with
  | tcp header =>
      have hplaces : ∀ c ∈ TcpHeader.layout n.transportStart,
          EndsBefore c.place (n.transportStart + 8 * Transport.tcp.headerOctets) := by
        cases n <;> decide
      exact read_putHeader_of_avoids (avoids_of_startsFrom hplaces hf) s header
  | udp header =>
      have hplaces : ∀ c ∈ UdpHeader.layout n.transportStart,
          EndsBefore c.place (n.transportStart + 8 * Transport.udp.headerOctets) := by
        cases n <;> decide
      exact read_putHeader_of_avoids (avoids_of_startsFrom hplaces hf) s header

/-- What lies behind the headers of the shape is left alone. -/
theorem read_withHeaders_of_startsFrom {n : Nat} {f : BitField} {h : Headers}
    (hf : StartsFrom f (8 * h.shape.headerEnd)) (ethernet : Masked EthernetHeader)
    (s : FrameStream) :
    (((s.putEthernet ethernet h.shape).withHeaders h).read f : Masked (BitVec n)) =
      s.read f := by
  have hend : 8 * h.shape.headerEnd =
      h.network.kind.transportStart + 8 * h.transport.kind.headerOctets := by
    simp only [Shape.headerEnd, Headers.shape, Network.transportStart, networkStart]
    omega
  rw [hend] at hf
  have htransport : StartsFrom f h.network.kind.transportStart :=
    hf.mono (Nat.le_add_right _ _)
  rw [withHeaders, read_withTransport_of_startsFrom hf,
    read_withNetwork_of_startsFrom htransport,
    read_putEthernet_of_startsFrom (htransport.mono (Nat.le_add_right _ _))]

/-- The Ethernet header is read back. -/
theorem ShowsAll.readEthernet_eq {s : FrameStream} {ethernet : Masked EthernetHeader}
    {h : Headers} (hshow : s.ShowsAll ethernet h) : s.readEthernet = ethernet :=
  hshow.ethernet.readHeader_eq EthernetHeader.layout_covers

/-- The stream announces the shape of the headers. -/
theorem ShowsAll.shape_eq {s : FrameStream} {ethernet : Masked EthernetHeader}
    {h : Headers} (hshow : s.ShowsAll ethernet h) : s.shape = .ok h.shape := by
  have htype : (etherTypeField.get s.value : Word) = h.shape.etherType :=
    congrArg Masked.value hshow.etherType
  have hprotocol : (h.network.kind.protocolField.get s.value : Octet) = h.shape.protocol :=
    congrArg Masked.value hshow.protocol
  have hnetwork (n : Network) : Network.ofEtherType? n.etherType = some n := by
    cases n <;> rfl
  have htransport (k : Transport) : Transport.ofProtocol? k.protocol = some k := by
    cases k <;> rfl
  have hnumber : s.protocolNumber = h.shape.protocol := by
    rw [protocolNumber, htype, Shape.etherType, hnetwork]
    exact hprotocol
  have hshape : Shape.ofNumbers? h.shape.etherType h.shape.protocol = some h.shape := by
    simp only [Shape.ofNumbers?, Shape.etherType, Shape.protocol, hnetwork, htransport]
    rfl
  simp only [shape, htype, hnumber, hshape]

/-- Both headers are read back. -/
theorem ShowsAll.readHeaders_eq {s : FrameStream} {ethernet : Masked EthernetHeader}
    {h : Headers} (hshow : s.ShowsAll ethernet h) : s.readHeaders h.shape = h := by
  obtain ⟨network, transport⟩ := h
  have hnetwork : s.readNetwork network.kind = network := by
    have hn := hshow.network
    cases network with
    | ipv4 header => exact congrArg NetworkMatch.ipv4 (hn.readHeader_eq Ipv4Header.layout_covers)
    | ipv6 header => exact congrArg NetworkMatch.ipv6 (hn.readHeader_eq Ipv6Header.layout_covers)
  have htransport : s.readTransport network.kind.transportStart transport.kind = transport := by
    have ht := hshow.transport
    cases transport with
    | tcp header =>
        exact congrArg TransportMatch.tcp (ht.readHeader_eq (TcpHeader.layout_covers _))
    | udp header =>
        exact congrArg TransportMatch.udp (ht.readHeader_eq (UdpHeader.layout_covers _))
  simp only [readHeaders, Headers.shape, hnetwork, htransport]

end FrameStream

end Tcam
