import Mathlib.Algebra.Group.Nat.Defs
import Tcam.Proofs.Frame.Coverage
import Tcam.Proofs.Rule.Fit

/-!
# Which rules are accepted

Acceptance in terms of the numbers of a rule, without reference to the layouts.  A
rule is accepted if its numbers are small enough for their fields and if the
fields behind the first window, the *tail* of its headers, are compared in a slot
that can be addressed, or else are zero (`place_accepts_exactly`).  Two
fields are cut by the boundary between the windows: the acknowledgment number of
TCP over IPv4 and the IPv6 destination.
-/

namespace Tcam

/-! ## Widths -/

theorem BitField.fits_iff_toNat_lt {m : Nat} (f : BitField) (v : BitVec m) :
    f.fits v = true ↔ v.toNat < 2 ^ f.width := by
  rw [BitField.fits, beq_iff_eq, ← BitVec.toNat_inj, BitVec.toNat_ushiftRight,
    Nat.shiftRight_eq_div_pow, BitVec.toNat_ofNat, Nat.zero_mod]
  exact Nat.div_eq_zero_iff_lt (Nat.two_pow_pos f.width)

/-- Value and mask both have the property. -/
def Masked.Both {α : Type} (p : α → Prop) (m : Masked α) : Prop :=
  p m.value ∧ p m.mask

/-- Every number of the key header is small enough for its register field. -/
structure KeyHeader.InWidth (k : KeyHeader) : Prop where
  frameType : k.frameType.toNat < 2 ^ 2
  timeKey : k.timeKey.toNat < 2 ^ 1
  sourcePorts : k.sourcePorts.bits.toNat < 2 ^ 11
  priority : k.priority.toNat < 2 ^ 3
  vlanId : k.vlanId.toNat < 2 ^ 12

/-- Every number of the action is small enough for its register field.  Flags, the
forward mode and the stream filter fill theirs. -/
structure Action.InWidth (a : Action) : Prop where
  vid : a.vid.toNat < 2 ^ 12
  queuePriority : a.queuePriority.toNat < 2 ^ 3
  framePriority : a.framePriority.toNat < 2 ^ 3
  destinationPorts : a.destinationPorts.bits.toNat < 2 ^ 11
  colorMode : a.colorMode.toNat < 2 ^ 2
  unknownFilter : a.unknownFilter.toNat < 2 ^ 2
  egressActionPointer : a.egressActionPointer.toNat < 2 ^ 6
  loadBalance : a.loadBalance.toNat < 2 ^ 3
  dscp : a.dscp.toNat < 2 ^ 6
  frameAction : a.frameAction.toNat < 2 ^ 15
  counterBank : a.counterBank.toNat < 2 ^ 2
  flowMeterId : a.flowMeterId.toNat < 2 ^ 6

structure Ipv4Header.InWidth (h : Ipv4Header) : Prop where
  version : h.version.toNat < 2 ^ 4
  ihl : h.ihl.toNat < 2 ^ 4
  flags : h.flags.toNat < 2 ^ 3
  fragmentOffset : h.fragmentOffset.toNat < 2 ^ 13

structure Ipv6Header.InWidth (h : Ipv6Header) : Prop where
  version : h.version.toNat < 2 ^ 4
  flowLabel : h.flowLabel.toNat < 2 ^ 20

structure TcpHeader.InWidth (h : TcpHeader) : Prop where
  dataOffset : h.dataOffset.toNat < 2 ^ 4
  flags : h.flags.toNat < 2 ^ 12

/-- The numbers of the header are small enough for the bits they have in a frame.
All numbers of a UDP header fill theirs. -/
def Headers.InWidth (h : Headers) : Prop :=
  (match h.network with
    | .ipv4 header => header.Both Ipv4Header.InWidth
    | .ipv6 header => header.Both Ipv6Header.InWidth) ∧
  (match h.transport with
    | .tcp header => header.Both TcpHeader.InWidth
    | .udp _ => True)

/-- The numbers of the rule are small enough for their fields. -/
structure Rule.InWidth (r : Rule) : Prop where
  key : r.key.Both KeyHeader.InWidth
  action : r.action.InWidth
  headers : r.headers.InWidth

theorem KeyMatch.check_eq_ok_iff_inWidth {k : KeyMatch} :
    k.check = .ok () ↔ k.Both KeyHeader.InWidth := by
  rw [KeyMatch.check, Layout.check_eq_ok_iff]
  simp only [KeyMatch.layout, Cell.fits, BitField.fits_iff_toNat_lt, Registers.field,
    List.forall_mem_cons, List.not_mem_nil, false_imp_iff, implies_true, and_true]
  constructor
  · rintro ⟨htype, htype', htime, htime', hports, hports', hpriority, hpriority', hid, hid'⟩
    exact ⟨⟨htype, htime, hports, hpriority, hid⟩, ⟨htype', htime', hports', hpriority', hid'⟩⟩
  · rintro ⟨hvalue, hmask⟩
    exact ⟨hvalue.frameType, hmask.frameType, hvalue.timeKey, hmask.timeKey, hvalue.sourcePorts,
      hmask.sourcePorts, hvalue.priority, hmask.priority, hvalue.vlanId, hmask.vlanId⟩

theorem Action.check_eq_ok_iff_inWidth {a : Action} : a.check = .ok () ↔ a.InWidth := by
  have hflag (b : Bool) : (BitVec.ofBool b).toNat < 2 ^ 1 := (BitVec.ofBool b).isLt
  have hmode : a.forwardMode.bits.toNat < 2 ^ 2 := a.forwardMode.bits.isLt
  have hfilter : a.streamFilterId.toNat < 2 ^ 8 := a.streamFilterId.isLt
  rw [Action.check, Layout.check_eq_ok_iff]
  simp only [Action.layout, Cell.fits, Cell.flag, BitField.fits_iff_toNat_lt, Registers.field,
    List.forall_mem_cons, List.not_mem_nil, false_imp_iff, implies_true, and_true, true_and, hflag,
    hmode, hfilter]
  constructor
  · rintro ⟨hvid, hqueue, hframe, hports, hcolor, hfilter, hpointer, hbalance, hdscp, haction,
      hcounter, hmeter⟩
    exact ⟨hvid, hqueue, hframe, hports, hcolor, hfilter, hpointer, hbalance, hdscp, haction,
      hcounter, hmeter⟩
  · intro h
    exact ⟨h.vid, h.queuePriority, h.framePriority, h.destinationPorts, h.colorMode,
      h.unknownFilter, h.egressActionPointer, h.loadBalance, h.dscp, h.frameAction, h.counterBank,
      h.flowMeterId⟩

theorem Layout.holds_iff_both {α : Type} {l : Layout α} {p : α → Prop}
    (hp : ∀ a, (∀ c ∈ l, c.fits a = true) ↔ p a) (m : Masked α) : l.Holds m ↔ m.Both p := by
  constructor
  · intro h
    exact ⟨(hp _).mp h.value, (hp _).mp h.mask⟩
  · rintro ⟨hvalue, hmask⟩
    exact ⟨(hp _).mpr hvalue, (hp _).mpr hmask⟩

theorem Ipv4Header.fits_iff_inWidth (h : Ipv4Header) :
    (∀ c ∈ layout, c.fits h = true) ↔ h.InWidth := by
  have hoctet (v : Octet) : v.toNat < 2 ^ 8 := v.isLt
  have hword (v : Word) : v.toNat < 2 ^ 16 := v.isLt
  have haddress (v : BitVec 32) : v.toNat < 2 ^ 32 := v.isLt
  simp only [layout, Cell.fits, BitField.fits_iff_toNat_lt, FrameStream.span,
    List.forall_mem_cons, List.not_mem_nil, false_imp_iff, implies_true, and_true, true_and, hoctet,
    hword, haddress]
  constructor
  · rintro ⟨hversion, hihl, hflags, hoffset⟩
    exact ⟨hversion, hihl, hflags, hoffset⟩
  · intro h
    exact ⟨h.version, h.ihl, h.flags, h.fragmentOffset⟩

theorem Ipv6Header.fits_iff_inWidth (h : Ipv6Header) :
    (∀ c ∈ layout, c.fits h = true) ↔ h.InWidth := by
  have hoctet (v : Octet) : v.toNat < 2 ^ 8 := v.isLt
  have hword (v : Word) : v.toNat < 2 ^ 16 := v.isLt
  have haddress (v : BitVec 128) : v.toNat < 2 ^ 128 := v.isLt
  simp only [layout, Cell.fits, BitField.fits_iff_toNat_lt, FrameStream.span,
    List.forall_mem_cons, List.not_mem_nil, false_imp_iff, implies_true, and_true, true_and, hoctet,
    hword, haddress]
  constructor
  · rintro ⟨hversion, hlabel⟩
    exact ⟨hversion, hlabel⟩
  · intro h
    exact ⟨h.version, h.flowLabel⟩

theorem TcpHeader.fits_iff_inWidth (start : Nat) (h : TcpHeader) :
    (∀ c ∈ layout start, c.fits h = true) ↔ h.InWidth := by
  have hword (v : Word) : v.toNat < 2 ^ 16 := v.isLt
  have hnumber (v : BitVec 32) : v.toNat < 2 ^ 32 := v.isLt
  simp only [layout, Cell.fits, BitField.fits_iff_toNat_lt, FrameStream.span,
    List.forall_mem_cons, List.not_mem_nil, false_imp_iff, implies_true, and_true, true_and, hword,
    hnumber]
  constructor
  · rintro ⟨hoffset, hflags⟩
    exact ⟨hoffset, hflags⟩
  · intro h
    exact ⟨h.dataOffset, h.flags⟩

theorem UdpHeader.holds_layout (start : Nat) (m : Masked UdpHeader) : (layout start).Holds m := by
  have hfits (h : UdpHeader) : ∀ c ∈ layout start, c.fits h = true := by
    have hword (v : Word) : v.toNat < 2 ^ 16 := v.isLt
    simp only [layout, Cell.fits, BitField.fits_iff_toNat_lt, FrameStream.span,
      List.forall_mem_cons, List.not_mem_nil, false_imp_iff, implies_true, and_true, hword]
  exact ⟨hfits m.value, hfits m.mask⟩

theorem Headers.fits_iff_inWidth {h : Headers} : h.Fits ↔ h.InWidth := by
  obtain ⟨network, transport⟩ := h
  refine and_congr ?_ ?_
  · cases network with
    | ipv4 header => exact Layout.holds_iff_both Ipv4Header.fits_iff_inWidth header
    | ipv6 header => exact Layout.holds_iff_both Ipv6Header.fits_iff_inWidth header
  · cases transport with
    | tcp header => exact Layout.holds_iff_both (TcpHeader.fits_iff_inWidth _) header
    | udp header => exact iff_true_intro (UdpHeader.holds_layout _ header)

/-! ## The tail -/

/-- A field of some width. -/
abbrev AnyField := (n : Nat) × Masked (BitVec n)

/-- One field of a masked header. -/
def Masked.field {α : Type} {n : Nat} (m : Masked α) (get : α → BitVec n) : AnyField :=
  ⟨n, m.map get⟩

def TransportMatch.fields : TransportMatch → List AnyField
  | .tcp h =>
    [h.field fun t => t.sourcePort, h.field fun t => t.destinationPort, h.field fun t => t.sequence,
      h.field fun t => t.acknowledgment, h.field fun t => t.dataOffset, h.field fun t => t.flags,
      h.field fun t => t.window, h.field fun t => t.checksum, h.field fun t => t.urgentPointer]
  | .udp h =>
    [h.field fun u => u.sourcePort, h.field fun u => u.destinationPort, h.field fun u => u.length,
      h.field fun u => u.checksum]

namespace Headers

/-- The fields behind the forty-eight octets of the first window.  Of a field that is
cut the low bits count. -/
def tail : Headers → List AnyField
  | ⟨.ipv4 _, .tcp h⟩ =>
    [h.field fun t => t.acknowledgment.setWidth 16, h.field fun t => t.dataOffset,
      h.field fun t => t.flags, h.field fun t => t.window, h.field fun t => t.checksum,
      h.field fun t => t.urgentPointer]
  | ⟨.ipv4 _, .udp _⟩ => []
  | ⟨.ipv6 h, transport⟩ => (h.field fun n => n.destination.setWidth 80) :: transport.fields

/-- Some bit of the tail is compared. -/
def ComparesTail (h : Headers) : Prop :=
  ∃ f ∈ h.tail, f.2.mask ≠ 0#f.1

/-- Every value of the tail is zero. -/
def TailIsZero (h : Headers) : Prop :=
  ∀ f ∈ h.tail, f.2.value = 0#f.1

instance (h : Headers) : Decidable h.ComparesTail :=
  inferInstanceAs (Decidable (∃ f ∈ h.tail, _))

instance (h : Headers) : Decidable h.TailIsZero :=
  inferInstanceAs (Decidable (∀ f ∈ h.tail, _))

/-- Where the fields of the tail lie. -/
def tailPlaces : Headers → List BitField
  | ⟨.ipv4 _, .tcp _⟩ =>
    FrameStream.span (8 * windowOctets) 16 ::
      ((TcpHeader.layout Network.ipv4.transportStart).drop 4).map Cell.place
  | ⟨.ipv4 _, .udp _⟩ => []
  | ⟨.ipv6 _, transport⟩ =>
    FrameStream.span (8 * windowOctets) 80 :: transport.places Network.ipv6.transportStart

/-- The tail fills the second window down to the end of the headers. -/
theorem tiles_tailPlaces (h : Headers) :
    BitField.Tiles h.tailPlaces (min h.shape.lowestBit (8 * windowOctets)) (8 * windowOctets) := by
  have hshape (s : Shape) : BitField.Tiles (wildcard s).tailPlaces
      (min s.lowestBit (8 * windowOctets)) (8 * windowOctets) := by
    obtain ⟨network, transport⟩ := s
    cases network <;> cases transport <;> decide
  have hplaces : h.tailPlaces = (wildcard h.shape).tailPlaces := by
    obtain ⟨network, transport⟩ := h
    cases network <;> cases transport <;> rfl
  exact hplaces ▸ hshape h.shape

end Headers

namespace BitField

variable {n m : Nat} {fields : List BitField} {low high : Nat}

theorem Tiles.inside (h : Tiles fields low high) {f : BitField} (hf : f ∈ fields) :
    f.offset + f.width ≤ high := by
  induction fields generalizing high with
  | nil => exact absurd hf List.not_mem_nil
  | cons g rest ih =>
      obtain ⟨hend, hrest⟩ := h
      rcases List.mem_cons.mp hf with rfl | hmem
      · exact Nat.le_of_eq hend
      · have hinside := ih hrest hmem
        omega

/-- A run of bits is zero exactly when the fields that fill it are, if they do not
fill what is zero anyway. -/
theorem Tiles.get_eq_zero_iff (h : Tiles fields low high) {w : BitVec n}
    (hlow : ∀ i < low, w.getLsbD i = false) :
    ((⟨0, high⟩ : BitField).get w : BitVec high) = 0#(high) ↔
      ∀ f ∈ fields, ∀ i, f.Contains i → w.getLsbD i = false := by
  rw [BitField.get_eq_zero_iff (Nat.le_refl high)]
  constructor
  · intro hzero f hf i hi
    have hinside := h.inside hf
    have hhigh : i < 0 + high := by
      have hend : i < f.offset + f.width := hi.2
      omega
    exact hzero i ⟨Nat.zero_le i, hhigh⟩
  · rintro hfields i ⟨-, hhigh⟩
    by_cases hi : i < low
    · exact hlow i hi
    · obtain ⟨f, hf, hcontains⟩ :=
        h.exists_contains (Nat.le_of_not_lt hi) (by simpa using hhigh)
      exact hfields f hf i hcontains

end BitField

namespace FrameStream

variable {s : FrameStream} {h : Headers} {ethernet : Masked EthernetHeader}

/-- The place holds value and mask of the field. -/
def Holds (s : FrameStream) (place : BitField) (f : AnyField) : Prop :=
  place.width ≤ f.1 ∧ s.read place = f.2

theorem Shows.holds {α : Type} {l : Layout α} {m : Masked α} (hs : s.Shows l m)
    (hsize : ∀ c ∈ l, c.place.width ≤ c.size) :
    List.Forall₂ s.Holds (l.map Cell.place) (l.map fun c => m.field c.get) := by
  induction l with
  | nil => exact .nil
  | cons c l ih =>
      refine .cons ⟨hsize c List.mem_cons_self, hs c List.mem_cons_self⟩ (ih ?_ ?_)
      · exact fun d hd => hs d (List.mem_cons_of_mem c hd)
      · exact fun d hd => hsize d (List.mem_cons_of_mem c hd)

/-- The low bits of a field are the low bits of the word they are read from. -/
theorem holds_low {n width offset keep : Nat} {f : Masked (BitVec n)}
    (hread : s.read ⟨offset, width⟩ = f) (hkeep : keep ≤ width) (hn : width ≤ n) :
    s.Holds ⟨offset, keep⟩ ⟨keep, f.map fun v => v.setWidth keep⟩ := by
  refine ⟨Nat.le_refl keep, ?_⟩
  have hin : 0 + keep ≤ width := by omega
  have hlow (w : BitVec (8 * streamOctets)) :
      ((⟨offset, keep⟩ : BitField).get w : BitVec keep) =
        ((⟨offset, width⟩ : BitField).get w : BitVec n).setWidth keep := by
    rw [BitVec.setWidth_eq_extractLsb' (hkeep.trans hn)]
    exact BitField.get_part hin hn w
  subst hread
  simp only [read, Masked.map, hlow]

theorem ShowsTransport.holds_fields {n : Network} {m : TransportMatch}
    (hs : s.ShowsTransport n.transportStart m) :
    List.Forall₂ s.Holds (m.places n.transportStart) m.fields := by
  have htcp (n : Network) : ∀ c ∈ TcpHeader.layout n.transportStart, c.place.width ≤ c.size := by
    cases n <;> decide
  have hudp (n : Network) : ∀ c ∈ UdpHeader.layout n.transportStart, c.place.width ≤ c.size := by
    cases n <;> decide
  cases m with
  | tcp header => exact Shows.holds hs (htcp n)
  | udp header => exact Shows.holds hs (hudp n)

/-- The places of the tail hold its fields. -/
theorem ShowsAll.holds_tail (hs : s.ShowsAll ethernet h) :
    List.Forall₂ s.Holds h.tailPlaces h.tail := by
  obtain ⟨network, transport⟩ := h
  have htransport := hs.transport
  cases network with
  | ipv4 _ =>
      cases transport with
      | tcp header =>
          -- The first three fields lie in the first window, the fourth is cut.
          cases ShowsTransport.holds_fields htransport with
          | cons _ h₁ => cases h₁ with
            | cons _ h₂ => cases h₂ with
              | cons _ h₃ => cases h₃ with
                | cons hack hrest => exact .cons (holds_low hack.2 (by decide) (Nat.le_refl 32)) hrest
      | udp _ => exact .nil
  | ipv6 header =>
      have hdestination := hs.network ⟨"IPv6 destination", span (networkStart + 192) 128, 128,
        fun h => h.destination, fun v h => { h with destination := v }⟩ (by simp [Ipv6Header.layout])
      exact .cons (holds_low hdestination (by decide) (by decide)) htransport.holds_fields

/-- Fields are zero where the bits of their places are. -/
theorem forall_eq_zero_iff {places : List BitField} {fields : List AnyField}
    (h : List.Forall₂ s.Holds places fields) :
    ((∀ f ∈ fields, f.2.value = 0#f.1) ↔
        ∀ p ∈ places, ∀ i, p.Contains i → s.value.getLsbD i = false) ∧
      ((∀ f ∈ fields, f.2.mask = 0#f.1) ↔
        ∀ p ∈ places, ∀ i, p.Contains i → s.mask.getLsbD i = false) := by
  induction h with
  | nil => simp
  | @cons place field places fields hplace _ ih =>
      obtain ⟨hwidth, hread⟩ := hplace
      have hvalue : field.2.value = 0#(field.1) ↔
          ∀ i, place.Contains i → s.value.getLsbD i = false := by
        rw [← hread]
        exact BitField.get_eq_zero_iff hwidth
      have hmask : field.2.mask = 0#(field.1) ↔
          ∀ i, place.Contains i → s.mask.getLsbD i = false := by
        rw [← hread]
        exact BitField.get_eq_zero_iff hwidth
      simp only [List.forall_mem_cons, hvalue, hmask, ih, and_self]

/-- What is seen of the stream through the second window is zero exactly when the
tail is. -/
theorem ShowsAll.secondWindow_eq_zero_iff (hs : s.ShowsAll ethernet h)
    (hempty : s.EmptyBehind h.shape) :
    (s.secondWindow.value = 0#_ ↔ h.TailIsZero) ∧
      (s.secondWindow.mask = 0#_ ↔ ¬h.ComparesTail) := by
  have hbehind (i : Nat) (hi : i < min h.shape.lowestBit (8 * windowOctets)) :
      s.value.getLsbD i = false ∧ s.mask.getLsbD i = false :=
    hempty.getLsbD_eq_false (Nat.lt_of_lt_of_le hi (Nat.min_le_left _ _))
  obtain ⟨hvalue, hmask⟩ := forall_eq_zero_iff hs.holds_tail
  have hcompares : ¬h.ComparesTail ↔ ∀ f ∈ h.tail, f.2.mask = 0#f.1 := by
    simp only [Headers.ComparesTail, not_exists, not_and, not_not]
  rw [secondWindow_eq_read, hcompares, Headers.TailIsZero, hvalue, hmask]
  exact ⟨h.tiles_tailPlaces.get_eq_zero_iff fun i hi => (hbehind i hi).1,
    h.tiles_tailPlaces.get_eq_zero_iff fun i hi => (hbehind i hi).2⟩

end FrameStream

namespace Rule

variable {r : Rule} {slot2 : SlotIndex} {p : Placement}

/-- The rule fits the registers, and its tail is either compared in a second slot with
an index of eight bits or all zero. -/
def IsAccepted (r : Rule) (slot2 : SlotIndex) : Prop :=
  r.InWidth ∧
    (r.headers.ComparesTail ∧ slot2.toNat ≤ 255 ∨ ¬r.headers.ComparesTail ∧ r.headers.TailIsZero)

theorem secondWindow_written (hfit : r.headers.Fits) :
    (r.written.secondWindow.value = 0#_ ↔ r.headers.TailIsZero) ∧
      (r.written.secondWindow.mask = 0#_ ↔ ¬r.headers.ComparesTail) :=
  (FrameStream.withHeaders_showsAll hfit r.ethernet .any).secondWindow_eq_zero_iff
    (FrameStream.emptyBehind_withHeaders r.ethernet (FrameStream.emptyBehind_any r.shape))

/-- The outcome of an accepted rule. -/
theorem place_eq_ok_iff_tail :
    r.place slot2 = .ok p ↔ r.InWidth ∧
      (r.headers.ComparesTail ∧ slot2.toNat ≤ 255 ∧ p = r.linkedPlacement slot2 ∨
        ¬r.headers.ComparesTail ∧ r.headers.TailIsZero ∧ p = r.singlePlacement) := by
  have hslot : slot2 ≤ maxSlotIndex ↔ slot2.toNat ≤ 255 := BitVec.le_def
  rw [place_eq_ok_iff, KeyMatch.check_eq_ok_iff_inWidth, Action.check_eq_ok_iff_inWidth,
    Masked.eq_any_iff, hslot]
  constructor
  · rintro ⟨hkey, haction, hfit, hrest⟩
    obtain ⟨hvalue, hmask⟩ := secondWindow_written hfit
    rw [Ne, hvalue, hmask, not_not] at hrest
    exact ⟨⟨hkey, haction, Headers.fits_iff_inWidth.mp hfit⟩, by tauto⟩
  · rintro ⟨⟨hkey, haction, hwidth⟩, hrest⟩
    have hfit := Headers.fits_iff_inWidth.mpr hwidth
    obtain ⟨hvalue, hmask⟩ := secondWindow_written hfit
    rw [Ne, hvalue, hmask, not_not]
    exact ⟨hkey, haction, hfit, by tauto⟩

/-- A rule that compares nothing of its tail does not use the slot it is given. -/
theorem place_eq_of_not_comparesTail (h : ¬r.headers.ComparesTail) (slot slot' : SlotIndex) :
    r.place slot = r.place slot' := by
  unfold place
  cases hstream : r.stream with
  | error e => rfl
  | ok s =>
      obtain ⟨hfit, rfl⟩ := stream_eq_ok_iff.mp hstream
      have hmask : r.written.secondWindow.mask = 0#_ := (secondWindow_written hfit).2.mpr h
      have hwildcard : r.written.secondWindow.isWildcard = true := by
        rw [Masked.isWildcard_eq, hmask, beq_self_eq_true]
      simp [bind, Except.bind, Entry.isUsedAsSecond, hwildcard]

/-- Which rules are accepted, what becomes of the others, and when a rule takes a
second slot. -/
theorem place_accepts_exactly (r : Rule) (slot2 : SlotIndex) :
    ((∃ p, r.place slot2 = .ok p) ↔ r.IsAccepted slot2) ∧
      (¬r.IsAccepted slot2 → ∃ cause, r.place slot2 = .error (.invalidArgument cause)) ∧
      (∀ p, r.place slot2 = .ok p →
        (p.isCascaded = true ↔ r.headers.ComparesTail) ∧
        ∀ slot second, p.continuation = some (slot, second) →
          slot = slot2 ∧ p.primary.next? = some slot2 ∧ second.key = Entry.cascadeKey slot2) ∧
      (¬r.headers.ComparesTail → ∀ slot, r.place slot = r.place slot2) := by
  have haccepts : (∃ p, r.place slot2 = .ok p) ↔ r.IsAccepted slot2 := by
    simp only [place_eq_ok_iff_tail, IsAccepted]
    constructor
    · rintro ⟨p, hwidth, ⟨htail, hslot, -⟩ | ⟨htail, hzero, -⟩⟩
      · exact ⟨hwidth, .inl ⟨htail, hslot⟩⟩
      · exact ⟨hwidth, .inr ⟨htail, hzero⟩⟩
    · rintro ⟨hwidth, ⟨htail, hslot⟩ | ⟨htail, hzero⟩⟩
      · exact ⟨_, hwidth, .inl ⟨htail, hslot, rfl⟩⟩
      · exact ⟨_, hwidth, .inr ⟨htail, hzero, rfl⟩⟩
  refine ⟨haccepts, ?refused, ?placed, fun htail slot => place_eq_of_not_comparesTail htail slot _⟩
  case refused =>
    intro hnot
    cases hplace : r.place slot2 with
    | ok p => exact absurd (haccepts.mp ⟨p, hplace⟩) hnot
    | error e =>
        obtain ⟨cause, rfl⟩ := isRefusal_of_place hplace
        exact ⟨cause, rfl⟩
  case placed =>
    intro p hplace
    obtain ⟨-, ⟨htail, -, rfl⟩ | ⟨htail, -, rfl⟩⟩ := place_eq_ok_iff_tail.mp hplace
    · refine ⟨iff_of_true rfl htail, fun slot second hcontinuation => ?_⟩
      obtain ⟨rfl, rfl⟩ := Prod.mk.inj (Option.some.inj hcontinuation)
      exact ⟨rfl, next?_primary hplace, rfl⟩
    · exact ⟨iff_of_false Bool.false_ne_true htail, fun _ _ hcontinuation => nomatch hcontinuation⟩

/-- Of the acknowledgment number of TCP over IPv4 the high half is no part of the tail. -/
example :
    let compare (mask : BitVec 32) : Headers :=
      ⟨.ipv4 .any, .tcp ⟨default, { (default : TcpHeader) with acknowledgment := mask }⟩⟩
    ¬(compare 0xffff0000#32).ComparesTail ∧ (compare 0x8000#32).ComparesTail := by
  decide

end Rule

end Tcam
