import Mathlib.Data.List.Sort
import Tcam.Proofs.Rule.Matching
import Tcam.Proofs.Slot.Image

/-!
# Streams are determined by what they show

The places of the headers lie one behind the other from the first bit of the stream to
the end of the transport header (`Headers.tiles_places`).  So a stream that shows the
headers of a rule and is empty behind them has no freedom left
(`ShowsAll.unique`), and every bit of it is a bit of a header, of the EtherType or
of the protocol number.
-/

namespace Tcam

namespace BitField

/-- The fields follow each other, from the second bound down to the first. -/
def Tiles : List BitField → Nat → Nat → Prop
  | [], low, high => low = high
  | f :: rest, low, high => f.offset + f.width = high ∧ Tiles rest low f.offset

instance decidableTiles : (fields : List BitField) → (low high : Nat) →
    Decidable (Tiles fields low high)
  | [], low, high => inferInstanceAs (Decidable (low = high))
  | f :: rest, low, _ =>
    have := decidableTiles rest low f.offset
    inferInstanceAs (Decidable (_ ∧ _))

theorem Tiles.exists_contains {fields : List BitField} {low high i : Nat}
    (h : Tiles fields low high) (hlow : low ≤ i) (hhigh : i < high) :
    ∃ f ∈ fields, f.Contains i := by
  induction fields generalizing high with
  | nil =>
      have hempty : low = high := h
      omega
  | cons f rest ih =>
      obtain ⟨hend, hrest⟩ := h
      by_cases hi : f.offset ≤ i
      · exact ⟨f, List.mem_cons_self, hi, by omega⟩
      · obtain ⟨g, hg, hcontains⟩ := ih hrest (by omega)
        exact ⟨g, List.mem_cons_of_mem f hg, hcontains⟩

theorem get_eq_zero_iff {f : BitField} (hm : f.width ≤ m) {w : BitVec n} :
    (f.get w : BitVec m) = 0#m ↔ ∀ i, f.Contains i → w.getLsbD i = false := by
  constructor
  · intro hzero i hi
    rw [getLsbD_eq_of_contains hi hm, hzero, BitVec.getLsbD_zero]
  · intro hbits
    apply BitVec.eq_of_getLsbD_eq
    intro i hi
    rw [getLsbD_get, BitVec.getLsbD_zero]
    by_cases hwidth : i < f.width
    · have hcontains : f.Contains (f.offset + i) := ⟨by omega, by omega⟩
      simp [hbits _ hcontains]
    · simp [hwidth]

/-- A part of a field is a part of the number that the field holds. -/
theorem get_part {n m offset width skip keep : Nat} (hin : skip + keep ≤ width) (hm : width ≤ m)
    (w : BitVec n) :
    ((⟨offset + skip, keep⟩ : BitField).get w : BitVec keep) =
      ((⟨offset, width⟩ : BitField).get w : BitVec m).extractLsb' skip keep := by
  have hpart := get_get (f := ⟨skip, keep⟩) (g := ⟨offset, width⟩) (k := keep) hin hm w
  rw [get, BitVec.setWidth_eq] at hpart
  exact hpart.symm

end BitField

/-- The first bit, counted from the end of the stream, that belongs to a header. -/
def Shape.lowestBit (s : Shape) : Nat :=
  8 * streamOctets - 8 * s.headerEnd

theorem Shape.headerEnd_le (s : Shape) : s.headerEnd ≤ streamOctets := by
  obtain ⟨network, transport⟩ := s
  cases network <;> cases transport <;> decide

namespace Headers

/-- All places of the headers from the front of the stream on.  The protocol number
stands between fields of the network header. -/
def places (h : Headers) : List BitField :=
  EthernetHeader.layout.map Cell.place ++ etherTypeField ::
    (h.network.places.orderedInsert (fun f g => g.offset ≤ f.offset)
        h.network.kind.protocolField ++
      h.transport.places h.network.kind.transportStart)

theorem tiles_places (h : Headers) :
    BitField.Tiles h.places h.shape.lowestBit (8 * streamOctets) := by
  -- The places depend on the shape alone, so they are those of the wildcard.
  have hshape (s : Shape) :
      BitField.Tiles (wildcard s).places s.lowestBit (8 * streamOctets) := by
    obtain ⟨network, transport⟩ := s
    cases network <;> cases transport <;> decide
  have hplaces : h.places = (wildcard h.shape).places := by
    obtain ⟨network, transport⟩ := h
    cases network <;> cases transport <;> rfl
  exact hplaces ▸ hshape h.shape

end Headers

namespace FrameStream

variable {n : Nat} {s t : FrameStream}

/-- The stream holds nothing behind the headers of the shape. -/
def EmptyBehind (s : FrameStream) (shape : Shape) : Prop :=
  s.read ⟨0, shape.lowestBit⟩ = (.any : FrameStream)

theorem emptyBehind_any (shape : Shape) : EmptyBehind .any shape :=
  read_any _

theorem EmptyBehind.getLsbD_eq_false {shape : Shape} (h : s.EmptyBehind shape) {i : Nat}
    (hi : i < shape.lowestBit) : s.value.getLsbD i = false ∧ s.mask.getLsbD i = false := by
  obtain ⟨hvalue, hmask⟩ := Masked.eq_any_iff.mp h
  have hcontains : (⟨0, shape.lowestBit⟩ : BitField).Contains i :=
    ⟨Nat.zero_le i, by simpa using hi⟩
  have hwidth : shape.lowestBit ≤ 8 * streamOctets := Nat.sub_le _ _
  exact ⟨(BitField.get_eq_zero_iff hwidth).mp hvalue i hcontains,
    (BitField.get_eq_zero_iff hwidth).mp hmask i hcontains⟩

/-- A field behind the headers is empty. -/
theorem EmptyBehind.read_eq_any {shape : Shape} (h : s.EmptyBehind shape) {f : BitField}
    (hf : f.offset + f.width ≤ shape.lowestBit) (hn : f.width ≤ n) :
    (s.read f : Masked (BitVec n)) = .any := by
  have hbits (i : Nat) (hi : f.Contains i) := h.getLsbD_eq_false (Nat.lt_of_lt_of_le hi.2 hf)
  exact Masked.eq_any_iff.mpr ⟨(BitField.get_eq_zero_iff hn).mpr fun i hi => (hbits i hi).1,
    (BitField.get_eq_zero_iff hn).mpr fun i hi => (hbits i hi).2⟩

/-- Reading the same bits gives the same bits. -/
theorem getLsbD_eq_of_read_eq {f : BitField} {i : Nat} (hi : f.Contains i) (hn : f.width ≤ n)
    (h : (s.read f : Masked (BitVec n)) = t.read f) :
    s.value.getLsbD i = t.value.getLsbD i ∧ s.mask.getLsbD i = t.mask.getLsbD i := by
  constructor
  · rw [BitField.getLsbD_eq_of_contains hi hn s.value, BitField.getLsbD_eq_of_contains hi hn t.value]
    exact congrArg (fun m => m.value.getLsbD (i - f.offset)) h
  · rw [BitField.getLsbD_eq_of_contains hi hn s.mask, BitField.getLsbD_eq_of_contains hi hn t.mask]
    exact congrArg (fun m => m.mask.getLsbD (i - f.offset)) h

/-- What lies behind the headers that are written stays empty. -/
theorem emptyBehind_withHeaders {h : Headers} (ethernet : Masked EthernetHeader)
    (hs : s.EmptyBehind h.shape) :
    ((s.putEthernet ethernet h.shape).withHeaders h).EmptyBehind h.shape := by
  have hend := h.shape.headerEnd_le
  have hbehind : StartsFrom ⟨0, h.shape.lowestBit⟩ (8 * h.shape.headerEnd) := by
    simp only [StartsFrom, Shape.lowestBit]
    omega
  exact (read_withHeaders_of_startsFrom hbehind ethernet s).trans hs

/-- What two streams show at a place of the headers of `h` is the same. -/
theorem ShowsAll.read_eq {ethernet : Masked EthernetHeader} {h : Headers}
    (hs : s.ShowsAll ethernet h) (ht : t.ShowsAll ethernet h) {f : BitField}
    (hf : f ∈ h.places) :
    ∃ n, f.width ≤ n ∧ (s.read f : Masked (BitVec n)) = t.read f := by
  -- In a layout, numbers are at least as wide as their places.
  have hcells {α : Type} {l : Layout α} {header : Masked α}
      (hsize : ∀ c ∈ l, c.place.width ≤ c.size) (hs : s.Shows l header) (ht : t.Shows l header)
      (hf : f ∈ l.map Cell.place) :
      ∃ n, f.width ≤ n ∧ (s.read f : Masked (BitVec n)) = t.read f := by
    obtain ⟨c, hc, rfl⟩ := List.mem_map.mp hf
    exact ⟨c.size, hsize c hc, (hs c hc).trans (ht c hc).symm⟩
  have hprotocol (n : Network) : n.protocolField.width ≤ 8 := by cases n <;> decide
  have htcp (n : Network) : ∀ c ∈ TcpHeader.layout n.transportStart, c.place.width ≤ c.size := by
    cases n <;> decide
  have hudp (n : Network) : ∀ c ∈ UdpHeader.layout n.transportStart, c.place.width ≤ c.size := by
    cases n <;> decide
  obtain ⟨network, transport⟩ := h
  simp only [Headers.places, List.mem_append, List.mem_cons, List.mem_orderedInsert] at hf
  rcases hf with hethernet | htype | (hnumber | hnetwork) | htransport
  · exact hcells (by decide) hs.ethernet ht.ethernet hethernet
  · subst htype
    exact ⟨16, by decide, hs.etherType.trans ht.etherType.symm⟩
  · subst hnumber
    exact ⟨8, hprotocol network.kind, hs.protocol.trans ht.protocol.symm⟩
  · cases network with
    | ipv4 header => exact hcells (by decide) hs.network ht.network hnetwork
    | ipv6 header => exact hcells (by decide) hs.network ht.network hnetwork
  · cases transport with
    | tcp header => exact hcells (htcp network.kind) hs.transport ht.transport htransport
    | udp header => exact hcells (hudp network.kind) hs.transport ht.transport htransport

/-- Two streams that show the same headers agree on every bit in front of their end. -/
theorem ShowsAll.getLsbD_eq {ethernet : Masked EthernetHeader} {h : Headers}
    (hs : s.ShowsAll ethernet h) (ht : t.ShowsAll ethernet h) {i : Nat}
    (hlow : h.shape.lowestBit ≤ i) (hi : i < 8 * streamOctets) :
    s.value.getLsbD i = t.value.getLsbD i ∧ s.mask.getLsbD i = t.mask.getLsbD i := by
  obtain ⟨f, hf, hcontains⟩ := h.tiles_places.exists_contains hlow hi
  obtain ⟨n, hn, hread⟩ := hs.read_eq ht hf
  exact getLsbD_eq_of_read_eq hcontains hn hread

/-- The headers and the emptiness behind them determine a stream. -/
theorem ShowsAll.unique {ethernet : Masked EthernetHeader} {h : Headers}
    (hs : s.ShowsAll ethernet h) (ht : t.ShowsAll ethernet h)
    (hs' : s.EmptyBehind h.shape) (ht' : t.EmptyBehind h.shape) : s = t := by
  have hbits (i : Nat) (hi : i < 8 * streamOctets) :
      s.value.getLsbD i = t.value.getLsbD i ∧ s.mask.getLsbD i = t.mask.getLsbD i := by
    by_cases hlow : i < h.shape.lowestBit
    · obtain ⟨hvalue, hmask⟩ := hs'.getLsbD_eq_false hlow
      obtain ⟨hvalue', hmask'⟩ := ht'.getLsbD_eq_false hlow
      exact ⟨hvalue.trans hvalue'.symm, hmask.trans hmask'.symm⟩
    · exact hs.getLsbD_eq ht (Nat.le_of_not_lt hlow) hi
  have hvalue : s.value = t.value := BitVec.eq_of_getLsbD_eq fun i hi => (hbits i hi).1
  have hmask : s.mask = t.mask := BitVec.eq_of_getLsbD_eq fun i hi => (hbits i hi).2
  cases s
  cases t
  simp_all

end FrameStream

end Tcam
