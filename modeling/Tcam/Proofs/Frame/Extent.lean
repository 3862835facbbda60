import Tcam.Proofs.Frame.Wire
import Tcam.Proofs.Rule.Acceptance

/-!
# Which octets header mapping writes

Headers are written over the octets up to the end of the transport header, all of them
and no other (`putHeaders_extent`).  What the stream held there before is gone, what it
held behind is kept.  If a number is too wide, nothing but the network header can have
been written.
-/

namespace Tcam

/-- The octet behind the transport header. -/
def Frame.endOctet : Shape → Nat
  | ⟨.ipv4, .tcp⟩ => 58
  | ⟨.ipv4, .udp⟩ => 46
  | ⟨.ipv6, .tcp⟩ => 78
  | ⟨.ipv6, .udp⟩ => 66

theorem Shape.headerEnd_eq (s : Shape) : s.headerEnd = Frame.endOctet s := by
  obtain ⟨network, transport⟩ := s
  cases network <;> cases transport <;> rfl

theorem Network.transportStart_eq (n : Network) :
    n.transportStart = 8 * Frame.transportOctet n := by
  cases n <;> rfl

/-- A field is the same in two words that agree on its bits. -/
theorem BitField.get_congr {n m : Nat} {f : BitField} {w w' : BitVec n}
    (h : ∀ i, f.Contains i → w.getLsbD i = w'.getLsbD i) : (f.get w : BitVec m) = f.get w' := by
  apply BitVec.eq_of_getLsbD_eq
  intro i hi
  rw [getLsbD_get, getLsbD_get]
  by_cases hwidth : i < f.width
  · rw [h (f.offset + i) ⟨by omega, by omega⟩]
  · simp [hwidth]

namespace FrameStream

variable {s t : FrameStream} {e : Error}

theorem endsBefore_octet {i start : Nat} (hi : 8 * (i + 1) ≤ start) (hin : i < streamOctets) :
    EndsBefore (span (8 * i) 8) start := by
  simp only [EndsBefore, span]
  omega

theorem startsFrom_octet {i start : Nat} (hi : start ≤ 8 * i) (hin : i < streamOctets) :
    StartsFrom (span (8 * i) 8) start := by
  simp only [StartsFrom, span]
  omega

/-- In front of the end of the headers an octet is what the headers make it. -/
theorem ShowsAll.octet_eq {ethernet : Masked EthernetHeader} {h : Headers}
    (hs : s.ShowsAll ethernet h) (ht : t.ShowsAll ethernet h) {i : Nat}
    (hi : i < h.shape.headerEnd) : s.octet i = t.octet i := by
  have hend := h.shape.headerEnd_le
  have hbits (k : Nat) (hk : (span (8 * i) 8).Contains k) :
      s.value.getLsbD k = t.value.getLsbD k ∧ s.mask.getLsbD k = t.mask.getLsbD k := by
    simp only [span, BitField.Contains] at hk
    have hlow : h.shape.lowestBit ≤ k := by
      simp only [Shape.lowestBit]
      omega
    exact hs.getLsbD_eq ht hlow (by omega)
  have hvalue := BitField.get_congr (m := 8) fun k hk => (hbits k hk).1
  have hmask := BitField.get_congr (m := 8) fun k hk => (hbits k hk).2
  exact congrArg₂ Masked.mk hvalue hmask

/-- Headers that are refused have left alone what is not of the network header. -/
theorem octet_of_putHeaders_eq_error {h : Headers} (herror : putHeaders h s = .error e t) {i : Nat}
    (hin : i < streamOctets) (hi : i < 18 ∨ Frame.transportOctet h.network.kind ≤ i) :
    t.octet i = s.octet i := by
  rcases (putHeaders_eq_error herror).2 with rfl | rfl
  · rfl
  rcases hi with hfront | hbehind
  · have hends : EndsBefore (span (8 * i) 8) networkStart :=
      endsBefore_octet (Nat.mul_le_mul_left 8 hfront) hin
    exact read_withNetwork_of_endsBefore hends s h.network _
  · have hstarts : StartsFrom (span (8 * i) 8) h.network.kind.transportStart :=
      startsFrom_octet (h.network.kind.transportStart_eq ▸ Nat.mul_le_mul_left 8 hbehind) hin
    exact read_withNetwork_of_startsFrom hstarts s _

/-- Headers whose numbers are small enough for their bits are written whatever the stream
holds.  They are read back with their shape, and an octet of the stream is then what the
headers make it up to their end, and what it was behind.  All others are refused, and then
only octets of the network header can have changed. -/
theorem putHeaders_extent (ethernet : Masked EthernetHeader) (h : Headers) :
    (h.InWidth → ∀ s : FrameStream,
      ∃ s', putHeaders h (s.putEthernet ethernet h.shape) = .ok () s' ∧
      s'.shape = .ok h.shape ∧ s'.readEthernet = ethernet ∧ s'.readHeaders h.shape = h ∧
      (∀ t t' : FrameStream, putHeaders h (t.putEthernet ethernet h.shape) = .ok () t' →
        ∀ i < Frame.endOctet h.shape, s'.octet i = t'.octet i) ∧
      ∀ i, Frame.endOctet h.shape ≤ i → i < streamOctets → s'.octet i = s.octet i) ∧
    (¬h.InWidth → ∀ s, ∃ e s', putHeaders h s = .error e s' ∧ e.IsRefusal ∧
      ∀ i < streamOctets, i < 18 ∨ Frame.transportOctet h.network.kind ≤ i →
        s'.octet i = s.octet i) := by
  rw [← Headers.fits_iff_inWidth, ← Shape.headerEnd_eq]
  constructor
  · intro hfit s
    have hshow := withHeaders_showsAll hfit ethernet s
    refine ⟨_, putHeaders_eq_ok_iff.mpr ⟨hfit, rfl⟩, hshow.shape_eq, hshow.readEthernet_eq,
      hshow.readHeaders_eq, fun t t' hrun i hi => ?_, fun i hi hin => ?_⟩
    · obtain ⟨-, rfl⟩ := putHeaders_eq_ok_iff.mp hrun
      exact hshow.octet_eq (withHeaders_showsAll hfit ethernet t) hi
    · have hstarts : StartsFrom (span (8 * i) 8) (8 * h.shape.headerEnd) :=
        startsFrom_octet (Nat.mul_le_mul_left 8 hi) hin
      exact read_withHeaders_of_startsFrom hstarts ethernet s
  · intro hunfit s
    cases hrun : putHeaders h s with
    | ok u t => exact absurd (putHeaders_eq_ok_iff.mp hrun).1 hunfit
    | error e t =>
        exact ⟨e, t, rfl, (putHeaders_eq_error hrun).1,
          fun i hin hi => octet_of_putHeaders_eq_error hrun hin hi⟩

/-- A stream that holds no zero. -/
def onesSample : FrameStream :=
  ⟨BitVec.allOnes _, BitVec.allOnes _⟩

/-- Headers whose last part has a number that is too wide. -/
def wideSample : Headers :=
  { Rule.twoSlotSample.headers with
    transport := .tcp ⟨{ (default : TcpHeader) with dataOffset := 16#8 }, default⟩ }

/-- Behind the headers the stream still holds no zero. -/
theorem putHeaders_extent_onesSample :
    let ethernet := Rule.twoSlotSample.ethernet
    let h := Rule.twoSlotSample.headers
    h.InWidth ∧ ¬wideSample.InWidth ∧
      (∃ s', putHeaders h (onesSample.putEthernet ethernet h.shape) = .ok () s' ∧
        s'.shape = .ok h.shape ∧ s'.readHeaders h.shape = h ∧
        s'.octet 78 = ⟨0xff#8, 0xff#8⟩) ∧
      ∃ e s', putHeaders wideSample onesSample = .error e s' ∧ e.IsRefusal ∧
        s'.octet 58 = ⟨0xff#8, 0xff#8⟩ := by
  intro ethernet h
  have hfit : h.InWidth := Headers.fits_iff_inWidth.mp (by decide +kernel)
  have hunfit : ¬wideSample.InWidth := fun hwide =>
    absurd (Headers.fits_iff_inWidth.mpr hwide) (by decide +kernel)
  obtain ⟨s', hrun, hshape, -, hheaders, -, hbehind⟩ :=
    (putHeaders_extent ethernet h).1 hfit onesSample
  obtain ⟨e, s'', hrefused, he, hkept⟩ :=
    (putHeaders_extent ethernet wideSample).2 hunfit onesSample
  have hoctet (i : Nat) (hi : i = 78 ∨ i = 58) : onesSample.octet i = ⟨0xff#8, 0xff#8⟩ := by
    rcases hi with rfl | rfl
    · decide +kernel
    · decide +kernel
  refine ⟨hfit, hunfit, ⟨s', hrun, hshape, hheaders, ?_⟩, e, s'', hrefused, he, ?_⟩
  · exact (hbehind 78 (by decide) (by decide)).trans (hoctet 78 (Or.inl rfl))
  · exact (hkept 58 (by decide) (Or.inr (by decide))).trans (hoctet 58 (Or.inr rfl))

end FrameStream

end Tcam
