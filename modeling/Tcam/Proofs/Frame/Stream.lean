import Tcam.Frame.Window
import Tcam.Proofs.Masked

/-!
# Reading and writing a stream

Values and masks of a stream are written and read in step, so the laws of single
words carry over: a header that fits is read back, and reading disregards what
is written elsewhere.  A stream is the same thing as its two windows.
-/

namespace Tcam.FrameStream

variable {α β : Type} {n m : Nat}

@[simp] theorem read_any (f : BitField) :
    (FrameStream.read .any f : Masked (BitVec n)) = .any := by
  simp only [read, Masked.any_value, Masked.any_mask, BitField.get_zero]
  rfl

theorem read_put_of_disjoint {f g : BitField} (h : f.Disjoint g) (s : FrameStream)
    (field : Masked (BitVec m)) : ((s.put g field).read f : Masked (BitVec n)) = s.read f := by
  simp only [read, put, BitField.get_set_of_disjoint h]

theorem read_putHeader_of_avoids {l : Layout α} {f : BitField} (h : l.Avoids f)
    (s : FrameStream) (header : Masked α) :
    ((s.putHeader l header).read f : Masked (BitVec n)) = s.read f := by
  simp only [read, putHeader, Layout.get_pack_of_avoids h]

/-- A field as wide as its place is read back as it was written. -/
theorem read_put_self {f : BitField} (hin : f.offset + f.width ≤ 8 * streamOctets)
    (hwidth : n ≤ f.width) (s : FrameStream) (field : Masked (BitVec n)) :
    (s.put f field).read f = field := by
  have hfits (v : BitVec n) : f.fits v = true :=
    (f.fits_iff v).mpr fun i hi => v.getLsbD_of_ge i (by omega)
  simp only [read, put, BitField.get_set_of_fits f _ _ hin (hfits _)]

/-- A number that is written at an octet is read back there. -/
theorem readAt_putAt {octet : Nat} (hin : 8 * octet + n ≤ 8 * streamOctets) (s : FrameStream)
    (field : Masked (BitVec n)) : (s.putAt octet field).readAt octet = field := by
  have hspan : (span (8 * octet) n).offset + (span (8 * octet) n).width ≤ 8 * streamOctets := by
    simp only [span]
    omega
  exact read_put_self hspan (Nat.le_refl n) s field

/-- Every place of the layout shows the header's value and mask. -/
def Shows (s : FrameStream) (l : Layout α) (header : Masked α) : Prop :=
  ∀ c ∈ l, (s.read c.place : Masked (BitVec c.size)) = ⟨c.get header.value, c.get header.mask⟩

/-- A header that fits shows after it was written. -/
theorem shows_putHeader {l : Layout α} (hsep : l.Separate (8 * streamOctets))
    {header : Masked α} (hfit : l.Holds header) (s : FrameStream) :
    (s.putHeader l header).Shows l header := by
  intro c hc
  simp only [read, putHeader, Layout.get_pack_of_mem hsep hc _ _ (hfit.value c hc),
    Layout.get_pack_of_mem hsep hc _ _ (hfit.mask c hc)]

/-- A header shows in every stream that agrees on its places. -/
theorem Shows.of_read_eq {l : Layout α} {header : Masked α} {s t : FrameStream}
    (h : s.Shows l header)
    (hread : ∀ c ∈ l, (t.read c.place : Masked (BitVec c.size)) = s.read c.place) :
    t.Shows l header := by
  intro c hc
  rw [hread c hc, h c hc]

theorem Shows.put {l : Layout α} {header : Masked α} {s : FrameStream} (h : s.Shows l header)
    {f : BitField} (havoid : l.Avoids f) (field : Masked (BitVec n)) :
    (s.put f field).Shows l header :=
  h.of_read_eq fun c hc => read_put_of_disjoint (BitField.disjoint_comm (havoid c hc)) s field

/-- A header that shows is the one that is read. -/
theorem Shows.readHeader_eq [Inhabited α] {l : Layout α} {header : Masked α} {s : FrameStream}
    (h : s.Shows l header) (hcov : l.Covers) : s.readHeader l = header := by
  have hvalue : ∀ c ∈ l, c.place.get s.value = c.get header.value :=
    fun c hc => congrArg Masked.value (h c hc)
  have hmask : ∀ c ∈ l, c.place.get s.mask = c.get header.mask :=
    fun c hc => congrArg Masked.mask (h c hc)
  simp only [readHeader, Layout.unpack_eq_copy hvalue, Layout.unpack_eq_copy hmask,
    hcov header.value, hcov header.mask]

/-- The field ends in front of bit `start` of the stream. -/
def EndsBefore (f : BitField) (start : Nat) : Prop :=
  8 * streamOctets ≤ f.offset + start

instance (f : BitField) (start : Nat) : Decidable (EndsBefore f start) :=
  inferInstanceAs (Decidable (_ ≤ _))

/-- The field does not start in front of bit `start` of the stream. -/
def StartsFrom (f : BitField) (start : Nat) : Prop :=
  f.offset + f.width + start ≤ 8 * streamOctets

instance (f : BitField) (start : Nat) : Decidable (StartsFrom f start) :=
  inferInstanceAs (Decidable (_ ≤ _))

theorem disjoint_of_endsBefore {f g : BitField} {bound : Nat} (hf : EndsBefore f bound)
    (hg : StartsFrom g bound) : f.Disjoint g := by
  unfold EndsBefore at hf
  unfold StartsFrom at hg
  exact Or.inr (by omega)

theorem EndsBefore.mono {f : BitField} {i j : Nat} (h : EndsBefore f i) (hij : i ≤ j) :
    EndsBefore f j := by
  unfold EndsBefore at *
  omega

theorem StartsFrom.mono {f : BitField} {i j : Nat} (h : StartsFrom f j) (hij : i ≤ j) :
    StartsFrom f i := by
  unfold StartsFrom at *
  omega

/-- A field in front of all places of a layout shares no bit with them. -/
theorem avoids_of_endsBefore {l : Layout α} {f : BitField} {bound : Nat}
    (hl : ∀ c ∈ l, StartsFrom c.place bound) (hf : EndsBefore f bound) : l.Avoids f :=
  fun c hc => disjoint_of_endsBefore hf (hl c hc)

/-- A field behind all places of a layout shares no bit with them. -/
theorem avoids_of_startsFrom {l : Layout α} {f : BitField} {bound : Nat}
    (hl : ∀ c ∈ l, EndsBefore c.place bound) (hf : StartsFrom f bound) : l.Avoids f :=
  fun c hc => BitField.disjoint_comm (disjoint_of_endsBefore (hl c hc) hf)

/-- A stream is put together again from its windows. -/
theorem ofWindows_windows (s : FrameStream) :
    ofWindows s.firstWindow (some s.secondWindow) = s := by
  have hjoin (w : BitVec (8 * streamOctets)) :
      w.extractLsb' (8 * windowOctets) (8 * windowOctets) ++
        w.extractLsb' 0 (8 * windowOctets) = w := by
    rw [BitVec.extractLsb'_append_extractLsb'_eq_extractLsb' (Nat.zero_add _).symm]
    exact BitVec.extractLsb'_eq_self
  simp only [ofWindows, firstWindow, secondWindow, Option.getD_some, hjoin]

@[simp] theorem firstWindow_ofWindows (first : FrameWindow) (second : Option FrameWindow) :
    (ofWindows first second).firstWindow = first := by
  simp only [ofWindows, firstWindow]
  rw [BitVec.extractLsb'_append_eq_left, BitVec.extractLsb'_append_eq_left]

@[simp] theorem secondWindow_ofWindows (first : FrameWindow) (second : Option FrameWindow) :
    (ofWindows first second).secondWindow = second.getD .any := by
  simp only [ofWindows, secondWindow]
  rw [BitVec.extractLsb'_append_eq_right, BitVec.extractLsb'_append_eq_right]

theorem firstWindow_eq_read (s : FrameStream) :
    s.firstWindow = s.read ⟨8 * windowOctets, 8 * windowOctets⟩ := by
  simp [firstWindow, read, BitField.get]

theorem secondWindow_eq_read (s : FrameStream) : s.secondWindow = s.read ⟨0, 8 * windowOctets⟩ := by
  simp [secondWindow, read, BitField.get]

/-- A second window that is all zero need not be kept. -/
theorem ofWindows_firstWindow {s : FrameStream} (h : s.secondWindow = .any) :
    ofWindows s.firstWindow none = s := by
  have hjoin := ofWindows_windows s
  rw [h] at hjoin
  exact hjoin

end Tcam.FrameStream
