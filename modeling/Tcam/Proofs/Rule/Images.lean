import Tcam.Proofs.Rule.Acceptance

/-!
# The entries of rules

Not every pair of entries that is read as a rule is what this rule is placed as: the
masks of EtherType and protocol number, what lies behind the headers, the second key
and the first action are not looked at.  `IsImage` says what they must be, and
`exists_place_eq_iff_isImage` that nothing else is missing.
-/

namespace Tcam

/-! ## Reading headers that nobody wrote -/

namespace Layout

variable {α : Type} {n : Nat}

/-- Unpacking puts into every number what its place holds. -/
def Unpacks (l : Layout α) : Prop :=
  ∀ (w : BitVec (8 * streamOctets)) (a : α), ∀ c ∈ l, c.get (l.unpack w a) = c.place.get w

end Layout

theorem EthernetHeader.layout_unpacks : EthernetHeader.layout.Unpacks := by
  simp [Layout.Unpacks, layout]

theorem Ipv4Header.layout_unpacks : Ipv4Header.layout.Unpacks := by
  simp [Layout.Unpacks, layout]

theorem Ipv6Header.layout_unpacks : Ipv6Header.layout.Unpacks := by
  simp [Layout.Unpacks, layout]

theorem TcpHeader.layout_unpacks (start : Nat) : (TcpHeader.layout start).Unpacks := by
  simp [Layout.Unpacks, layout]

theorem UdpHeader.layout_unpacks (start : Nat) : (UdpHeader.layout start).Unpacks := by
  simp [Layout.Unpacks, layout]

namespace FrameStream

variable {α : Type} [Inhabited α] {l : Layout α} {s : FrameStream} {shape : Shape}

/-- A header that is read shows. -/
theorem shows_readHeader (hl : l.Unpacks) (s : FrameStream) : s.Shows l (s.readHeader l) := by
  intro c hc
  simp only [read, readHeader, hl s.value default c hc, hl s.mask default c hc]

/-- A header that is read fits. -/
theorem holds_readHeader (hl : l.Unpacks) (s : FrameStream) : l.Holds (s.readHeader l) := by
  have hfits (w : BitVec (8 * streamOctets)) : ∀ c ∈ l, c.fits (l.unpack w default) = true := by
    intro c hc
    rw [Cell.fits, hl w default c hc]
    exact c.place.fits_get w
  exact ⟨hfits s.value, hfits s.mask⟩

theorem kind_readNetwork (s : FrameStream) (n : Network) : (s.readNetwork n).kind = n := by
  cases n <;> rfl

theorem shape_readHeaders (s : FrameStream) (shape : Shape) :
    (s.readHeaders shape).shape = shape := by
  obtain ⟨network, transport⟩ := shape
  cases network <;> cases transport <;> rfl

theorem fits_readHeaders (s : FrameStream) (shape : Shape) : (s.readHeaders shape).Fits := by
  obtain ⟨network, transport⟩ := shape
  constructor
  · cases network with
    | ipv4 => exact holds_readHeader Ipv4Header.layout_unpacks s
    | ipv6 => exact holds_readHeader Ipv6Header.layout_unpacks s
  · simp only [readHeaders, kind_readNetwork]
    cases transport with
    | tcp => exact holds_readHeader (TcpHeader.layout_unpacks _) s
    | udp => exact holds_readHeader (UdpHeader.layout_unpacks _) s

/-- The stream names the shape in full and holds nothing behind its headers. -/
structure IsCanonical (s : FrameStream) (shape : Shape) : Prop where
  etherType : (s.readAt 16 : Masked Word) = .exact shape.etherType
  protocol : (s.readAt (Frame.protocolOctet shape.network) : Masked Octet) = .exact shape.protocol
  behind : ∀ i, shape.headerEnd ≤ i → i < streamOctets → (s.readAt i : Masked Octet) = .any

example : Shape.all.map Shape.headerEnd = [58, 46, 78, 66] := rfl

theorem protocolField_eq_span (n : Network) :
    n.protocolField = span (8 * Frame.protocolOctet n) 8 := by
  cases n <;> rfl

/-- Nothing is held behind the headers exactly when all octets there are empty. -/
theorem emptyBehind_iff_octets :
    s.EmptyBehind shape ↔
      ∀ i, shape.headerEnd ≤ i → i < streamOctets → (s.readAt i : Masked Octet) = .any := by
  have hwords (w : BitVec (8 * streamOctets)) :
      ((⟨0, shape.lowestBit⟩ : BitField).get w : BitVec (8 * streamOctets)) = 0#_ ↔
        ∀ i, shape.headerEnd ≤ i → i < streamOctets → ((span (8 * i) 8).get w : Octet) = 0#8 := by
    have hoctet (i : Nat) : ((span (8 * i) 8).get w : Octet) = 0#8 ↔
        ∀ j, (span (8 * i) 8).Contains j → w.getLsbD j = false :=
      BitField.get_eq_zero_iff (Nat.le_refl 8)
    have hlow := BitField.get_eq_zero_iff (f := ⟨0, shape.lowestBit⟩) (Nat.sub_le _ _) (w := w)
    rw [hlow]
    simp only [hoctet]
    simp only [BitField.Contains, span, Shape.lowestBit, Nat.zero_add]
    constructor
    · intro h i hend hi j hj
      exact h j ⟨Nat.zero_le j, by omega⟩
    · intro h j hj
      refine h (streamOctets - 1 - j / 8) ?_ ?_ j ?_
      all_goals
        simp only [streamOctets] at hj ⊢
        omega
  simp only [EmptyBehind, read, readAt, Masked.eq_any_iff, hwords]
  exact ⟨fun h i hlow hi => ⟨h.1 i hlow hi, h.2 i hlow hi⟩,
    fun h => ⟨fun i hlow hi => (h i hlow hi).1, fun i hlow hi => (h i hlow hi).2⟩⟩

theorem IsCanonical.showsAll (h : s.IsCanonical shape) :
    s.ShowsAll s.readEthernet (s.readHeaders shape) := by
  have hprotocol := h.protocol
  rw [readAt, ← protocolField_eq_span] at hprotocol
  refine {
    ethernet := shows_readHeader EthernetHeader.layout_unpacks s
    etherType := ?_
    network := ?_
    protocol := ?_
    transport := ?_ }
  · rw [shape_readHeaders]
    exact h.etherType
  · obtain ⟨network, transport⟩ := shape
    cases network with
    | ipv4 => exact shows_readHeader Ipv4Header.layout_unpacks s
    | ipv6 => exact shows_readHeader Ipv6Header.layout_unpacks s
  · rw [shape_readHeaders]
    simp only [readHeaders, kind_readNetwork]
    exact hprotocol
  · obtain ⟨network, transport⟩ := shape
    simp only [readHeaders, kind_readNetwork]
    cases transport with
    | tcp => exact shows_readHeader (TcpHeader.layout_unpacks _) s
    | udp => exact shows_readHeader (UdpHeader.layout_unpacks _) s

end FrameStream

theorem FrameWindow.mask_ne_zero_iff {w : FrameWindow} :
    w.mask ≠ 0#_ ↔ ∃ i < windowOctets, w.maskOctet i ≠ 0#8 := by
  have hzero : w.mask = 0#_ ↔ ∀ i < windowOctets, w.maskOctet i = 0#8 := by
    have hoctets := extractLsb'_eq_zero_iff w.mask 0
    simpa [BitVec.extractLsb'_eq_self, maskOctet] using hoctets
  rw [Ne, hzero]
  simp only [not_forall, exists_prop, Ne]

/-- The stream that the windows of two entries make. -/
def Entry.joined (first : Entry) (second : Option Entry) : FrameStream :=
  .ofWindows first.window (second.map Entry.window)

namespace Rule

open FrameStream

/-- The stream of a rule whose headers fit is canonical. -/
theorem written_isCanonical {r : Rule} (hfit : r.headers.Fits) : r.written.IsCanonical r.shape := by
  have hshow : r.written.ShowsAll r.ethernet r.headers := withHeaders_showsAll hfit r.ethernet .any
  have hempty : r.written.EmptyBehind r.shape :=
    emptyBehind_withHeaders r.ethernet (emptyBehind_any r.shape)
  have hprotocol := hshow.protocol
  rw [protocolField_eq_span] at hprotocol
  exact ⟨hshow.etherType, hprotocol, emptyBehind_iff_octets.mp hempty⟩

/-- A canonical stream is that of a rule, and read as this rule. -/
theorem exists_written_eq {s : FrameStream} {shape : Shape} (h : s.IsCanonical shape)
    (key : KeyMatch) (action : Action) :
    ∃ r, ofStream key s action = .ok r ∧ r.key = key ∧ r.action = action ∧ r.headers.Fits ∧
      r.written = s := by
  have hfit := fits_readHeaders s shape
  have hshape := shape_readHeaders s shape
  let r : Rule := ⟨key, s.readEthernet, s.readHeaders shape, action⟩
  have hread : ofStream key s action = .ok r := by
    unfold ofStream
    rw [h.showsAll.shape_eq, hshape]
    rfl
  have hwritten : r.written = s := by
    have hempty : s.EmptyBehind (s.readHeaders shape).shape := by
      rw [hshape]
      exact emptyBehind_iff_octets.mpr h.behind
    exact (withHeaders_showsAll hfit r.ethernet .any).unique h.showsAll
      (emptyBehind_withHeaders r.ethernet (emptyBehind_any _)) hempty
  exact ⟨r, hread, rfl, rfl, hfit, hwritten⟩

/-- The entries are those of a rule that continues, if at all, in the slot that the first
one names. -/
structure IsImage (first : Entry) (second : Option Entry) : Prop where
  key : first.key.check = .ok ()
  action : (second.getD first).fields.action.check = .ok ()
  stream : ∃ shape, (first.joined second).IsCanonical shape
  /-- Without a second entry there is no reference to one. -/
  reference : second = none → first.fields.nextId = 0#8
  /-- The second entry compares something, belongs to the first one alone and ends the
  rule. -/
  link : ∀ e, second = some e →
    (∃ i < windowOctets, e.window.maskOctet i ≠ 0#8) ∧ first.fields.action = default ∧
      e.key = Entry.cascadeKey (first.fields.nextId.setWidth 16) ∧
      e.fields.continueNext = false ∧ e.fields.nextId = 0#8

/-- The placement that two entries make, the second in the slot that the first names. -/
def placementOf (first : Entry) (second : Option Entry) : Placement where
  primary := first
  continuation := second.map fun e => (first.fields.nextId.setWidth 16, e)

theorem isImage_of_place {r : Rule} {first : Entry} {second : Option Entry}
    (h : r.place (first.fields.nextId.setWidth 16) = .ok (placementOf first second)) :
    IsImage first second := by
  obtain ⟨hkey, haction, hfit, hplaced⟩ := place_eq_ok_iff.mp h
  have hcanonical : r.written.IsCanonical r.shape := written_isCanonical hfit
  rcases hplaced with ⟨hmask, -, hp⟩ | ⟨hzero, hp⟩
  · obtain ⟨hfirst, hcontinuation⟩ := Placement.mk.inj hp
    cases second with
    | none => exact nomatch hcontinuation
    | some e =>
        obtain ⟨-, rfl⟩ := Prod.mk.inj (Option.some.inj hcontinuation)
        have hjoined : first.joined (some ⟨Entry.cascadeKey (first.fields.nextId.setWidth 16),
            r.written.secondWindow, .terminal r.action⟩) = r.written := by
          rw [Entry.joined, hfirst]
          exact ofWindows_windows r.written
        exact {
          key := hfirst ▸ hkey
          action := haction
          stream := ⟨r.shape, hjoined.symm ▸ hcanonical⟩
          reference := fun hnone => nomatch hnone
          link := by
            intro e he
            obtain rfl := Option.some.inj he
            exact ⟨FrameWindow.mask_ne_zero_iff.mp hmask,
              congrArg (fun e => e.fields.action) hfirst, rfl, rfl, rfl⟩ }
  · obtain ⟨rfl, hcontinuation⟩ := Placement.mk.inj hp
    cases second with
    | none =>
        have hjoined : r.singlePlacement.primary.joined none = r.written :=
          ofWindows_firstWindow hzero
        exact {
          key := hkey
          action := haction
          stream := ⟨r.shape, hjoined.symm ▸ hcanonical⟩
          reference := fun _ => rfl
          link := fun _ hsome => nomatch hsome }
    | some e => exact nomatch hcontinuation

theorem exists_place_of_isImage {first : Entry} {second : Option Entry}
    (hsecond : second.isSome = first.fields.continueNext) (h : IsImage first second) :
    ∃ r, ofEntries first second = .ok r ∧
      r.place (first.fields.nextId.setWidth 16) = .ok (placementOf first second) := by
  obtain ⟨key, window, continueNext, nextId, action⟩ := first
  obtain ⟨shape, hcanonical⟩ := h.stream
  cases second with
  | none =>
      obtain rfl : continueNext = false := hsecond.symm
      obtain rfl : nextId = 0#8 := h.reference rfl
      obtain ⟨r, hread, rfl, rfl, hfit, hwritten⟩ := exists_written_eq hcanonical key action
      have hfirst : r.written.firstWindow = window := by
        rw [hwritten, Entry.joined, firstWindow_ofWindows]
      have hzero : r.written.secondWindow = .any := by
        rw [hwritten, Entry.joined, secondWindow_ofWindows]
        rfl
      refine ⟨r, hread, place_eq_ok_iff.mpr ⟨h.key, h.action, hfit, .inr ⟨hzero, ?_⟩⟩⟩
      rw [singlePlacement, hfirst]
      rfl
  | some e =>
      obtain ⟨secondKey, secondWindow, secondContinue, secondNext, secondAction⟩ := e
      obtain ⟨hcompares, hdefault, hkey, hcontinue, hnext⟩ := h.link _ rfl
      dsimp only at hdefault hkey hcontinue hnext
      subst hdefault hkey hcontinue hnext
      obtain rfl : continueNext = true := hsecond.symm
      obtain ⟨r, hread, rfl, rfl, hfit, hwritten⟩ := exists_written_eq hcanonical key secondAction
      have hfirst : r.written.firstWindow = window := by
        rw [hwritten, Entry.joined, firstWindow_ofWindows]
      have hrest : r.written.secondWindow = secondWindow := by
        rw [hwritten, Entry.joined, secondWindow_ofWindows]
        rfl
      have hmask : r.written.secondWindow.mask ≠ 0#_ :=
        hrest ▸ FrameWindow.mask_ne_zero_iff.mpr hcompares
      have hslot : nextId.setWidth 16 ≤ maxSlotIndex := by
        have hlt := nextId.isLt
        simp only [BitVec.le_def, BitVec.toNat_setWidth, maxSlotIndex, BitVec.toNat_ofNat]
        omega
      have hback : ((nextId.setWidth 16).setWidth 8 : Octet) = nextId := by
        simp
      refine ⟨r, hread, place_eq_ok_iff.mpr ⟨h.key, h.action, hfit, .inl ⟨hmask, hslot, ?_⟩⟩⟩
      rw [linkedPlacement, hfirst, hrest, hback]
      rfl

/-- Entries are read as a rule that is placed as exactly these entries if and only if
they are an image. -/
theorem exists_place_eq_iff_isImage {first : Entry} {second : Option Entry}
    (hsecond : second.isSome = first.fields.continueNext) :
    (∃ r, ofEntries first second = .ok r ∧
        r.place (first.fields.nextId.setWidth 16) = .ok (placementOf first second)) ↔
      IsImage first second := by
  constructor
  · rintro ⟨r, -, hplace⟩
    exact isImage_of_place hplace
  · exact exists_place_of_isImage hsecond

theorem exists_place_eq_iff_isImage_twoSlotSample :
    let p := twoSlotSample.linkedPlacement 17#16
    let second := p.continuation.map Prod.snd
    second.isSome = p.primary.fields.continueNext ∧ IsImage p.primary second ∧
      ∃ r, ofEntries p.primary second = .ok r ∧
        r.place (p.primary.fields.nextId.setWidth 16) = .ok (placementOf p.primary second) := by
  intro p second
  have himage : IsImage p.primary second := isImage_of_place place_twoSlotSample
  exact ⟨rfl, himage, (exists_place_eq_iff_isImage rfl).mpr himage⟩

end Rule

end Tcam
