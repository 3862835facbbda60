import Tcam.Proofs.Frame.Stream

/-!
# Numbers across the border of the windows

Windows and streams are known by their octets.  A number that is written to a stream may
lie on both sides of the border between the windows.  Then its octets in front of the
border go to the first window and the others to the second (`putAt_eq_ofWindows`), and it
is read back as if there were no border (`access_respects_windows`).
-/

namespace Tcam

/-- The octets of a number, the most significant one first. -/
def Masked.octets {count : Nat} (field : Masked (BitVec (8 * count))) : List (Masked Octet) :=
  (List.range count).map fun k => field.map fun v => v.extractLsb' (8 * (count - 1 - k)) 8

@[simp] theorem Masked.length_octets {count : Nat} (field : Masked (BitVec (8 * count))) :
    field.octets.length = count := by
  simp [Masked.octets]

namespace FrameWindow

variable {v w : FrameWindow} {start i j : Nat}

theorem octetField_inside {i : Nat} (hi : i < windowOctets) :
    (octetField i).offset + (octetField i).width ≤ 8 * windowOctets := by
  simp only [octetField, windowOctets] at hi ⊢
  omega

theorem octetField_disjoint {i j : Nat} (hi : i < windowOctets) (hj : j < windowOctets)
    (hne : i ≠ j) : (octetField i).Disjoint (octetField j) := by
  simp only [BitField.Disjoint, octetField, windowOctets] at hi hj ⊢
  omega

/-- Writing one octet of a window's values or masks, octet by octet. -/
theorem get_set_octetField {i j : Nat} (hi : i < windowOctets) (hj : j < windowOctets)
    (w : BitVec (8 * windowOctets)) (v : Octet) :
    ((octetField i).get ((octetField j).set w v) : Octet) =
      if i = j then v else (octetField i).get w := by
  by_cases hij : i = j
  · subst hij
    rw [if_pos rfl, BitField.get_set_self _ w v (octetField_inside hi)]
    simp [octetField]
  · rw [if_neg hij, BitField.get_set_of_disjoint (octetField_disjoint hi hj hij)]

/-- The bits of a window's values or masks are the bits of its octets. -/
theorem getLsbD_eq_octet (w : BitVec (8 * windowOctets)) {i : Nat} (hi : i < 8 * windowOctets) :
    w.getLsbD i =
      ((octetField (windowOctets - 1 - i / 8)).get w : Octet).getLsbD (i % 8) := by
  have hindex : 8 * (windowOctets - 1 - (windowOctets - 1 - i / 8)) + i % 8 = i := by
    simp only [windowOctets] at hi ⊢
    omega
  simp only [BitField.getLsbD_get, octetField, hindex, Nat.mod_lt i (by decide : 8 > 0),
    decide_true, Bool.true_and]

/-- A window is known by the values and masks of its octets. -/
theorem eq_of_octets {v w : FrameWindow}
    (hvalue : ∀ i < windowOctets, v.valueOctet i = w.valueOctet i)
    (hmask : ∀ i < windowOctets, v.maskOctet i = w.maskOctet i) : v = w := by
  have heq (x y : BitVec (8 * windowOctets))
      (h : ∀ i < windowOctets, ((octetField i).get x : Octet) = (octetField i).get y) : x = y := by
    apply BitVec.eq_of_getLsbD_eq
    intro i hi
    have hlt : windowOctets - 1 - i / 8 < windowOctets := by
      simp only [windowOctets]
      omega
    rw [getLsbD_eq_octet x hi, getLsbD_eq_octet y hi, h _ hlt]
  cases v
  cases w
  exact congr (congrArg Masked.mk (heq _ _ hvalue)) (heq _ _ hmask)

/-- Octet `i` of the window, its value and its mask. -/
def octet (w : FrameWindow) (i : Nat) : Masked Octet :=
  ⟨w.valueOctet i, w.maskOctet i⟩

/-- The window with octet `i` replaced. -/
def putOctet (w : FrameWindow) (i : Nat) (o : Masked Octet) : FrameWindow :=
  ⟨(octetField i).set w.value o.value, (octetField i).set w.mask o.mask⟩

/-- The window with the octets from `start` on replaced. -/
def putOctets (w : FrameWindow) (start : Nat) : List (Masked Octet) → FrameWindow
  | [] => w
  | o :: octets => (w.putOctet start o).putOctets (start + 1) octets

theorem eq_of_octet (h : ∀ i < windowOctets, v.octet i = w.octet i) : v = w :=
  eq_of_octets (fun i hi => congrArg Masked.value (h i hi))
    fun i hi => congrArg Masked.mask (h i hi)

theorem octet_putOctet (hi : i < windowOctets) (hj : j < windowOctets) (w : FrameWindow)
    (o : Masked Octet) : (w.putOctet j o).octet i = if i = j then o else w.octet i := by
  have hvalue := get_set_octetField hi hj w.value o.value
  have hmask := get_set_octetField hi hj w.mask o.mask
  simp only [octet, valueOctet, maskOctet, putOctet, hvalue, hmask]
  by_cases hij : i = j
  · simp only [if_pos hij]
  · simp only [if_neg hij]

/-- The octets of a run are found from its start on, the others are as before. -/
theorem octet_putOctets {octets : List (Masked Octet)} (w : FrameWindow)
    (hin : ∀ k < octets.length, start + k < windowOctets) (hi : i < windowOctets) :
    (w.putOctets start octets).octet i =
      if start ≤ i then octets.getD (i - start) (w.octet i) else w.octet i := by
  induction octets generalizing w start with
  | nil => simp [putOctets]
  | cons o octets ih =>
      have hstart : start < windowOctets := hin 0 (Nat.succ_pos _)
      have htail : ∀ k < octets.length, start + 1 + k < windowOctets := by
        intro k hk
        have hnext := hin (k + 1) (Nat.succ_lt_succ hk)
        omega
      rw [putOctets, ih _ htail, octet_putOctet hi hstart]
      -- Octet `i` lies in front of the run, is its first octet or a later one.
      rcases Nat.lt_trichotomy i start with hlt | rfl | hgt
      · have hne : i ≠ start := Nat.ne_of_lt hlt
        simp [hne, Nat.not_le.mpr hlt, Nat.not_le.mpr (Nat.lt_succ_of_lt hlt)]
      · have hnext : ¬i + 1 ≤ i := Nat.not_succ_le_self i
        simp [hnext]
      · obtain ⟨k, rfl⟩ := Nat.exists_eq_add_of_lt hgt
        have hindex : start + k + 1 - start = k + 1 := by omega
        have hindex' : start + k + 1 - (start + 1) = k := by omega
        have hne : start + k + 1 ≠ start := by omega
        simp [hindex, hindex', hne, Nat.le_of_lt hgt]

end FrameWindow

namespace FrameStream

variable {count start i : Nat}

/-- Octet `i` of the stream, its value and its mask. -/
abbrev octet (s : FrameStream) (i : Nat) : Masked Octet :=
  s.readAt i

/-- An octet of the first window is an octet of the stream. -/
theorem octets_firstWindow (s : FrameStream) {i : Nat} (hi : i < windowOctets) :
    (⟨s.firstWindow.valueOctet i, s.firstWindow.maskOctet i⟩ : Masked Octet) =
      s.read (span (8 * i) 8) := by
  have hinside := FrameWindow.octetField_inside hi
  have hplace : (FrameWindow.octetField i).within ⟨8 * windowOctets, 8 * windowOctets⟩ =
      span (8 * i) 8 := by
    simp only [BitField.within, FrameWindow.octetField, span, BitField.mk.injEq, and_true,
      windowOctets, streamOctets] at hi ⊢
    omega
  have hoctet := BitField.get_get (g := ⟨8 * windowOctets, 8 * windowOctets⟩) (n := 8 * streamOctets)
    (k := 8) hinside (Nat.le_refl _)
  simp only [firstWindow_eq_read, FrameWindow.valueOctet, FrameWindow.maskOctet, read, hoctet,
    hplace]

/-- An octet of the second window is an octet of the stream. -/
theorem octets_secondWindow (s : FrameStream) {i : Nat} (hi : i < windowOctets) :
    (⟨s.secondWindow.valueOctet i, s.secondWindow.maskOctet i⟩ : Masked Octet) =
      s.read (span (8 * (windowOctets + i)) 8) := by
  have hinside := FrameWindow.octetField_inside hi
  have hplace : (FrameWindow.octetField i).within ⟨0, 8 * windowOctets⟩ =
      span (8 * (windowOctets + i)) 8 := by
    simp only [BitField.within, FrameWindow.octetField, span, BitField.mk.injEq, and_true,
      windowOctets, streamOctets] at hi ⊢
    omega
  have hoctet := BitField.get_get (g := ⟨0, 8 * windowOctets⟩) (n := 8 * streamOctets) (k := 8)
    hinside (Nat.le_refl _)
  simp only [secondWindow_eq_read, FrameWindow.valueOctet, FrameWindow.maskOctet, read, hoctet,
    hplace]

/-- What lies apart from a number that is written is read as before. -/
theorem readAt_putAt_of_apart {count' start' : Nat} (hin : start + count ≤ streamOctets)
    (hin' : start' + count' ≤ streamOctets)
    (h : start' + count' ≤ start ∨ start + count ≤ start') (s : FrameStream)
    (field : Masked (BitVec (8 * count))) :
    ((s.putAt start field).readAt start' : Masked (BitVec (8 * count'))) = s.readAt start' := by
  have hdisjoint : (span (8 * start') (8 * count')).Disjoint (span (8 * start) (8 * count)) := by
    simp only [BitField.Disjoint, span]
    omega
  exact read_put_of_disjoint hdisjoint s field

/-- The octets of a number in the stream are octets of the stream. -/
theorem octet_eq_of_readAt {k : Nat} (hk : k < count) (hin : start + count ≤ streamOctets)
    (s : FrameStream) :
    s.octet (start + k) =
      (s.readAt start : Masked (BitVec (8 * count))).map
        fun v => v.extractLsb' (8 * (count - 1 - k)) 8 := by
  have hpart : 8 * (count - 1 - k) + 8 ≤ 8 * count := by omega
  have hplace : (⟨8 * (count - 1 - k), 8⟩ : BitField).within (span (8 * start) (8 * count)) =
      span (8 * (start + k)) 8 := by
    simp only [BitField.within, span, BitField.mk.injEq, and_true]
    omega
  have hoctet (w : BitVec (8 * streamOctets)) : ((span (8 * (start + k)) 8).get w : Octet) =
      ((span (8 * start) (8 * count)).get w : BitVec (8 * count)).extractLsb'
        (8 * (count - 1 - k)) 8 := by
    rw [← hplace, ← BitField.get_get (f := ⟨8 * (count - 1 - k), 8⟩) hpart (Nat.le_refl _)]
    exact BitVec.setWidth_eq _
  simp only [octet, readAt, read, Masked.map, hoctet]

/-- A number that is written is found octet by octet. -/
theorem octet_putAt (hin : start + count ≤ streamOctets) (hi : i < streamOctets)
    (s : FrameStream) (field : Masked (BitVec (8 * count))) :
    (s.putAt start field).octet i =
      if start ≤ i then field.octets.getD (i - start) (s.octet i) else s.octet i := by
  by_cases hinside : start ≤ i ∧ i < start + count
  · obtain ⟨k, rfl⟩ := Nat.exists_eq_add_of_le hinside.1
    have hk : k < count := Nat.lt_of_add_lt_add_left hinside.2
    have hspan : 8 * start + 8 * count ≤ 8 * streamOctets := by omega
    rw [octet_eq_of_readAt hk hin, readAt_putAt hspan, if_pos hinside.1, Nat.add_sub_cancel_left]
    simp [Masked.octets, hk]
  · have hapart := readAt_putAt_of_apart hin (show i + 1 ≤ streamOctets from hi) (by omega) s field
    have hkept : (s.putAt start field).octet i = s.octet i := hapart
    by_cases hlow : start ≤ i
    · have hbeyond : field.octets.length ≤ i - start := by
        rw [Masked.length_octets]
        omega
      rw [if_pos hlow, hkept, List.getD_eq_getElem?_getD, List.getElem?_eq_none hbeyond,
        Option.getD_none]
    · rw [if_neg hlow, hkept]

/-- The octets of a number in front of the border are in the first window. -/
theorem firstWindow_putAt (hin : start + count ≤ streamOctets) (s : FrameStream)
    (field : Masked (BitVec (8 * count))) :
    (s.putAt start field).firstWindow =
      s.firstWindow.putOctets start (field.octets.take (windowOctets - start)) := by
  refine FrameWindow.eq_of_octet fun i hi => ?_
  have hi' : i < streamOctets := Nat.lt_of_lt_of_le hi (by decide)
  have hroom : ∀ k < (field.octets.take (windowOctets - start)).length,
      start + k < windowOctets := by
    intro k hk
    rw [List.length_take] at hk
    omega
  have hkept : s.firstWindow.octet i = s.octet i := octets_firstWindow s hi
  rw [FrameWindow.octet_putOctets _ hroom hi, hkept]
  refine (octets_firstWindow _ hi).trans ((octet_putAt hin hi' s field).trans ?_)
  by_cases hlow : start ≤ i
  · have hbefore : i - start < windowOctets - start := by omega
    simp only [if_pos hlow, List.getD_eq_getElem?_getD, List.getElem?_take_of_lt hbefore]
  · simp only [if_neg hlow]

/-- The octets of a number behind the border are in the second window. -/
theorem secondWindow_putAt (hin : start + count ≤ streamOctets) (s : FrameStream)
    (field : Masked (BitVec (8 * count))) :
    (s.putAt start field).secondWindow =
      s.secondWindow.putOctets (start - windowOctets)
        (field.octets.drop (windowOctets - start)) := by
  refine FrameWindow.eq_of_octet fun i hi => ?_
  have hi' : windowOctets + i < streamOctets := Nat.add_lt_add_left hi windowOctets
  have hroom : ∀ k < (field.octets.drop (windowOctets - start)).length,
      start - windowOctets + k < windowOctets := by
    intro k hk
    rw [List.length_drop, Masked.length_octets] at hk
    simp only [windowOctets, streamOctets] at hin hk ⊢
    omega
  have hkept : s.secondWindow.octet i = s.octet (windowOctets + i) := octets_secondWindow s hi
  rw [FrameWindow.octet_putOctets _ hroom hi, hkept]
  refine (octets_secondWindow _ hi).trans ((octet_putAt hin hi' s field).trans ?_)
  by_cases hlow : start ≤ windowOctets + i
  · have hlow' : start - windowOctets ≤ i := by omega
    have hindex : windowOctets - start + (i - (start - windowOctets)) =
        windowOctets + i - start := by
      omega
    simp only [if_pos hlow, if_pos hlow', List.getD_eq_getElem?_getD, List.getElem?_drop, hindex]
  · have hlow' : ¬start - windowOctets ≤ i := by omega
    simp only [if_neg hlow, if_neg hlow']

/-- A number goes to the windows octet by octet, each to the window that it lies in. -/
theorem putAt_eq_ofWindows (hin : start + count ≤ streamOctets) (s : FrameStream)
    (field : Masked (BitVec (8 * count))) :
    s.putAt start field = ofWindows
      (s.firstWindow.putOctets start (field.octets.take (windowOctets - start)))
      (some (s.secondWindow.putOctets (start - windowOctets)
        (field.octets.drop (windowOctets - start)))) := by
  rw [← firstWindow_putAt hin, ← secondWindow_putAt hin, ofWindows_windows]

/-- The first window says all exactly if the second one is empty. -/
theorem ofWindows_firstWindow_eq_iff {s : FrameStream} :
    ofWindows s.firstWindow none = s ↔
      s.secondWindow.value = 0#_ ∧ s.secondWindow.mask = 0#_ := by
  rw [← Masked.eq_any_iff]
  constructor
  · intro h
    rw [← h, secondWindow_ofWindows]
    rfl
  · exact ofWindows_firstWindow

/-- Numbers of any count of octets are written and read as if there were no border between
the windows.  What is written at an octet is read back there, and what is read apart from
it is as before.  In the windows, its octets in front of the border are in the first one
and the others in the second.  Streams and pairs of windows are the same thing, and a first
window alone is the stream exactly if the second one is all zero. -/
theorem access_respects_windows (s : FrameStream) :
    (∀ (count start : Nat) (field : Masked (BitVec (8 * count))), start + count ≤ streamOctets →
      (s.putAt start field).readAt start = field ∧
      (∀ count' start' : Nat, start' + count' ≤ streamOctets →
        start' + count' ≤ start ∨ start + count ≤ start' →
        ((s.putAt start field).readAt start' : Masked (BitVec (8 * count'))) = s.readAt start') ∧
      s.putAt start field = ofWindows
        (s.firstWindow.putOctets start (field.octets.take (windowOctets - start)))
        (some (s.secondWindow.putOctets (start - windowOctets)
          (field.octets.drop (windowOctets - start))))) ∧
    ofWindows s.firstWindow (some s.secondWindow) = s ∧
    (∀ first second : FrameWindow, (ofWindows first (some second)).firstWindow = first ∧
      (ofWindows first (some second)).secondWindow = second) ∧
    (ofWindows s.firstWindow none = s ↔
      s.secondWindow.value = 0#_ ∧ s.secondWindow.mask = 0#_) := by
  refine ⟨fun count start field hin => ⟨?_, ?_, putAt_eq_ofWindows hin s field⟩,
    ofWindows_windows s, fun first second => ⟨firstWindow_ofWindows first _,
      secondWindow_ofWindows first _⟩, ofWindows_firstWindow_eq_iff⟩
  · exact readAt_putAt (by omega) s field
  · intro count' start' hin' hapart
    exact readAt_putAt_of_apart hin hin' hapart s field

/-- An address, compared but for its last octet. -/
def addressSample : Masked (BitVec (8 * 6)) :=
  ⟨0x001122334455#_, 0xffffffffff00#_⟩

/-- Written at octet 45 it has three octets in each window. -/
theorem access_respects_windows_addressSample :
    45 + 6 ≤ streamOctets ∧
      (putAt .any 45 addressSample).readAt 45 = addressSample ∧
      ((putAt .any 45 addressSample).readAt 51 : Masked (BitVec (8 * 4))) = readAt .any 51 ∧
      (putAt .any 45 addressSample).firstWindow.octet 47 = ⟨0x22#8, 0xff#8⟩ ∧
      (putAt .any 45 addressSample).secondWindow.octet 2 = ⟨0x55#8, 0x00#8⟩ ∧
      ofWindows (firstWindow .any) none = .any := by
  have hin : 45 + 6 ≤ streamOctets := by decide
  obtain ⟨hput, -, hwindows, hfirst⟩ := access_respects_windows .any
  obtain ⟨hback, hapart, hsplit⟩ := hput 6 45 addressSample hin
  refine ⟨hin, hback, hapart 4 51 (by decide) (by decide), ?_, ?_, hfirst.mpr ?_⟩
  · rw [hsplit, (hwindows _ _).1]
    decide +kernel
  · rw [hsplit, (hwindows _ _).2]
    decide +kernel
  · decide +kernel

end FrameStream

end Tcam
