import Tcam.Proofs.Bits.Packing
import Tcam.Proofs.Checks
import Tcam.Proofs.Frame.Octets
import Tcam.Proofs.Masked
import Tcam.Slot.Check
import Tcam.Slot.Image

/-!
# Images of entries

The image of an entry that passes its check is valid and gives the entry back
(`entry_ofEntry`).  The image of a flushed slot is invalid and reads as the
default entry.  Slots of one page never hold anything in the window page
(`window_ofEntry`), so a load that leaves this page out loses nothing.  In the
other direction, whatever registers a slot holds, the entry that they describe
passes its check (`check_entry`).
-/

namespace Tcam

namespace BitField

variable {n m : Nat}

theorem fits_of_le (f : BitField) (h : m ≤ f.width) (v : BitVec m) : f.fits v = true := by
  rw [fits_iff]
  intro i hi
  exact BitVec.getLsbD_of_ge v i (Nat.le_trans h hi)

theorem fits_get (f : BitField) (w : BitVec n) : f.fits (f.get w : BitVec m) = true := by
  rw [fits_iff]
  intro i hi
  simp [getLsbD_get, Nat.not_lt.mpr hi]

@[simp] theorem set_zero_zero (f : BitField) : f.set 0#n 0#m = 0#n := by
  simp [set]

end BitField

namespace Layout

variable {α : Type} {n : Nat}

/-- The record `b` with every listed number replaced by the given one.  Copying takes
the numbers from another record, unpacking takes them from a word. -/
def assign (l : Layout α) (number : (c : Cell α) → BitVec c.size) (b : α) : α :=
  l.foldl (fun b c => c.set (number c) b) b

theorem copy_eq_assign (l : Layout α) (a b : α) : l.copy a b = l.assign (fun c => c.get a) b :=
  rfl

theorem unpack_eq_assign (l : Layout α) (w : BitVec n) (b : α) :
    l.unpack w b = l.assign (fun c => c.place.get w) b :=
  rfl

theorem assign_append (l l' : Layout α) (number : (c : Cell α) → BitVec c.size) (b : α) :
    (l ++ l').assign number b = l'.assign number (l.assign number b) := by
  simp [assign]

/-- A record of zeros leaves a word of zeros. -/
theorem pack_zero {l : Layout α} {a : α} (h : ∀ c ∈ l, c.get a = 0#c.size) :
    l.pack 0#n a = 0#n := by
  induction l with
  | nil => rfl
  | cons c l ih =>
      rw [pack_cons, h c List.mem_cons_self, BitField.set_zero_zero]
      exact ih (fun d hd => h d (List.mem_cons_of_mem c hd))

end Layout

/-! ## The layouts of the pages -/

theorem KeyMatch.layout_separate : KeyMatch.layout.Separate (16 * 27) := by
  decide

theorem KeyMatch.layout_covers : KeyMatch.layout.Covers := by
  intro a b
  rfl

theorem KeyMatch.layout_avoids_sentinel : KeyMatch.layout.Avoids SlotImage.sentinel := by
  decide

theorem Action.layout_separate : Action.layout.Separate (16 * 8) := by
  decide

theorem Action.layout_covers : Action.layout.Covers := by
  have hflag : ∀ b : Bool, (BitVec.ofBool b == 1#1) = b := by
    decide
  intro a b
  simp only [Action.layout, Layout.copy, List.foldl_cons, List.foldl_nil, Cell.flag, hflag,
    ForwardMode.ofBits_bits]

theorem ActionFields.referenceLayout_separate :
    ActionFields.referenceLayout.Separate (16 * 8) := by
  decide

theorem ActionFields.referenceLayout_fits (f : ActionFields) :
    ∀ c ∈ ActionFields.referenceLayout, c.fits f = true := by
  have hsize : ∀ c ∈ ActionFields.referenceLayout, c.size ≤ c.place.width := by
    decide
  exact fun c hc => BitField.fits_of_le c.place (hsize c hc) (c.get f)

/-- The reference layout lists all action fields but the action. -/
theorem ActionFields.copy_referenceLayout (f : ActionFields) (b : Bool) (next : Octet) :
    ActionFields.referenceLayout.copy f ⟨b, next, f.action⟩ = f := by
  have hflag : ∀ b : Bool, (BitVec.ofBool b == 1#1) = b := by
    decide
  simp only [ActionFields.referenceLayout, Layout.copy, List.foldl_cons, List.foldl_nil, Cell.flag,
    hflag]

theorem Action.layout_apart : Action.layout.Apart ActionFields.referenceLayout := by
  decide

namespace FrameWindow

theorem keyPageLayout_separate : keyPageLayout.Separate (16 * 27) := by
  decide +kernel

theorem windowPageLayout_separate : windowPageLayout.Separate (16 * 26) := by
  decide +kernel

theorem keyPageLayout_apart : KeyMatch.layout.Apart keyPageLayout := by
  decide +kernel

theorem keyPageLayout_avoids_sentinel : keyPageLayout.Avoids SlotImage.sentinel := by
  decide +kernel

/-- The end of a window's values or masks is zero exactly when its octets are. -/
theorem extractLsb'_eq_zero_iff (w : BitVec (8 * windowOctets)) (octets : Nat) :
    w.extractLsb' 0 (8 * (windowOctets - octets)) = 0#_ ↔
      ∀ i, octets ≤ i → i < windowOctets → ((octetField i).get w : Octet) = 0#8 := by
  constructor
  · intro h i hlow hi
    apply BitVec.eq_of_getLsbD_eq
    intro j hj
    have hbit := congrArg (fun u => u.getLsbD (8 * (windowOctets - 1 - i) + j)) h
    have hin : 8 * (windowOctets - 1 - i) + j < 8 * (windowOctets - octets) := by
      omega
    simp only [BitVec.getLsbD_extractLsb', hin, decide_true, Bool.true_and, Nat.zero_add,
      BitVec.getLsbD_zero] at hbit
    simp only [BitField.getLsbD_get, octetField, hbit, Bool.and_false, BitVec.getLsbD_zero]
  · intro h
    apply BitVec.eq_of_getLsbD_eq
    intro j hj
    have hlow : octets ≤ windowOctets - 1 - j / 8 := by
      omega
    have hlt : windowOctets - 1 - j / 8 < windowOctets := by
      simp only [windowOctets]
      omega
    have hj' : j < 8 * windowOctets := by
      omega
    rw [BitVec.getLsbD_extractLsb', Nat.zero_add, getLsbD_eq_octet w hj', h _ hlow hlt]
    simp

theorem comparesBeyond_eq_false_iff {w : FrameWindow} {octets : Nat} :
    w.comparesBeyond octets = false ↔
      ∀ i, octets ≤ i → i < windowOctets → w.maskOctet i = 0#8 := by
  rw [comparesBeyond, bne_eq_false_iff_eq]
  exact extractLsb'_eq_zero_iff w.mask octets

theorem hasValuesBeyond_eq_false_iff {w : FrameWindow} {octets : Nat} :
    w.hasValuesBeyond octets = false ↔
      ∀ i, octets ≤ i → i < windowOctets → w.valueOctet i = 0#8 := by
  rw [hasValuesBeyond, bne_eq_false_iff_eq]
  exact extractLsb'_eq_zero_iff w.value octets

/-- The value of octet `i` in a register. -/
abbrev valueCell (register i : Nat) : Cell FrameWindow :=
  ⟨"window value", Registers.field register 0 8, 8, fun w => w.valueOctet i,
    fun v w => { w with value := (octetField i).set w.value v }⟩

/-- The mask of octet `i` in a register. -/
abbrev maskCell (register i : Nat) : Cell FrameWindow :=
  ⟨"window mask", Registers.field register 8 8, 8, fun w => w.maskOctet i,
    fun v w => { w with mask := (octetField i).set w.mask v }⟩

variable {start count base : Nat}

theorem mem_octetLayout {c : Cell FrameWindow} :
    c ∈ octetLayout start count base ↔
      ∃ j < count, c = valueCell (base + j) (start + j) ∨ c = maskCell (base + j) (start + j) := by
  simp [octetLayout]

theorem octetLayout_succ (start count base : Nat) :
    octetLayout start (count + 1) base = octetLayout start count base ++
      [valueCell (base + count) (start + count), maskCell (base + count) (start + count)] := by
  simp [octetLayout, List.range_succ]

/-- The octets of a run are the given ones. -/
theorem octets_assign (number : (c : Cell FrameWindow) → BitVec c.size) (w : FrameWindow)
    (hend : start + count ≤ windowOctets) {j : Nat} (hj : j < count) :
    ((octetLayout start count base).assign number w).valueOctet (start + j) =
        number (valueCell (base + j) (start + j)) ∧
      ((octetLayout start count base).assign number w).maskOctet (start + j) =
        number (maskCell (base + j) (start + j)) := by
  -- The last octet of the run is assigned last.
  induction count with
  | zero => exact absurd hj (Nat.not_lt_zero j)
  | succ count ih =>
      have hlast : start + count < windowOctets := by
        omega
      have hthis : start + j < windowOctets := by
        omega
      rw [octetLayout_succ, Layout.assign_append]
      change (octetField (start + j)).get ((octetField (start + count)).set _ _) = _ ∧
        (octetField (start + j)).get ((octetField (start + count)).set _ _) = _
      rw [get_set_octetField hthis hlast, get_set_octetField hthis hlast]
      by_cases heq : j = count
      · rw [if_pos (by omega), if_pos (by omega), heq]
        exact ⟨rfl, rfl⟩
      · rw [if_neg (by omega), if_neg (by omega)]
        exact ih (by omega) (by omega)

/-- The other octets stay as they are. -/
theorem octets_assign_of_outside (number : (c : Cell FrameWindow) → BitVec c.size)
    (w : FrameWindow) (hend : start + count ≤ windowOctets) {i : Nat} (hi : i < windowOctets)
    (hout : ¬(start ≤ i ∧ i < start + count)) :
    ((octetLayout start count base).assign number w).valueOctet i = w.valueOctet i ∧
      ((octetLayout start count base).assign number w).maskOctet i = w.maskOctet i := by
  induction count with
  | zero => exact ⟨rfl, rfl⟩
  | succ count ih =>
      have hlast : start + count < windowOctets := by
        omega
      rw [octetLayout_succ, Layout.assign_append]
      change (octetField i).get ((octetField (start + count)).set _ _) = _ ∧
        (octetField i).get ((octetField (start + count)).set _ _) = _
      rw [get_set_octetField hi hlast, get_set_octetField hi hlast, if_neg (by omega),
        if_neg (by omega)]
      exact ih (by omega) (by omega)

/-- Copying a run of octets takes these octets from one window and the others
from the other one. -/
theorem copy_octetLayout (start base : Nat) {count : Nat} (hend : start + count ≤ windowOctets)
    (v w : FrameWindow) {i : Nat} (hi : i < windowOctets) :
    ((octetLayout start count base).copy v w).valueOctet i =
        (if start ≤ i ∧ i < start + count then v.valueOctet i else w.valueOctet i) ∧
      ((octetLayout start count base).copy v w).maskOctet i =
        if start ≤ i ∧ i < start + count then v.maskOctet i else w.maskOctet i := by
  rw [Layout.copy_eq_assign]
  by_cases hin : start ≤ i ∧ i < start + count
  · obtain ⟨j, rfl⟩ := Nat.exists_eq_add_of_le hin.1
    rw [if_pos hin, if_pos hin]
    exact octets_assign _ w hend (by omega)
  · rw [if_neg hin, if_neg hin]
    exact octets_assign_of_outside _ w hend hi hin

/-- A run of octets is read from its registers. -/
theorem get_unpack_octetLayout {n : Nat} (hend : start + count ≤ windowOctets) (w : BitVec n)
    (v : FrameWindow) :
    ∀ c ∈ octetLayout start count base,
      c.get ((octetLayout start count base).unpack w v) = c.place.get w := by
  intro c hc
  rw [Layout.unpack_eq_assign]
  obtain ⟨j, hj, rfl | rfl⟩ := mem_octetLayout.mp hc
  · exact (octets_assign _ v hend hj).1
  · exact (octets_assign _ v hend hj).2

theorem keyPage_end : 0 + keyPageOctets ≤ windowOctets := by
  decide

theorem windowPage_end : keyPageOctets + (windowOctets - keyPageOctets) ≤ windowOctets := by
  decide

/-- The window page does not tell the octets of the key page. -/
theorem octets_unpack_windowPage {n : Nat} (w : BitVec n) (v : FrameWindow) {i : Nat}
    (hi : i < keyPageOctets) :
    (windowPageLayout.unpack w v).valueOctet i = v.valueOctet i ∧
      (windowPageLayout.unpack w v).maskOctet i = v.maskOctet i := by
  rw [Layout.unpack_eq_assign]
  exact octets_assign_of_outside _ v windowPage_end (Nat.lt_trans hi (by decide)) (by omega)

/-- The two pages together list a whole window. -/
theorem copy_pages (v w : FrameWindow) :
    windowPageLayout.copy v (keyPageLayout.copy v w) = v := by
  have hkey {i : Nat} (hi : i < windowOctets) := copy_octetLayout 0 5 keyPage_end v w hi
  have hwindow {i : Nat} (hi : i < windowOctets) :=
    copy_octetLayout keyPageOctets 0 windowPage_end v (keyPageLayout.copy v w) hi
  apply eq_of_octets
  · intro i hi
    rw [windowPageLayout, (hwindow hi).1]
    split
    · rfl
    · rw [keyPageLayout, (hkey hi).1, if_pos (by omega)]
  · intro i hi
    rw [windowPageLayout, (hwindow hi).2]
    split
    · rfl
    · rw [keyPageLayout, (hkey hi).2, if_pos (by omega)]

theorem octetLayout_fits (start count base : Nat) (w : FrameWindow) :
    ∀ c ∈ octetLayout start count base, c.fits w = true := by
  intro c hc
  obtain ⟨j, -, rfl | rfl⟩ := mem_octetLayout.mp hc
  · exact BitField.fits_of_le _ (Nat.le_refl 8) (w.valueOctet (start + j))
  · exact BitField.fits_of_le _ (Nat.le_refl 8) (w.maskOctet (start + j))

end FrameWindow

theorem Geometry.octets_eq_keyPageOctets (g : Geometry) (hpage : g.hasWindowPage = false) :
    g.octets = keyPageOctets := by
  rw [octets, hpage]
  rfl

theorem Geometry.octets_eq_windowOctets (g : Geometry) (hpage : g.hasWindowPage = true) :
    g.octets = windowOctets := by
  rw [octets, hpage]
  rfl

/-- With a window page no window is too long. -/
theorem FrameWindow.beyond_eq_false_of_hasWindowPage (w : FrameWindow) {g : Geometry}
    (hpage : g.hasWindowPage = true) :
    w.comparesBeyond g.octets = false ∧ w.hasValuesBeyond g.octets = false := by
  rw [g.octets_eq_windowOctets hpage, comparesBeyond_eq_false_iff, hasValuesBeyond_eq_false_iff]
  exact ⟨fun _ hle hlt => absurd hlt (Nat.not_lt.mpr hle),
    fun _ hle hlt => absurd hlt (Nat.not_lt.mpr hle)⟩

/-- An entry passes its check exactly when its key and its action do and its
window ends where the windows of the table end. -/
theorem Entry.check_eq_ok_iff {e : Entry} {g : Geometry} :
    e.check g = .ok () ↔ e.key.check = .ok () ∧ e.fields.action.check = .ok () ∧
      e.window.comparesBeyond g.octets = false ∧ e.window.hasValuesBeyond g.octets = false := by
  unfold check
  simp only [Checks.bind_eq_ok_iff, ← Bool.or_eq_false_iff]
  cases hlong : e.window.comparesBeyond g.octets || e.window.hasValuesBeyond g.octets with
  | true =>
      constructor
      · rintro ⟨-, -, -, -, hthrow⟩
        exact nomatch hthrow
      · rintro ⟨-, -, hfalse⟩
        exact nomatch hfalse
  | false =>
      constructor
      · rintro ⟨⟨⟩, hkey, ⟨⟩, haction, -⟩
        exact ⟨hkey, haction, rfl⟩
      · rintro ⟨hkey, haction, -⟩
        exact ⟨(), hkey, (), haction, rfl⟩

/-- The same with the checks of key and action spelled out. -/
theorem Entry.check_eq_ok_iff_fits {e : Entry} {g : Geometry} :
    e.check g = .ok () ↔ (∀ c ∈ KeyMatch.layout, c.fits e.key = true) ∧
      (∀ c ∈ Action.layout, c.fits e.fields.action = true) ∧
      e.window.comparesBeyond g.octets = false ∧ e.window.hasValuesBeyond g.octets = false := by
  rw [check_eq_ok_iff, KeyMatch.check, Action.check, Layout.check_eq_ok_iff,
    Layout.check_eq_ok_iff]

theorem Entry.isRefusal_of_check {entry : Entry} {g : Geometry} {e : Error}
    (h : entry.check g = .error e) : e.IsRefusal := by
  unfold check at h
  rcases Checks.bind_eq_error_iff.mp h with hkey | ⟨_, -, h⟩
  · exact Layout.isRefusal_of_check hkey
  rcases Checks.bind_eq_error_iff.mp h with haction | ⟨_, -, h⟩
  · exact Layout.isRefusal_of_check haction
  · rw [Checks.throw_eq_error, Checks.pure_eq_ok, Checks.refuse_eq_error_iff] at h
    rcases h with ⟨-, rfl⟩ | ⟨-, h⟩
    · exact ⟨_, rfl⟩
    · exact nomatch h

namespace SlotImage

theorem sentinel_ofEntry (e : Entry) : sentinel.get (ofEntry e).key = loadedSentinel := by
  rw [ofEntry, Layout.get_pack_of_avoids FrameWindow.keyPageLayout_avoids_sentinel,
    Layout.get_pack_of_avoids KeyMatch.layout_avoids_sentinel,
    BitField.get_set_self _ _ _ (by decide)]
  rfl

/-- A sentinel shows in the first register of its page. -/
theorem sentinel_eq_zero {key : Registers 27} (h : key.get 0 = 0#16) :
    (sentinel.get key : Octet) = 0#8 := by
  apply BitVec.eq_of_getLsbD_eq
  intro i hi
  have hbit := congrArg (fun w => w.getLsbD i) h
  simp only [Registers.get, Registers.field, BitField.getLsbD_get, BitVec.getLsbD_zero] at hbit
  have hlt : i < 16 := by
    omega
  simp only [hlt, decide_true, Bool.true_and] at hbit
  simp only [sentinel, Registers.field, BitField.getLsbD_get, hbit, Bool.and_false,
    BitVec.getLsbD_zero]

@[simp] theorem isValid_ofEntry (e : Entry) : (ofEntry e).isValid = true := by
  rw [isValid, sentinel_ofEntry]
  decide

@[simp] theorem isValid_empty : empty.isValid = false := by
  decide +kernel

@[simp] theorem entry_empty : empty.entry = default := by
  decide +kernel

/-! ## What the image of an entry holds

Each number is read from its own places, which the others leave alone.
-/

theorem get_ofEntry_key {e : Entry} (hkey : e.key.check = .ok ()) :
    ∀ c ∈ KeyMatch.layout, c.place.get (ofEntry e).key = c.get e.key := by
  intro c hc
  rw [ofEntry, Layout.get_pack_of_avoids (FrameWindow.keyPageLayout_apart c hc)]
  exact Layout.get_pack_of_mem KeyMatch.layout_separate hc _ e.key
    (Layout.check_eq_ok_iff.mp hkey c hc)

theorem get_ofEntry_keyPage (e : Entry) :
    ∀ c ∈ FrameWindow.keyPageLayout, c.place.get (ofEntry e).key = c.get e.window :=
  fun c hc => Layout.get_pack_of_mem FrameWindow.keyPageLayout_separate hc _ e.window
    (FrameWindow.octetLayout_fits _ _ _ e.window c hc)

theorem get_ofEntry_windowPage (e : Entry) :
    ∀ c ∈ FrameWindow.windowPageLayout, c.place.get (ofEntry e).window = c.get e.window :=
  fun c hc => Layout.get_pack_of_mem FrameWindow.windowPageLayout_separate hc _ e.window
    (FrameWindow.octetLayout_fits _ _ _ e.window c hc)

theorem get_ofEntry_action {e : Entry} (haction : e.fields.action.check = .ok ()) :
    ∀ c ∈ Action.layout, c.place.get (ofEntry e).action = c.get e.fields.action := by
  intro c hc
  rw [ofEntry, Layout.get_pack_of_avoids (Action.layout_apart c hc)]
  exact Layout.get_pack_of_mem Action.layout_separate hc _ e.fields.action
    (Layout.check_eq_ok_iff.mp haction c hc)

theorem get_ofEntry_reference (e : Entry) :
    ∀ c ∈ ActionFields.referenceLayout, c.place.get (ofEntry e).action = c.get e.fields :=
  fun c hc => Layout.get_pack_of_mem ActionFields.referenceLayout_separate hc _ e.fields
    (ActionFields.referenceLayout_fits e.fields c hc)

/-- The image of an entry whose numbers fit gives the entry back. -/
theorem entry_ofEntry {e : Entry} (hkey : e.key.check = .ok ())
    (haction : e.fields.action.check = .ok ()) : (ofEntry e).entry = e := by
  have hkeys : KeyMatch.layout.unpack (ofEntry e).key .any = e.key := by
    rw [Layout.unpack_eq_copy (get_ofEntry_key hkey)]
    exact KeyMatch.layout_covers e.key .any
  have hfirst : FrameWindow.keyPageLayout.unpack (ofEntry e).key .any =
      FrameWindow.keyPageLayout.copy e.window .any :=
    Layout.unpack_eq_copy (get_ofEntry_keyPage e) .any
  have hwindow : FrameWindow.windowPageLayout.unpack (ofEntry e).window
      (FrameWindow.keyPageLayout.copy e.window .any) = e.window := by
    rw [Layout.unpack_eq_copy (get_ofEntry_windowPage e)]
    exact FrameWindow.copy_pages e.window .any
  have hact : Action.layout.unpack (ofEntry e).action default = e.fields.action := by
    rw [Layout.unpack_eq_copy (get_ofEntry_action haction)]
    exact Action.layout_covers e.fields.action default
  have hfields : ActionFields.referenceLayout.unpack (ofEntry e).action
      ⟨false, 0#8, e.fields.action⟩ = e.fields := by
    rw [Layout.unpack_eq_copy (get_ofEntry_reference e)]
    exact ActionFields.copy_referenceLayout e.fields false 0#8
  rw [entry, hkeys, hfirst, hwindow, hact, hfields]

/-- On a table without window pages an entry has nothing for the window page. -/
theorem window_ofEntry {e : Entry} {g : Geometry} (hcheck : e.check g = .ok ())
    (hpage : g.hasWindowPage = false) : (ofEntry e).window = 0#(16 * 26) := by
  obtain ⟨-, -, hmask, hvalue⟩ := Entry.check_eq_ok_iff.mp hcheck
  rw [g.octets_eq_keyPageOctets hpage] at hmask hvalue
  apply Layout.pack_zero
  intro c hc
  obtain ⟨j, hj, hcell⟩ := FrameWindow.mem_octetLayout.mp hc
  have hlt : keyPageOctets + j < windowOctets := by
    omega
  rcases hcell with rfl | rfl
  · exact FrameWindow.hasValuesBeyond_eq_false_iff.mp hvalue _ (Nat.le_add_right _ j) hlt
  · exact FrameWindow.comparesBeyond_eq_false_iff.mp hmask _ (Nat.le_add_right _ j) hlt

/-! ## What the registers say -/

theorem get_entry_key (image : SlotImage) :
    ∀ c ∈ KeyMatch.layout, c.get image.entry.key = c.place.get image.key := by
  simp only [KeyMatch.layout, List.forall_mem_cons, List.not_mem_nil, false_imp_iff,
    implies_true, and_true]
  exact ⟨rfl, rfl, rfl, rfl, rfl, rfl, rfl, rfl, rfl, rfl⟩

theorem get_entry_action (image : SlotImage) :
    ∀ c ∈ Action.layout, c.get image.entry.fields.action = c.place.get image.action := by
  have hflag : ∀ b : BitVec 1, BitVec.ofBool (b == 1#1) = b := by
    decide
  have hmode : ∀ b : BitVec 2, (ForwardMode.ofBits b).bits = b := by
    decide
  simp only [Action.layout, List.forall_mem_cons, List.not_mem_nil, false_imp_iff,
    implies_true, and_true]
  exact ⟨hflag _, hflag _, hflag _, rfl, hflag _, rfl, hflag _, rfl, hmode _, rfl, rfl,
    hflag _, hflag _, rfl, rfl, hflag _, rfl, hflag _, rfl, hflag _, rfl, rfl, hflag _, rfl,
    hflag _, rfl⟩

theorem get_entry_reference (image : SlotImage) :
    ∀ c ∈ ActionFields.referenceLayout, c.get image.entry.fields = c.place.get image.action := by
  have hflag : ∀ b : BitVec 1, BitVec.ofBool (b == 1#1) = b := by
    decide
  simp only [ActionFields.referenceLayout, List.forall_mem_cons, List.not_mem_nil,
    false_imp_iff, implies_true, and_true]
  exact ⟨hflag _, rfl⟩

theorem get_entry_keyPage (image : SlotImage) :
    ∀ c ∈ FrameWindow.keyPageLayout, c.get image.entry.window = c.place.get image.key := by
  intro c hc
  have hread := FrameWindow.get_unpack_octetLayout FrameWindow.keyPage_end image.key .any c hc
  obtain ⟨j, hj, hcell⟩ := FrameWindow.mem_octetLayout.mp hc
  have hkept := FrameWindow.octets_unpack_windowPage image.window
    (FrameWindow.keyPageLayout.unpack image.key .any)
    (show 0 + j < keyPageOctets from (Nat.zero_add j).symm ▸ hj)
  rcases hcell with rfl | rfl
  · exact hkept.1.trans hread
  · exact hkept.2.trans hread

theorem get_entry_windowPage (image : SlotImage) :
    ∀ c ∈ FrameWindow.windowPageLayout, c.get image.entry.window = c.place.get image.window :=
  FrameWindow.get_unpack_octetLayout FrameWindow.windowPage_end image.window _

/-- Without a window page the window of a slot ends where the key page ends. -/
theorem octets_entry (image : SlotImage) (hwindow : image.window = 0#(16 * 26)) {i : Nat}
    (hlow : keyPageOctets ≤ i) (hi : i < windowOctets) :
    image.entry.window.valueOctet i = 0#8 ∧ image.entry.window.maskOctet i = 0#8 := by
  obtain ⟨j, rfl⟩ := Nat.exists_eq_add_of_le hlow
  have hj : j < windowOctets - keyPageOctets := by
    omega
  have hread (c : Cell FrameWindow)
      (hc : c = FrameWindow.valueCell (0 + j) (keyPageOctets + j) ∨
        c = FrameWindow.maskCell (0 + j) (keyPageOctets + j)) : c.get image.entry.window = 0#c.size := by
    rw [image.get_entry_windowPage c (FrameWindow.mem_octetLayout.mpr ⟨j, hj, hc⟩), hwindow,
      BitField.get_zero]
  exact ⟨hread _ (Or.inl rfl), hread _ (Or.inr rfl)⟩

theorem check_entry_key (image : SlotImage) : image.entry.key.check = .ok () := by
  rw [KeyMatch.check, Layout.check_eq_ok_iff]
  intro c hc
  rw [Cell.fits, image.get_entry_key c hc]
  exact BitField.fits_get c.place image.key

theorem check_entry_action (image : SlotImage) : image.entry.fields.action.check = .ok () := by
  rw [Action.check, Layout.check_eq_ok_iff]
  intro c hc
  rw [Cell.fits, image.get_entry_action c hc]
  exact BitField.fits_get c.place image.action

/-- Whatever registers a slot holds, the entry that they describe fits. -/
theorem check_entry (image : SlotImage) {g : Geometry}
    (hpage : g.hasWindowPage = false → image.window = 0#(16 * 26)) :
    image.entry.check g = .ok () := by
  rw [Entry.check_eq_ok_iff]
  refine ⟨image.check_entry_key, image.check_entry_action, ?_⟩
  cases hhas : g.hasWindowPage with
  | true => exact FrameWindow.beyond_eq_false_of_hasWindowPage _ hhas
  | false =>
      rw [g.octets_eq_keyPageOctets hhas, FrameWindow.comparesBeyond_eq_false_iff,
        FrameWindow.hasValuesBeyond_eq_false_iff]
      exact ⟨fun _ hlow hi => (image.octets_entry (hpage hhas) hlow hi).2,
        fun _ hlow hi => (image.octets_entry (hpage hhas) hlow hi).1⟩

end SlotImage

end Tcam
