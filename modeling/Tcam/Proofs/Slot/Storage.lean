import Tcam.Proofs.Slot.Image

/-!
# What a slot keeps

The two directions of storing an entry.  A load keeps every bit of a slot that has a
meaning: writing back what the registers of a slot describe sets the sentinel and clears the
reserved bits, and changes nothing else (`ofEntry_entry`).  And the check of an entry is
exact: it accepts the entries that a slot gives back unchanged and no others
(`Entry.check_eq_ok_iff_kept`).
-/

namespace Tcam

namespace BitField

variable {n : Nat} {places fields : List BitField}

/-- The bits of an `n`-bit word that belong to some of the fields. -/
def union (fields : List BitField) (n : Nat) : BitVec n :=
  fields.foldr (fun f w => f.mask n ||| w) 0#n

theorem getLsbD_union (fields : List BitField) {i : Nat} (hi : i < n) :
    (union fields n).getLsbD i = true ↔ ∃ f ∈ fields, f.Contains i := by
  induction fields with
  | nil => simp [union]
  | cons f fields ih =>
      have hmask : (f.mask n).getLsbD i = true ↔ f.Contains i := by
        rw [getLsbD_mask]
        simp [hi, Contains]
      rw [union, List.foldr_cons, ← union, BitVec.getLsbD_or, Bool.or_eq_true, hmask, ih]
      simp

/-- The word with the fields cleared. -/
def clear (fields : List BitField) (w : BitVec n) : BitVec n :=
  w &&& ~~~union fields n

theorem clear_nil (w : BitVec n) : clear [] w = w := by
  simp [clear, union]

/-- The fields are the bits of an `n`-bit word that belong to none of the places. -/
def Reserved (places fields : List BitField) (n : Nat) : Prop :=
  union fields n = ~~~union places n

instance (places fields : List BitField) (n : Nat) : Decidable (Reserved places fields n) :=
  inferInstanceAs (Decidable (_ = _))

/-- A word that holds the places of another one and nothing else is that word with the
reserved bits cleared. -/
theorem eq_clear_of_reserved (h : Reserved places fields n) {v w : BitVec n}
    (hplaces : ∀ p ∈ places, ∀ i, p.Contains i → v.getLsbD i = w.getLsbD i)
    (hrest : ∀ i, (∀ p ∈ places, ¬p.Contains i) → v.getLsbD i = false) :
    v = clear fields w := by
  rw [clear, h, BitVec.not_not]
  apply BitVec.eq_of_getLsbD_eq
  intro i hi
  rw [Bool.eq_iff_iff, BitVec.getLsbD_and, Bool.and_eq_true, getLsbD_union places hi]
  by_cases hplace : ∃ p ∈ places, p.Contains i
  · obtain ⟨p, hp, hcontains⟩ := hplace
    rw [hplaces p hp i hcontains]
    exact ⟨fun htrue => ⟨htrue, p, hp, hcontains⟩, And.left⟩
  · rw [hrest i fun p hp hcontains => hplace ⟨p, hp, hcontains⟩]
    exact ⟨Bool.false_ne_true.elim, fun hkept => absurd hkept.2 hplace⟩

end BitField

namespace Layout

variable {α : Type} {n : Nat}

/-- The places of a layout. -/
def places (l : Layout α) : List BitField :=
  l.map fun c => c.place

theorem forall_mem_places {l : Layout α} {p : BitField → Prop} :
    (∀ f ∈ l.places, p f) ↔ ∀ c ∈ l, p c.place :=
  List.forall_mem_map

/-- Every number has room for all bits of its place. -/
def Roomy (l : Layout α) : Prop :=
  ∀ c ∈ l, c.place.width ≤ c.size

instance (l : Layout α) : Decidable l.Roomy :=
  inferInstanceAs (Decidable (∀ c ∈ l, _))

/-- Words that read alike have the same bits in the places. -/
theorem getLsbD_eq_of_get_eq {l : Layout α} (hroomy : l.Roomy) {v w : BitVec n}
    (h : ∀ c ∈ l, (c.place.get v : BitVec c.size) = c.place.get w) :
    ∀ p ∈ l.places, ∀ i, p.Contains i → v.getLsbD i = w.getLsbD i := by
  rw [forall_mem_places]
  intro c hc i hi
  rw [BitField.getLsbD_eq_of_contains hi (hroomy c hc), h c hc,
    ← BitField.getLsbD_eq_of_contains hi (hroomy c hc)]

end Layout

open Registers (field)

namespace SlotImage

/-- The bits of the key page that no number of an entry occupies. -/
def reservedInKey : List BitField :=
  [field 0 8 5, field 1 11 2, field 2 15 1, field 3 11 5, field 4 15 1]

/-- The bits of the action page that no number of an entry occupies. -/
def reservedInAction : List BitField :=
  [field 2 11 3, field 3 6 2, field 3 14 2, field 4 7 5, field 6 2 6, field 6 14 1, field 7 8 7]

/-- The image with the sentinel of a loaded slot and without its reserved bits. -/
def normalised (s : SlotImage) : SlotImage where
  key := BitField.clear reservedInKey (sentinel.set s.key loadedSentinel)
  window := s.window
  action := BitField.clear reservedInAction s.action

theorem reserved_key :
    BitField.Reserved
      (sentinel :: (KeyMatch.layout.places ++ FrameWindow.keyPageLayout.places))
      reservedInKey (16 * 27) := by
  decide +kernel

theorem reserved_window :
    BitField.Reserved FrameWindow.windowPageLayout.places [] (16 * 26) := by
  decide +kernel

theorem reserved_action :
    BitField.Reserved (Action.layout.places ++ ActionFields.referenceLayout.places)
      reservedInAction (16 * 8) := by
  decide +kernel

theorem keyLayout_roomy : KeyMatch.layout.Roomy := by
  decide

theorem actionLayout_roomy : Action.layout.Roomy ∧ ActionFields.referenceLayout.Roomy := by
  decide

theorem octetLayout_roomy (start count base : Nat) :
    (FrameWindow.octetLayout start count base).Roomy := by
  intro c hc
  obtain ⟨j, -, rfl | rfl⟩ := FrameWindow.mem_octetLayout.mp hc
  · exact Nat.le_refl 8
  · exact Nat.le_refl 8

theorem key_ofEntry_entry (s : SlotImage) : (ofEntry s.entry).key = s.normalised.key := by
  apply BitField.eq_clear_of_reserved reserved_key
  · rw [List.forall_mem_cons, List.forall_mem_append]
    refine ⟨?sentinel, ?numbers, ?octets⟩
    case sentinel =>
      intro i hi
      rw [BitField.getLsbD_eq_of_contains hi (Nat.le_refl 8), sentinel_ofEntry,
        BitField.getLsbD_eq_of_contains hi (Nat.le_refl 8),
        BitField.get_set_self _ _ _ (by decide)]
      rfl
    -- Setting the sentinel does not change what the other places read.
    case numbers =>
      apply Layout.getLsbD_eq_of_get_eq keyLayout_roomy
      intro c hc
      rw [get_ofEntry_key s.check_entry_key c hc, s.get_entry_key c hc,
        BitField.get_set_of_disjoint
          (BitField.disjoint_comm (KeyMatch.layout_avoids_sentinel c hc))]
    case octets =>
      apply Layout.getLsbD_eq_of_get_eq (octetLayout_roomy _ _ _)
      intro c hc
      rw [get_ofEntry_keyPage s.entry c hc, s.get_entry_keyPage c hc,
        BitField.get_set_of_disjoint
          (BitField.disjoint_comm (FrameWindow.keyPageLayout_avoids_sentinel c hc))]
  · intro i hfree
    rw [List.forall_mem_cons, List.forall_mem_append, Layout.forall_mem_places,
      Layout.forall_mem_places] at hfree
    obtain ⟨hsentinel, hkey, hoctets⟩ := hfree
    rw [ofEntry, Layout.getLsbD_pack_of_outside hoctets, Layout.getLsbD_pack_of_outside hkey,
      BitField.getLsbD_set_of_not_contains hsentinel, BitVec.getLsbD_zero]

theorem window_ofEntry_entry (s : SlotImage) : (ofEntry s.entry).window = s.window := by
  rw [← BitField.clear_nil s.window]
  apply BitField.eq_clear_of_reserved reserved_window
  · apply Layout.getLsbD_eq_of_get_eq (octetLayout_roomy _ _ _)
    intro c hc
    rw [get_ofEntry_windowPage s.entry c hc, s.get_entry_windowPage c hc]
  · intro i hfree
    rw [Layout.forall_mem_places] at hfree
    rw [ofEntry, Layout.getLsbD_pack_of_outside hfree, BitVec.getLsbD_zero]

theorem action_ofEntry_entry (s : SlotImage) :
    (ofEntry s.entry).action = s.normalised.action := by
  apply BitField.eq_clear_of_reserved reserved_action
  · rw [List.forall_mem_append]
    refine ⟨?numbers, ?reference⟩
    case numbers =>
      apply Layout.getLsbD_eq_of_get_eq actionLayout_roomy.1
      intro c hc
      rw [get_ofEntry_action s.check_entry_action c hc, s.get_entry_action c hc]
    case reference =>
      apply Layout.getLsbD_eq_of_get_eq actionLayout_roomy.2
      intro c hc
      rw [get_ofEntry_reference s.entry c hc, s.get_entry_reference c hc]
  · intro i hfree
    rw [List.forall_mem_append, Layout.forall_mem_places, Layout.forall_mem_places] at hfree
    obtain ⟨haction, hreference⟩ := hfree
    rw [ofEntry, Layout.getLsbD_pack_of_outside hreference,
      Layout.getLsbD_pack_of_outside haction, BitVec.getLsbD_zero]

/-- Writing back what a slot describes sets its sentinel, clears its reserved bits and
keeps everything else, whatever the registers held.  So the slot describes the same entry
as before, and the numbers of that entry fit. -/
theorem ofEntry_entry (s : SlotImage) :
    ofEntry s.entry = s.normalised ∧ (ofEntry s.entry).entry = s.entry ∧
      s.entry.key.check = .ok () ∧ s.entry.fields.action.check = .ok () := by
  refine ⟨?_, entry_ofEntry s.check_entry_key s.check_entry_action, s.check_entry_key,
    s.check_entry_action⟩
  rw [SlotImage.mk.injEq]
  exact ⟨s.key_ofEntry_entry, s.window_ofEntry_entry, s.action_ofEntry_entry⟩

example :
    (ofEntry (SlotImage.mk (.allOnes _) (.allOnes _) (.allOnes _)).entry).action.toList =
      [0xffff#16, 0xffff#16, 0xc7ff#16, 0x3f3f#16, 0xf07f#16, 0xffff#16, 0xbf03#16,
        0x80ff#16] := by
  decide +kernel

/-- What a table of the geometry has of an image: without window pages the octets behind
the key page read as zeros. -/
def kept (g : Geometry) (image : SlotImage) : SlotImage :=
  if g.hasWindowPage then image else { image with window := 0#(16 * 26) }

theorem kept_window {g : Geometry} (hpage : g.hasWindowPage = false) (image : SlotImage) :
    (kept g image).window = 0#(16 * 26) := by
  rw [kept, hpage]
  rfl

theorem kept_ofEntry {e : Entry} {g : Geometry} (hcheck : e.check g = .ok ()) :
    kept g (ofEntry e) = ofEntry e := by
  cases hpage : g.hasWindowPage with
  | true => rw [kept, hpage, if_pos rfl]
  | false =>
      rw [kept, hpage, ← window_ofEntry hcheck hpage]
      rfl

end SlotImage

/-- The check of an entry is exact: it accepts an entry if and only if a slot of the table
would give it back as it is. -/
theorem Entry.check_eq_ok_iff_kept (e : Entry) (g : Geometry) :
    e.check g = .ok () ↔
      (SlotImage.kept g (.ofEntry e)).isValid = true ∧
        (SlotImage.kept g (.ofEntry e)).entry = e := by
  constructor
  · intro hcheck
    obtain ⟨hkey, haction, -⟩ := Entry.check_eq_ok_iff.mp hcheck
    rw [SlotImage.kept_ofEntry hcheck]
    exact ⟨SlotImage.isValid_ofEntry e, SlotImage.entry_ofEntry hkey haction⟩
  · rintro ⟨-, hentry⟩
    rw [← hentry]
    exact SlotImage.check_entry _ fun hpage => SlotImage.kept_window hpage _

end Tcam
