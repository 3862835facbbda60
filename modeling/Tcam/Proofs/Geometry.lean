import Tcam.Proofs.Checks
import Tcam.Geometry

/-!
# Valid geometries

A geometry that passes validation has at most 256 slots, at least one of them
usable, and one or two window pages.
-/

namespace Tcam

/-- What validation promises about a geometry. -/
structure Geometry.Valid (g : Geometry) : Prop where
  block : g.blockAddr.isValid = true
  maxIndex_le : g.maxIndex ≤ maxSlotIndex
  minIndex_le : g.minIndex ≤ g.maxIndex
  windowPages : g.windowPages = 1#8 ∨ g.windowPages = 2#8

namespace Geometry

open Checks

theorem validate_eq_ok_iff {g : Geometry} : g.validate = .ok () ↔ g.Valid := by
  unfold validate
  simp only [throw_bind]
  simp only [throw_eq_error, pure_eq_ok, refuse_eq_ok_iff, Bool.not_eq_true', Bool.not_eq_false,
    BitVec.not_lt, Bool.or_eq_true, beq_iff_eq, and_true]
  exact ⟨fun ⟨hblock, hmax, hmin, hpages⟩ => ⟨hblock, hmax, hmin, hpages⟩,
    fun h => ⟨h.block, h.maxIndex_le, h.minIndex_le, h.windowPages⟩⟩

theorem hasWindowPage_eq_true {g : Geometry} (h : g.windowPages = 2#8) :
    g.hasWindowPage = true := by
  rw [hasWindowPage, h]
  rfl

theorem hasWindowPage_eq_false {g : Geometry} (h : g.windowPages = 1#8) :
    g.hasWindowPage = false := by
  rw [hasWindowPage, h]
  rfl

theorem checkSlot_eq_ok_iff {g : Geometry} {slot : SlotIndex} :
    g.checkSlot slot = .ok () ↔ g.minIndex ≤ slot ∧ slot ≤ g.maxIndex := by
  unfold checkSlot contains
  by_cases h : g.minIndex ≤ slot ∧ slot ≤ g.maxIndex
  · simp [h]
  · simp [h]

theorem checkSlot_eq_error_iff {g : Geometry} {slot : SlotIndex} {e : Error} :
    g.checkSlot slot = .error e ↔ ¬(g.minIndex ≤ slot ∧ slot ≤ g.maxIndex) ∧
      .invalidArgument (.slotOutsideTable slot g.minIndex g.maxIndex) = e := by
  unfold checkSlot contains
  by_cases h : g.minIndex ≤ slot ∧ slot ≤ g.maxIndex
  · simp [h]
  · simp [h]

theorem isRefusal_of_checkSlot {g : Geometry} {slot : SlotIndex} {e : Error}
    (h : g.checkSlot slot = .error e) : e.IsRefusal :=
  ⟨_, (checkSlot_eq_error_iff.mp h).2.symm⟩

end Geometry

end Tcam
