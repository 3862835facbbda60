import Tcam.Proofs.Device.Loading

/-!
# How far a change reaches

`Device.ChangesWithin` bounds what has happened to the slots of a device: which
slots may differ at all, and in which of them a window page that the table does not
have may differ.  Loads leave such a page alone, so only a flush reaches it.
-/

namespace Tcam.Device

variable {g : Geometry} {d d₁ d' : Device g} {touched touched' flushed flushed' : SlotIndex → Prop}

/-- The window page of a slot, whether the table uses that page or not. -/
def windowPage (d : Device g) (i : SlotIndex) : Registers 26 :=
  ((d.slot? i).getD .empty).window

/-- Only the slots in `touched` may differ.  Without window pages in use, a window
page differs in the slots in `flushed` only, and there it is empty. -/
structure ChangesWithin (touched flushed : SlotIndex → Prop) (d d' : Device g) : Prop where
  slot : ∀ i, ¬touched i → d'.slot? i = d.slot? i
  window : g.hasWindowPage = false → ∀ i, d'.windowPage i = d.windowPage i ∨
    flushed i ∧ d'.windowPage i = SlotImage.empty.window

namespace ChangesWithin

theorem of_slots (h : d'.slots = d.slots) : ChangesWithin touched flushed d d' where
  slot i _ := slot?_congr h i
  window _ i := by
    unfold windowPage
    rw [slot?_congr h]
    exact Or.inl rfl

theorem refl (d : Device g) : ChangesWithin touched flushed d d :=
  of_slots rfl

theorem trans (h : ChangesWithin touched flushed d d₁) (h' : ChangesWithin touched flushed d₁ d') :
    ChangesWithin touched flushed d d' where
  slot i hi := (h'.slot i hi).trans (h.slot i hi)
  window hpage i := by
    rcases h'.window hpage i with hkept | hempty
    · rw [hkept]
      exact h.window hpage i
    · exact Or.inr hempty

theorem mono (h : ChangesWithin touched flushed d d') (htouched : ∀ i, touched i → touched' i)
    (hflushed : ∀ i, flushed i → flushed' i) : ChangesWithin touched' flushed' d d' where
  slot i hi := h.slot i fun hin => hi (htouched i hin)
  window hpage i := (h.window hpage i).imp_right (And.imp_left (hflushed i))

theorem of_flushedAll (h : d'.slots = Vector.replicate _ .empty) :
    ChangesWithin (fun _ => True) (fun _ => True) d d' where
  slot _ hi := absurd trivial hi
  window _ i := by
    refine Or.inr ⟨trivial, ?_⟩
    unfold windowPage slot?
    rw [h, Vector.getElem?_replicate]
    split
    · rfl
    · rfl

theorem of_flushed {slot : SlotIndex} (h : d'.slots = (d.flushed slot).slots) :
    ChangesWithin (fun i => i = slot) (fun i => i = slot) d d' where
  slot i hi := by
    rw [slot?_of_flushed h, if_neg hi]
  window _ i := by
    unfold windowPage
    rw [slot?_getD_of_flushed h]
    by_cases hi : i = slot
    · rw [if_pos hi]
      exact Or.inr ⟨hi, rfl⟩
    · rw [if_neg hi]
      exact Or.inl rfl

/-- A load replaces pages that the table uses. -/
theorem of_loaded {slot : SlotIndex} {image : SlotImage} {pages : List Page}
    (hpages : pages <+: g.loadOrder) (h : d'.slots = d.loaded slot image pages) :
    ChangesWithin (fun i => i = slot) (fun _ => False) d d' where
  slot i hi := slot?_of_loaded_of_ne h hi
  window hpage i := by
    refine Or.inl ?_
    have hunused : Page.window ∉ pages := by
      intro hmem
      have hused := hpages.subset hmem
      unfold Geometry.loadOrder at hused
      rw [hpage] at hused
      exact absurd hused (by decide)
    have hkept (old : SlotImage) : (old.withPages image pages).window = old.window := by
      have hwindow := SlotImage.page_withPages old image pages .window
      rw [if_neg hunused] at hwindow
      exact hwindow
    unfold windowPage
    rw [slot?_of_loaded h]
    by_cases hi : i = slot
    · rw [if_pos hi, hi]
      cases d.slot? slot with
      | none => rfl
      | some old => exact hkept old
    · rw [if_neg hi]

end ChangesWithin

end Tcam.Device
