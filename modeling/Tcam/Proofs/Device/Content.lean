import Tcam.Proofs.Device.Execute
import Tcam.Proofs.Slot.Storage
import Tcam.Table.Operations

/-!
# What the slots of a device hold

The slots as the operations of a table see them: what a read returns, what a
search finds, and what a load leaves.  All of this depends on the slots alone,
and a read gives an entry that fits whatever the registers hold.
-/

namespace Tcam

/-- The image with the listed pages taken from another one. -/
def SlotImage.withPages (old new : SlotImage) (pages : List Page) : SlotImage :=
  pages.foldl (fun image page => image.setPage page (new.page page)) old

/-- The pages of a slot in the order in which a load writes them. -/
def Geometry.loadOrder (g : Geometry) : List Page :=
  if g.hasWindowPage then [.action, .window, .key] else [.action, .key]

namespace Device

variable {g : Geometry}

/-- The image of a slot as a read sees it, without the page that the table does
not have. -/
def shown (d : Device g) (slot : SlotIndex) : SlotImage :=
  let image := (d.slot? slot).getD .empty
  if g.hasWindowPage then image else { image with window := SlotImage.empty.window }

/-- What a read of the slot returns. -/
def content (d : Device g) (slot : SlotIndex) : Slot :=
  ⟨slot, (d.shown slot).isValid, (d.shown slot).entry⟩

theorem content_congr {d d' : Device g} (h : d'.slots = d.slots) (slot : SlotIndex) :
    d'.content slot = d.content slot := by
  unfold content shown
  rw [slot?_congr h]

/-- A read sees what a table of the geometry has of an image. -/
theorem shown_eq_kept (d : Device g) (slot : SlotIndex) :
    d.shown slot = SlotImage.kept g ((d.slot? slot).getD .empty) :=
  rfl

theorem check_content (d : Device g) (slot : SlotIndex) :
    (d.content slot).entry.check g = .ok () := by
  rw [content, shown_eq_kept]
  exact SlotImage.check_entry _ fun hpage => SlotImage.kept_window hpage _

/-- The slot in which the entry at a slot continues. -/
def next? (d : Device g) (slot : SlotIndex) : Option SlotIndex :=
  (d.content slot).entry.next?

/-- The device once a slot is flushed. -/
abbrev flushed (d : Device g) (slot : SlotIndex) : Device g :=
  d.updateSlot slot fun _ => .empty

theorem flushed_congr {d d' : Device g} (h : d'.slots = d.slots) (slot : SlotIndex) :
    (d'.flushed slot).slots = (d.flushed slot).slots :=
  updateSlot_slots_congr h slot _

/-- The slots after the listed pages of a slot have been loaded. -/
def loaded (d : Device g) (slot : SlotIndex) (image : SlotImage) (pages : List Page) :
    Vector SlotImage (g.maxIndex.toNat + 1) :=
  (d.updateSlot slot fun old => old.withPages image pages).slots

theorem loaded_congr {d d' : Device g} (h : d'.slots = d.slots) (slot : SlotIndex)
    (image : SlotImage) (pages : List Page) :
    d'.loaded slot image pages = d.loaded slot image pages :=
  updateSlot_slots_congr h slot _

theorem loaded_nil (d : Device g) (slot : SlotIndex) (image : SlotImage) :
    d.loaded slot image [] = d.slots :=
  d.updateSlot_self slot

/-- Loading page by page. -/
theorem loaded_cons {d d' : Device g} {slot : SlotIndex} {image : SlotImage} {page : Page}
    (h : d'.slots = d.loaded slot image [page]) (pages : List Page) :
    d'.loaded slot image pages = d.loaded slot image (page :: pages) := by
  unfold loaded at h ⊢
  rw [updateSlot_slots_congr h, updateSlot_updateSlot]
  rfl

/-- The commands that load the listed pages of a slot. -/
def loads (slot : SlotIndex) (pages : List Page) : List Command :=
  pages.map fun page => ⟨.load, page, slot⟩

/-- From `d` to `d'` the listed pages of the image have been loaded into the slot,
and no other command has been executed. -/
structure Loads (d : Device g) (slot : SlotIndex) (image : SlotImage) (pages : List Page)
    (d' : Device g) : Prop where
  slots : d'.slots = d.loaded slot image pages
  history : d'.history = (loads slot pages).reverse ++ d.history

section Loads

variable {d d₁ d' : Device g} {slot : SlotIndex} {image : SlotImage} {pages : List Page}

theorem Loads.nil (hslots : d'.slots = d.slots) (hhistory : d'.history = d.history) :
    d.Loads slot image [] d' :=
  ⟨hslots.trans (d.loaded_nil slot image).symm, hhistory⟩

theorem Loads.cons {page : Page} (h : d.Loads slot image [page] d₁)
    (h' : d₁.Loads slot image pages d') : d.Loads slot image (page :: pages) d' where
  slots := h'.slots.trans (loaded_cons h.slots pages)
  history := by
    simp [h'.history, h.history, loads]

theorem Loads.congr (h : d₁.Loads slot image pages d') (hslots : d₁.slots = d.slots)
    (hhistory : d₁.history = d.history) : d.Loads slot image pages d' :=
  ⟨h.slots.trans (loaded_congr hslots slot image pages), hhistory ▸ h.history⟩

end Loads

/-- A loaded slot at the largest index passes for a miss if the first registers
of its key page are zero. -/
def Hidden (d : Device g) (slot : SlotIndex) : Prop :=
  slot = g.maxIndex ∧
    ∀ k ∈ Table.missRegisters, ((d.slot? slot).getD .empty).key.get k = 0#16

/-- A search after `slot` finds `found`. -/
def Finds (d : Device g) (slot found : SlotIndex) : Prop :=
  d.firstAfter? slot = some found ∧ ¬d.Hidden found

theorem Finds.inRange {d : Device g} {slot found : SlotIndex} (h : d.Finds slot found) :
    g.minIndex ≤ found ∧ found ≤ g.maxIndex := by
  obtain ⟨hstart, hloaded, -⟩ := firstAfter?_eq_some_iff.mp h.1
  have hmin : g.minIndex.toNat ≤ searchStart g slot := by
    unfold searchStart
    split
    · exact Nat.le_refl _
    · exact Nat.le_max_right _ _
  exact ⟨BitVec.le_def.mpr (Nat.le_trans hmin hstart), le_maxIndex_of_isValid hloaded⟩

/-- The registers after the search command tell whether it has found a slot, and
which. -/
theorem finds_iff_of_agrees (hvalid : g.Valid) {slot : SlotIndex}
    {d d' : Device g} (h : d'.Agrees (d.perform ⟨.getNext, .key, slot⟩)) (busy : Bool)
    (found : SlotIndex) :
    d.Finds slot found ↔ entryField.get (busyField.setFlag d'.operation busy) = found ∧
      ¬(found = g.maxIndex ∧ ∀ k ∈ Table.missRegisters, d'.data.get k = 0#16) := by
  have hperform := d.perform_getNext .key slot
  -- A miss reports the largest index, and so does a hit there.
  cases hfirst : d.firstAfter? slot with
  | none =>
      rw [hfirst] at hperform
      rw [h.operation, h.data, hperform.1, hperform.2, Command.index_idleWord hvalid.maxIndex_le]
      refine iff_of_false (fun hfinds => ?_) ?_
      · rw [Finds, hfirst] at hfinds
        exact nomatch hfinds.1
      · rintro ⟨rfl, hmiss⟩
        exact hmiss ⟨rfl, fun k _ => BitField.get_zero _⟩
  | some i =>
      rw [hfirst] at hperform
      have hi := le_maxIndex_of_isValid (firstAfter?_eq_some_iff.mp hfirst).2.1
      have hle : i ≤ maxSlotIndex := BitVec.le_trans hi hvalid.maxIndex_le
      rw [h.operation, h.data, hperform.1, hperform.2,
        Command.index_idleWord (c := ⟨.getNext, .key, i⟩) hle, Finds, hfirst, Option.some.injEq]
      constructor
      · rintro ⟨rfl, hshown⟩
        exact ⟨rfl, hshown⟩
      · rintro ⟨hfound, hshown⟩
        obtain rfl : i = found := hfound
        exact ⟨rfl, hshown⟩

/-- The slot is loaded and a search does not take it for a miss. -/
def Present (d : Device g) (slot : SlotIndex) : Prop :=
  d.isValid slot = true ∧ ¬d.Hidden slot

end Device

end Tcam
