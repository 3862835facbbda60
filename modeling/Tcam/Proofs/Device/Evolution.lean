import Tcam.Proofs.Device.Content

/-!
# How slots evolve

Whatever the operations of a table do, and wherever they break off, slots change
in three ways only: all of them are flushed, one of them is flushed, or a page
of an entry that fits is loaded into one of them.  What these changes preserve
holds in every state that operations lead to.  One such property is that every
slot carries one of the two sentinels, so that a search never takes a loaded
slot for a miss (`Marked.present_iff`).
-/

namespace Tcam.Device

variable {g : Geometry} {d d₁ d' : Device g}

/-- One change of the slots. -/
inductive Change (d : Device g) : Vector SlotImage (g.maxIndex.toNat + 1) → Prop
  | flushAll : Change d (Vector.replicate _ .empty)
  | flushEntry (slot : SlotIndex) (hslot : g.checkSlot slot = .ok ()) :
      Change d (d.flushed slot).slots
  | load (slot : SlotIndex) (entry : Entry) (page : Page) (hslot : g.checkSlot slot = .ok ())
      (hentry : entry.check g = .ok ()) (hpage : page ∈ g.loadOrder) :
      Change d (d.loaded slot (.ofEntry entry) [page])

/-- The slots of `d'` come from the slots of `d` by any number of changes. -/
inductive Evolves (d : Device g) : Device g → Prop
  | same {d' : Device g} (h : d'.slots = d.slots) : Evolves d d'
  | change {d₁ d' : Device g} (h : Evolves d d₁) (hchange : Change d₁ d'.slots) : Evolves d d'

theorem Evolves.of_slots (h : Evolves d d₁) (hslots : d'.slots = d₁.slots) : Evolves d d' := by
  cases h with
  | same hsame => exact .same (hslots.trans hsame)
  | change hpast hchange => exact .change hpast (hslots ▸ hchange)

theorem Evolves.trans (h : Evolves d d₁) (h' : Evolves d₁ d') : Evolves d d' := by
  induction h' with
  | same hslots => exact h.of_slots hslots
  | change _ hchange ih => exact .change ih hchange

theorem evolves_flushAll (h : d'.slots = Vector.replicate _ .empty) : Evolves d d' :=
  .change (.same rfl) (h ▸ .flushAll)

theorem evolves_flushEntry {slot : SlotIndex} (hslot : g.checkSlot slot = .ok ())
    (h : d'.slots = (d.flushed slot).slots) : Evolves d d' :=
  .change (.same rfl) (h ▸ .flushEntry slot hslot)

/-- Loading any of the pages, one after the other. -/
theorem evolves_loaded {slot : SlotIndex} {entry : Entry} (hslot : g.checkSlot slot = .ok ())
    (hentry : entry.check g = .ok ()) {pages : List Page}
    (hpages : ∀ page ∈ pages, page ∈ g.loadOrder)
    (h : d'.slots = d.loaded slot (.ofEntry entry) pages) : Evolves d d' := by
  induction pages generalizing d with
  | nil => exact .same (h.trans (d.loaded_nil slot _))
  | cons page pages ih =>
      -- The first page is a change of its own.
      obtain ⟨hpage, hrest⟩ := List.forall_mem_cons.mp hpages
      let middle : Device g := { d with slots := d.loaded slot (.ofEntry entry) [page] }
      have hmiddle : middle.slots = d.loaded slot (.ofEntry entry) [page] := rfl
      have hfirst : Evolves d middle :=
        .change (.same rfl) (.load slot entry page hslot hentry hpage)
      exact hfirst.trans (ih hrest (h.trans (loaded_cons hmiddle pages).symm))

/-! ## What holds of every slot -/

section Slots

variable {P : SlotImage → Prop}

/-- What holds of a flushed slot holds of all of them. -/
theorem forall_slots_of_flushedAll (hempty : P .empty)
    (h : d'.slots = Vector.replicate _ .empty) : ∀ i image, d'.slot? i = some image → P image := by
  intro i image himage
  rw [slot?, h] at himage
  obtain ⟨hlt, rfl⟩ := Vector.getElem?_eq_some_iff.mp himage
  rw [Vector.getElem_replicate]
  exact hempty

theorem forall_slots_of_updateSlot {slot : SlotIndex} {f : SlotImage → SlotImage}
    (hd : ∀ i image, d.slot? i = some image → P image) (hf : ∀ image, P image → P (f image))
    (h : d'.slots = (d.updateSlot slot f).slots) :
    ∀ i image, d'.slot? i = some image → P image := by
  intro i image himage
  rw [slot?_congr h, slot?_updateSlot] at himage
  by_cases hi : i = slot
  · rw [if_pos hi, Option.map_eq_some_iff] at himage
    obtain ⟨old, hold, rfl⟩ := himage
    exact hf old (hd slot old hold)
  · rw [if_neg hi] at himage
    exact hd i image himage

/-- What holds of flushed slots and survives the load of a page of an entry that fits
holds of all slots from then on. -/
theorem Evolves.forall_slots (h : Evolves d d') (hempty : P .empty)
    (hload : ∀ image entry page, entry.check g = .ok () → P image →
      P (image.setPage page ((SlotImage.ofEntry entry).page page)))
    (hd : ∀ i image, d.slot? i = some image → P image) :
    ∀ i image, d'.slot? i = some image → P image := by
  induction h with
  | same hslots =>
      intro i image himage
      rw [slot?_congr hslots] at himage
      exact hd i image himage
  | @change d₁ d' _ hchange ih =>
      generalize hslots : d'.slots = slots at hchange
      cases hchange with
      | flushAll => exact forall_slots_of_flushedAll hempty hslots
      | flushEntry slot _ => exact forall_slots_of_updateSlot ih (fun _ _ => hempty) hslots
      | load slot entry page _ hentry _ =>
          exact forall_slots_of_updateSlot ih (fun image => hload image entry page hentry) hslots

end Slots

/-! ## Sentinels -/

/-- Every slot carries the sentinel of a loaded or of a flushed slot. -/
def Marked (d : Device g) : Prop :=
  ∀ slot image, d.slot? slot = some image →
    (SlotImage.sentinel.get image.key : Octet) = SlotImage.loadedSentinel ∨
      (SlotImage.sentinel.get image.key : Octet) = SlotImage.emptySentinel

theorem sentinel_empty :
    (SlotImage.sentinel.get SlotImage.empty.key : Octet) = SlotImage.emptySentinel := by
  decide +kernel

theorem marked_flushed (h : d.slots = Vector.replicate _ .empty) : Marked d :=
  forall_slots_of_flushedAll (Or.inr sentinel_empty) h

theorem Marked.evolves (hd : Marked d) (h : Evolves d d') : Marked d' := by
  refine h.forall_slots (Or.inr sentinel_empty) (fun image entry page _ hmarked => ?_) hd
  -- Only the key page carries a sentinel.
  cases page with
  | key => exact Or.inl (SlotImage.sentinel_ofEntry entry)
  | window => exact hmarked
  | action => exact hmarked

/-- Neither sentinel passes for the zeros of a miss. -/
theorem Marked.not_hidden (hd : Marked d) (slot : SlotIndex) : ¬d.Hidden slot := by
  rintro ⟨-, hzero⟩
  have hsentinel := SlotImage.sentinel_eq_zero (hzero 0 (by decide))
  cases himage : d.slot? slot with
  | none =>
      rw [himage, Option.getD_none, sentinel_empty] at hsentinel
      exact absurd hsentinel (by decide)
  | some image =>
      rw [himage, Option.getD_some] at hsentinel
      rcases hd slot image himage with h | h
      · exact absurd (h.symm.trans hsentinel) (by decide)
      · exact absurd (h.symm.trans hsentinel) (by decide)

theorem Marked.present_iff (hd : Marked d) {slot : SlotIndex} :
    d.Present slot ↔ d.isValid slot = true :=
  and_iff_left (hd.not_hidden slot)

end Tcam.Device
