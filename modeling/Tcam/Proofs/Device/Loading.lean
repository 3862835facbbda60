import Tcam.Proofs.Device.Evolution

/-!
# Slots in the middle of a load

A load that breaks off has written an initial part of the pages.  The key page
comes last, so a slot turns valid with the last page only, and its image is
complete then.  The action page comes first, so the slot continues where the new
entry does as soon as anything has been written.
-/

namespace Tcam

namespace SlotImage

variable {old new : SlotImage}

theorem page_setPage_self (s : SlotImage) (page : Page) (r : Registers page.registers) :
    (s.setPage page r).page page = r := by
  cases page <;> rfl

theorem page_setPage_of_ne (s : SlotImage) {page page' : Page} (h : page' ≠ page)
    (r : Registers page.registers) : (s.setPage page r).page page' = s.page page' := by
  cases page <;> cases page' <;> first | rfl | exact absurd rfl h

theorem eq_of_pages {s s' : SlotImage} (h : ∀ page, s'.page page = s.page page) : s' = s := by
  have hkey : s'.key = s.key := h .key
  have hwindow : s'.window = s.window := h .window
  have haction : s'.action = s.action := h .action
  cases s
  cases s'
  simp_all

/-- A listed page is new, every other page is the old one. -/
theorem page_withPages (old new : SlotImage) (pages : List Page) (page : Page) :
    (old.withPages new pages).page page =
      if page ∈ pages then new.page page else old.page page := by
  -- Later pages do not bring an old one back.
  induction pages generalizing old with
  | nil => rfl
  | cons first rest ih =>
      change ((old.setPage first (new.page first)).withPages new rest).page page = _
      rw [ih]
      by_cases hrest : page ∈ rest
      · rw [if_pos hrest, if_pos (List.mem_cons_of_mem first hrest)]
      · rw [if_neg hrest]
        by_cases hfirst : page = first
        · subst hfirst
          rw [if_pos List.mem_cons_self, page_setPage_self]
        · rw [if_neg fun hmem => (List.mem_cons.mp hmem).elim hfirst hrest,
            page_setPage_of_ne old hfirst]

/-- Where there are window pages, a complete load replaces the whole image. -/
theorem withPages_loadOrder (old new : SlotImage) {g : Geometry} (hpage : g.hasWindowPage = true) :
    old.withPages new g.loadOrder = new := by
  apply eq_of_pages
  intro page
  have hmem : page ∈ g.loadOrder := by
    unfold Geometry.loadOrder
    rw [hpage]
    cases page <;> decide
  rw [page_withPages, if_pos hmem]

/-- The key page tells whether a slot is valid. -/
theorem isValid_withPages (pages : List Page) :
    (old.withPages new pages).isValid = if .key ∈ pages then new.isValid else old.isValid := by
  have hkey : (old.withPages new pages).key = if .key ∈ pages then new.key else old.key :=
    page_withPages old new pages .key
  rw [isValid, hkey]
  split
  · rfl
  · rfl

/-- The action page tells where an entry continues. -/
theorem next?_congr (h : new.action = old.action) : new.entry.next? = old.entry.next? := by
  have hfields : new.entry.fields = old.entry.fields := by
    rw [entry, entry, h]
  rw [Entry.next?, Entry.next?, hfields]

theorem next?_withPages (pages : List Page) :
    (old.withPages new pages).entry.next? =
      if .action ∈ pages then new.entry.next? else old.entry.next? := by
  have haction : (old.withPages new pages).action =
      if .action ∈ pages then new.action else old.action :=
    page_withPages old new pages .action
  by_cases hmem : Page.action ∈ pages
  · rw [if_pos hmem] at haction ⊢
    exact next?_congr haction
  · rw [if_neg hmem] at haction ⊢
    exact next?_congr haction

theorem entry_ofEntry_of_check {g : Geometry} {e : Entry} (h : e.check g = .ok ()) :
    (ofEntry e).entry = e := by
  obtain ⟨hkey, haction, -⟩ := Entry.check_eq_ok_iff.mp h
  exact entry_ofEntry hkey haction

end SlotImage

namespace Geometry

variable {g : Geometry} {done : List Page}

theorem mem_loadOrder_inits (h : done <+: g.loadOrder) :
    done = [] ∨ done = [.action] ∨ done = [.action, .window] ∨ done = g.loadOrder := by
  unfold loadOrder at h ⊢
  cases hpage : g.hasWindowPage with
  | true =>
      simp only [hpage, if_true, List.prefix_cons_iff, List.prefix_nil] at h
      rcases h with rfl | ⟨_, rfl, rfl | ⟨_, rfl, rfl | ⟨_, rfl, rfl⟩⟩⟩
      · exact Or.inl rfl
      · exact Or.inr (Or.inl rfl)
      · exact Or.inr (Or.inr (Or.inl rfl))
      · exact Or.inr (Or.inr (Or.inr rfl))
  | false =>
      simp only [hpage, Bool.false_eq_true, if_false, List.prefix_cons_iff, List.prefix_nil] at h
      rcases h with rfl | ⟨_, rfl, rfl | ⟨_, rfl, rfl⟩⟩
      · exact Or.inl rfl
      · exact Or.inr (Or.inl rfl)
      · exact Or.inr (Or.inr (Or.inr rfl))

/-- The key page is the last one. -/
theorem eq_loadOrder_of_key_mem (h : done <+: g.loadOrder) (hkey : .key ∈ done) :
    done = g.loadOrder := by
  rcases mem_loadOrder_inits h with rfl | rfl | rfl | rfl
  · exact nomatch hkey
  · exact absurd hkey (by decide)
  · exact absurd hkey (by decide)
  · rfl

/-- The action page is the first one. -/
theorem action_mem_of_ne_nil (h : done <+: g.loadOrder) (hne : done ≠ []) : .action ∈ done := by
  rcases mem_loadOrder_inits h with rfl | rfl | rfl | rfl
  · exact absurd rfl hne
  · exact List.mem_cons_self
  · exact List.mem_cons_self
  · unfold loadOrder
    split <;> exact List.mem_cons_self

theorem action_mem_loadOrder (g : Geometry) : .action ∈ g.loadOrder := by
  unfold loadOrder
  split <;> exact List.mem_cons_self

theorem key_mem_loadOrder (g : Geometry) : .key ∈ g.loadOrder := by
  unfold loadOrder
  split <;> simp

end Geometry

namespace Device

variable {g : Geometry} {d d' : Device g} {slot i : SlotIndex} {entry : Entry}
  {image : SlotImage} {pages : List Page}

/-! ## Validity and continuation -/

theorem isValid_congr_slot? (h : d'.slot? i = d.slot? i) : d'.isValid i = d.isValid i := by
  rw [isValid, isValid, h]

theorem content_congr_slot? (h : d'.slot? i = d.slot? i) : d'.content i = d.content i := by
  unfold content shown
  rw [h]

theorem isValid_congr (h : d'.slots = d.slots) (i : SlotIndex) : d'.isValid i = d.isValid i :=
  isValid_congr_slot? (slot?_congr h i)

theorem next?_congr (h : d'.slots = d.slots) (i : SlotIndex) : d'.next? i = d.next? i := by
  rw [next?, next?, content_congr h]

/-- The window page that a read leaves out tells neither. -/
theorem next?_eq (d : Device g) (i : SlotIndex) :
    d.next? i = ((d.slot? i).getD .empty).entry.next? := by
  unfold next? content shown
  cases g.hasWindowPage with
  | true => rfl
  | false => exact SlotImage.next?_congr rfl

theorem isValid_eq (d : Device g) (i : SlotIndex) :
    d.isValid i = ((d.slot? i).getD .empty).isValid := by
  unfold isValid
  cases d.slot? i with
  | none => rw [Option.any_none, Option.getD_none, SlotImage.isValid_empty]
  | some image => rfl

theorem valid_content (d : Device g) (i : SlotIndex) : (d.content i).valid = d.isValid i := by
  rw [isValid_eq]
  unfold content shown
  cases g.hasWindowPage with
  | true => rfl
  | false => rfl

/-- A slot that holds the image of an entry is read as this entry. -/
theorem content_of_slot? (h : d.slot? i = some (.ofEntry entry)) (hentry : entry.check g = .ok ()) :
    d.content i = ⟨i, true, entry⟩ := by
  have hshown : d.shown i = .ofEntry entry := by
    rw [shown_eq_kept, h, Option.getD_some, SlotImage.kept_ofEntry hentry]
  rw [content, hshown, SlotImage.isValid_ofEntry, SlotImage.entry_ofEntry_of_check hentry]

/-! ## Flushes -/

theorem slot?_of_flushed (h : d'.slots = (d.flushed slot).slots) (i : SlotIndex) :
    d'.slot? i = if i = slot then (d.slot? slot).map fun _ => .empty else d.slot? i := by
  rw [slot?_congr h, slot?_updateSlot]

theorem slot?_getD_of_flushed (h : d'.slots = (d.flushed slot).slots) (i : SlotIndex) :
    (d'.slot? i).getD .empty = if i = slot then .empty else (d.slot? i).getD .empty := by
  rw [slot?_of_flushed h]
  by_cases hi : i = slot
  · rw [if_pos hi, if_pos hi]
    cases d.slot? slot with
    | none => rfl
    | some image => rfl
  · rw [if_neg hi, if_neg hi]

theorem isValid_of_flushed (h : d'.slots = (d.flushed slot).slots) :
    d'.isValid i = true ↔ i ≠ slot ∧ d.isValid i = true := by
  rw [isValid_eq, isValid_eq, slot?_getD_of_flushed h]
  by_cases hi : i = slot
  · rw [if_pos hi, SlotImage.isValid_empty]
    exact iff_of_false nofun fun h => h.1 hi
  · rw [if_neg hi, and_iff_right hi]

theorem next?_of_flushed (h : d'.slots = (d.flushed slot).slots) (i : SlotIndex) :
    d'.next? i = if i = slot then none else d.next? i := by
  rw [next?_eq, next?_eq, slot?_getD_of_flushed h]
  by_cases hi : i = slot
  · rw [if_pos hi, if_pos hi, SlotImage.entry_empty]
    rfl
  · rw [if_neg hi, if_neg hi]

theorem isValid_of_flushedAll (h : d'.slots = Vector.replicate _ .empty) (i : SlotIndex) :
    d'.isValid i = false := by
  unfold isValid slot?
  rw [h, Vector.getElem?_replicate]
  split
  · rw [Option.any_some, SlotImage.isValid_empty]
  · rfl

theorem next?_of_flushedAll (h : d'.slots = Vector.replicate _ .empty) (i : SlotIndex) :
    d'.next? i = none := by
  rw [next?_eq, slot?, h, Vector.getElem?_replicate]
  split
  · rw [Option.getD_some, SlotImage.entry_empty]
    rfl
  · rw [Option.getD_none, SlotImage.entry_empty]
    rfl

/-! ## Loads -/

theorem slot?_of_loaded (h : d'.slots = d.loaded slot image pages) (i : SlotIndex) :
    d'.slot? i =
      if i = slot then (d.slot? slot).map fun old => old.withPages image pages
      else d.slot? i := by
  have hslots : d'.slots = (d.updateSlot slot fun old => old.withPages image pages).slots := h
  rw [slot?_congr hslots, slot?_updateSlot]

theorem slot?_of_loaded_of_ne (h : d'.slots = d.loaded slot image pages) (hi : i ≠ slot) :
    d'.slot? i = d.slot? i := by
  rw [slot?_of_loaded h, if_neg hi]

theorem isValid_of_loaded (hslot : slot ≤ g.maxIndex)
    (h : d'.slots = d.loaded slot (.ofEntry entry) pages) :
    d'.isValid i = true ↔ i = slot ∧ .key ∈ pages ∨ d.isValid i = true := by
  rw [isValid, slot?_of_loaded h]
  by_cases hi : i = slot
  · obtain ⟨old, hold⟩ := d.slot?_eq_some_of_le hslot
    rw [if_pos hi, hold, Option.map_some, Option.any_some, SlotImage.isValid_withPages, hi, isValid,
      hold, Option.any_some, SlotImage.isValid_ofEntry]
    by_cases hkey : Page.key ∈ pages
    · simp [hkey]
    · simp [hkey]
  · rw [if_neg hi]
    exact (or_iff_right fun h => hi h.1).symm

theorem next?_of_loaded (hslot : slot ≤ g.maxIndex) (hentry : entry.check g = .ok ())
    (h : d'.slots = d.loaded slot (.ofEntry entry) pages) (i : SlotIndex) :
    d'.next? i = if i = slot ∧ .action ∈ pages then entry.next? else d.next? i := by
  rw [next?_eq, next?_eq, slot?_of_loaded h]
  by_cases hi : i = slot
  · obtain ⟨old, hold⟩ := d.slot?_eq_some_of_le hslot
    rw [if_pos hi, hi, hold, Option.map_some, Option.getD_some, Option.getD_some,
      SlotImage.next?_withPages, SlotImage.entry_ofEntry_of_check hentry]
    simp
  · rw [if_neg hi, if_neg fun h => hi h.1]

/-! ## Slots of the table -/

/-- Only slots of the table are ever valid. -/
theorem Evolves.checkSlot (h : (fresh g).Evolves d) (hi : d.isValid i = true) :
    g.checkSlot i = .ok () := by
  induction h generalizing i with
  | same hslots =>
      rw [isValid_of_flushedAll hslots] at hi
      exact nomatch hi
  | @change d₁ d' _ hchange ih =>
      generalize hslots : d'.slots = slots at hchange
      cases hchange with
      | flushAll =>
          rw [isValid_of_flushedAll hslots] at hi
          exact nomatch hi
      | flushEntry slot _ => exact ih ((isValid_of_flushed hslots).mp hi).2
      | load slot entry page hslot _ _ =>
          rcases (isValid_of_loaded (Geometry.checkSlot_eq_ok_iff.mp hslot).2 hslots).mp hi with
            ⟨rfl, -⟩ | hi
          · exact hslot
          · exact ih hi

end Device

end Tcam
