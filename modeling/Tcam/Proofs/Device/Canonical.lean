import Tcam.Proofs.Device.Reload

/-!
# Slots that can be loaded again

Reading a slot and loading what was read changes nothing, as long as no bit of the slot
is lost on the way.  A register could hold such bits, but slots that were only ever
flushed and loaded do not (`canonical_of_evolves`).  So a valid slot holds the image of
the entry that is read from it, and loading pages of an entry that do not differ from
this image leaves all slots as they are (`Canonical.loaded_eq`).
-/

namespace Tcam

namespace SlotImage

variable {g : Geometry} {s : SlotImage} {e : Entry}

/-- Nothing of the image is lost when it is read and written back.  An invalid slot
would get a new sentinel. -/
structure Canonical (g : Geometry) (s : SlotImage) : Prop where
  key : s.isValid = true → (ofEntry s.entry).key = s.key
  window : g.hasWindowPage = false → s.window = 0#(16 * 26)
  action : (ofEntry s.entry).action = s.action

theorem canonical_empty (g : Geometry) : empty.Canonical g where
  key h := nomatch h.symm.trans isValid_empty
  window _ := rfl
  action := by
    decide +kernel

/-- Loading a page of an entry that fits loses nothing either. -/
theorem Canonical.setPage (h : s.Canonical g) (he : e.check g = .ok ()) (page : Page) :
    (s.setPage page ((ofEntry e).page page)).Canonical g := by
  -- Every page is written back from this page alone.
  have hentry := entry_ofEntry_of_check he
  cases page with
  | key =>
      refine ⟨fun _ => ?_, h.window, ?_⟩
      · have hback := (ofEntry e).key_ofEntry_entry
        rw [hentry] at hback
        rw [key_ofEntry_entry]
        exact hback.symm
      · exact (action_ofEntry_entry _).trans (s.action_ofEntry_entry.symm.trans h.action)
  | window =>
      refine ⟨fun hvalid => ?_, fun hpage => window_ofEntry he hpage, ?_⟩
      · exact (key_ofEntry_entry _).trans (s.key_ofEntry_entry.symm.trans (h.key hvalid))
      · exact (action_ofEntry_entry _).trans (s.action_ofEntry_entry.symm.trans h.action)
  | action =>
      refine ⟨fun hvalid => ?_, h.window, ?_⟩
      · exact (key_ofEntry_entry _).trans (s.key_ofEntry_entry.symm.trans (h.key hvalid))
      · have hback := (ofEntry e).action_ofEntry_entry
        rw [hentry] at hback
        rw [action_ofEntry_entry]
        exact hback.symm

/-- A valid image is the image of its entry. -/
theorem Canonical.ofEntry_entry_eq (h : s.Canonical g) (hvalid : s.isValid = true) :
    ofEntry s.entry = s := by
  apply eq_of_pages
  intro page
  cases page with
  | key => exact h.key hvalid
  | window => exact s.window_ofEntry_entry
  | action => exact h.action

/-- A table without window pages does not have them anyway. -/
theorem Canonical.kept_eq (h : s.Canonical g) : kept g s = s := by
  cases hpage : g.hasWindowPage with
  | true => rw [kept, hpage, if_pos rfl]
  | false =>
      rw [kept, hpage, ← h.window hpage]
      rfl

end SlotImage

namespace Device

variable {g : Geometry} {d d' : Device g} {slot : SlotIndex} {e : Entry} {pages : List Page}

/-- Nothing of the slots is lost when they are read and loaded again. -/
def Canonical (d : Device g) : Prop :=
  ∀ i image, d.slot? i = some image → image.Canonical g

theorem canonical_of_evolves (h : (fresh g).Evolves d) : d.Canonical :=
  h.forall_slots (SlotImage.canonical_empty g)
    (fun _ _ page hentry himage => himage.setPage hentry page)
    (forall_slots_of_flushedAll (SlotImage.canonical_empty g) rfl)

/-- A valid slot holds the image of the entry that is read from it. -/
theorem Canonical.slot?_eq (hd : d.Canonical) (hvalid : d.isValid slot = true) :
    d.slot? slot = some (.ofEntry (d.content slot).entry) := by
  obtain ⟨image, himage⟩ := d.slot?_eq_some_of_le (le_maxIndex_of_isValid hvalid)
  have hcanonical := hd slot image himage
  rw [isValid, himage, Option.any_some] at hvalid
  rw [himage, content, shown_eq_kept, himage, Option.getD_some, hcanonical.kept_eq,
    hcanonical.ofEntry_entry_eq hvalid]

/-- Loading pages that a valid slot holds already changes nothing. -/
theorem Canonical.loaded_eq (hd : d.Canonical) (hvalid : d.isValid slot = true)
    (hpages : ∀ page ∈ pages, (SlotImage.ofEntry e).page page =
      (SlotImage.ofEntry (d.content slot).entry).page page) :
    d.loaded slot (.ofEntry e) pages = d.slots := by
  unfold loaded
  apply slots_eq_of_slot?
  intro i
  rw [slot?_updateSlot]
  by_cases hi : i = slot
  · rw [if_pos hi, hi, hd.slot?_eq hvalid, Option.map_some, Option.some.injEq]
    apply SlotImage.eq_of_pages
    intro page
    rw [SlotImage.page_withPages]
    split
    · exact hpages page ‹_›
    · rfl
  · rw [if_neg hi]

end Device

end Tcam
