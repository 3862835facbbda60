import Tcam.Proofs.Device.Loading

/-!
# Loading and flushing once more

A load that has broken off and a flush can be repeated: what they leave is what one
run without interruption leaves (`loaded_of_loaded`, `flushed_of_flushed`).  Between
the two attempts a slot is read from old and new pages together.  If the two entries
differ in the key page only, that makes no difference until the key page is loaded
(`entry_of_partlyLoaded`).
-/

namespace Tcam

namespace SlotImage

variable {old : SlotImage} {pages done : List Page} {g : Geometry} {e : Entry}

/-- Pages that are loaded again later are gone. -/
theorem withPages_withPages (old new : SlotImage) {before : SlotImage}
    (h : ∀ page ∈ done, page ∈ pages) :
    (old.withPages before done).withPages new pages = old.withPages new pages := by
  apply eq_of_pages
  intro page
  rw [page_withPages, page_withPages, page_withPages]
  by_cases hpage : page ∈ pages
  · rw [if_pos hpage, if_pos hpage]
  · rw [if_neg hpage, if_neg hpage, if_neg fun hdone => hpage (h page hdone)]

/-- The window page of an entry goes with the key page from which its first octets
were read. -/
theorem unpack_windowPage (image : SlotImage) (h : e.window = image.entry.window) :
    FrameWindow.windowPageLayout.unpack (ofEntry e).window
      (FrameWindow.keyPageLayout.unpack image.key .any) = image.entry.window := by
  have hfits (c : Cell FrameWindow) (hc : c ∈ FrameWindow.windowPageLayout) :
      c.place.get (ofEntry e).window = c.get e.window :=
    Layout.get_pack_of_mem FrameWindow.windowPageLayout_separate hc _ e.window
      (FrameWindow.octetLayout_fits _ _ _ e.window c hc)
  rw [Layout.unpack_eq_copy hfits, h]
  have hcopy {i : Nat} (hi : i < windowOctets) :=
    FrameWindow.copy_octetLayout keyPageOctets 0 FrameWindow.windowPage_end image.entry.window
      (FrameWindow.keyPageLayout.unpack image.key .any) hi
  have hlow {i : Nat} (hi : i < keyPageOctets) :=
    FrameWindow.octets_unpack_windowPage image.window
      (FrameWindow.keyPageLayout.unpack image.key .any) hi
  apply FrameWindow.eq_of_octets
  · intro i hi
    rw [FrameWindow.windowPageLayout, (hcopy hi).1]
    split
    · rfl
    · exact (hlow (by omega)).1.symm
  · intro i hi
    rw [FrameWindow.windowPageLayout, (hcopy hi).2]
    split
    · rfl
    · exact (hlow (by omega)).2.symm

/-- Pages of an entry with the same window and the same action say the same as the old
ones. -/
theorem entry_withPages (he : e.check g = .ok ()) (hwindow : e.window = old.entry.window)
    (hfields : e.fields = old.entry.fields) (hkey : .key ∉ pages) :
    (old.withPages (ofEntry e) pages).entry = old.entry := by
  have hpage := page_withPages old (ofEntry e) pages
  have hkey' : (old.withPages (ofEntry e) pages).key = old.key := by
    have h := hpage .key
    rwa [if_neg hkey] at h
  have hwindow' : FrameWindow.windowPageLayout.unpack (old.withPages (ofEntry e) pages).window
      (FrameWindow.keyPageLayout.unpack old.key .any) = old.entry.window := by
    have h : (old.withPages (ofEntry e) pages).window =
      if .window ∈ pages then (ofEntry e).window else old.window := hpage .window
    rw [h]
    split
    · exact unpack_windowPage old hwindow
    · rfl
  have hfields' : (old.withPages (ofEntry e) pages).entry.fields = old.entry.fields := by
    have h : (old.withPages (ofEntry e) pages).action =
      if .action ∈ pages then (ofEntry e).action else old.action := hpage .action
    have hnew : (ofEntry e).entry.fields = old.entry.fields := by
      rw [entry_ofEntry_of_check he, hfields]
    rw [entry, h]
    split
    · exact hnew
    · rfl
  have hentry (image : SlotImage) : image.entry = ⟨KeyMatch.layout.unpack image.key .any,
      FrameWindow.windowPageLayout.unpack image.window
        (FrameWindow.keyPageLayout.unpack image.key .any), image.entry.fields⟩ := rfl
  rw [hentry, hfields', hkey', hwindow']
  rfl

end SlotImage

namespace Device

variable {g : Geometry} {d d' : Device g} {slot : SlotIndex} {before image : SlotImage} {e : Entry}
  {pages done : List Page}

theorem flushed_of_flushed (h : d'.slots = (d.flushed slot).slots) :
    (d'.flushed slot).slots = (d.flushed slot).slots := by
  rw [flushed_congr h, updateSlot_updateSlot]

/-- A load over another load of the slot, which may have broken off. -/
theorem loaded_of_loaded (hdone : done <+: pages) (h : d'.slots = d.loaded slot before done) :
    d'.loaded slot image pages = d.loaded slot image pages := by
  unfold loaded at h ⊢
  rw [updateSlot_slots_congr h, updateSlot_updateSlot]
  have hsame : (fun old : SlotImage => (old.withPages before done).withPages image pages) =
      fun old => old.withPages image pages :=
    funext fun old => old.withPages_withPages image fun _ hpage => hdone.subset hpage
  rw [hsame]

/-- What a read sees of a slot after a load. -/
theorem shown_of_loaded (hslot : slot ≤ g.maxIndex) (hdone : done <+: g.loadOrder)
    (h : d'.slots = d.loaded slot image done) :
    d'.shown slot = (d.shown slot).withPages image done := by
  obtain ⟨old, hold⟩ := d.slot?_eq_some_of_le hslot
  have hnew : d'.slot? slot = some (old.withPages image done) := by
    rw [slot?_of_loaded h, if_pos rfl, hold, Option.map_some]
  unfold shown
  rw [hnew, hold]
  cases hpage : g.hasWindowPage with
  | true => rfl
  | false =>
      have hwindow : Page.window ∉ done := by
        intro hmem
        have horder := hdone.subset hmem
        unfold Geometry.loadOrder at horder
        rw [hpage] at horder
        exact absurd horder (by decide)
      apply SlotImage.eq_of_pages
      intro page
      rw [SlotImage.page_withPages]
      cases page with
      | window =>
          rw [if_neg hwindow]
          rfl
      | key => exact old.page_withPages image done .key
      | action => exact old.page_withPages image done .action

/-- The page that the table does not have is empty in what a read sees and in the image
of an entry that fits. -/
theorem shown_withPages_loadOrder (d : Device g) (slot : SlotIndex) (he : e.check g = .ok ()) :
    (d.shown slot).withPages (.ofEntry e) g.loadOrder = .ofEntry e := by
  cases hpage : g.hasWindowPage with
  | true => exact SlotImage.withPages_loadOrder _ _ hpage
  | false =>
      have horder : g.loadOrder = [.action, .key] := by
        unfold Geometry.loadOrder
        rw [hpage]
        rfl
      have hwindow : (d.shown slot).window = (SlotImage.ofEntry e).window := by
        rw [SlotImage.window_ofEntry he hpage, shown, hpage]
        rfl
      rw [horder]
      apply SlotImage.eq_of_pages
      intro page
      cases page with
      | key => rfl
      | window => exact hwindow
      | action => rfl

/-- A complete load is read back, whatever the slot held before. -/
theorem content_of_loaded (hslot : slot ≤ g.maxIndex) (he : e.check g = .ok ())
    (h : d'.slots = d.loaded slot (.ofEntry e) g.loadOrder) :
    d'.content slot = ⟨slot, true, e⟩ := by
  rw [content, shown_of_loaded hslot List.prefix_rfl h, shown_withPages_loadOrder d slot he,
    SlotImage.isValid_ofEntry, SlotImage.entry_ofEntry_of_check he]

/-- An interrupted load of an entry with another key page leaves the old entry, or the
load was complete. -/
theorem entry_of_partlyLoaded (hslot : slot ≤ g.maxIndex) (he : e.check g = .ok ())
    (hwindow : e.window = (d.content slot).entry.window)
    (hfields : e.fields = (d.content slot).entry.fields) (hdone : done <+: g.loadOrder)
    (h : d'.slots = d.loaded slot (.ofEntry e) done) :
    (d'.content slot).entry = if .key ∈ done then e else (d.content slot).entry := by
  by_cases hkey : Page.key ∈ done
  · rw [Geometry.eq_loadOrder_of_key_mem hdone hkey] at h
    rw [if_pos hkey, content_of_loaded hslot he h]
  · rw [if_neg hkey, content, shown_of_loaded hslot hdone h]
    exact SlotImage.entry_withPages he hwindow hfields hkey

theorem Present.congr (hpresent : d.Present slot) (h : d'.slots = d.slots) :
    d'.Present slot := by
  refine ⟨(isValid_congr h slot).trans hpresent.1, ?_⟩
  unfold Hidden
  rw [slot?_congr h]
  exact hpresent.2

/-- A slot is present after a load if it was present before. -/
theorem Present.of_loaded (hslot : slot ≤ g.maxIndex) (hpresent : d.Present slot)
    (h : d'.slots = d.loaded slot (.ofEntry e) done) : d'.Present slot := by
  obtain ⟨old, hold⟩ := d.slot?_eq_some_of_le hslot
  have hnew : d'.slot? slot = some (old.withPages (.ofEntry e) done) := by
    rw [slot?_of_loaded h, if_pos rfl, hold, Option.map_some]
  refine ⟨(isValid_of_loaded hslot h).mpr (Or.inr hpresent.1), ?_⟩
  rintro ⟨hmax, hzero⟩
  rw [hnew, Option.getD_some] at hzero
  have hkey : (old.withPages (.ofEntry e) done).key =
    if .key ∈ done then (SlotImage.ofEntry e).key else old.key := old.page_withPages _ done .key
  rw [hkey] at hzero
  by_cases hmem : Page.key ∈ done
  · -- The sentinel of a loaded slot is not zero.
    rw [if_pos hmem] at hzero
    have hsentinel := SlotImage.sentinel_eq_zero (hzero 0 (by decide))
    rw [SlotImage.sentinel_ofEntry] at hsentinel
    exact absurd hsentinel (by decide)
  · rw [if_neg hmem] at hzero
    refine hpresent.2 ⟨hmax, ?_⟩
    rwa [hold]

end Device

end Tcam
