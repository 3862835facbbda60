import Tcam.Proofs.Device.Access

/-!
# What a command does to a device

Flushes and loads change slots and leave the data registers alone; reads and
searches fill the data registers and leave the slots alone.  What a command does
depends on slots and data registers only.
-/

namespace Tcam.Device

variable {g : Geometry}

/-! ## One slot at a time -/

theorem updateSlot_eq (d : Device g) (slot : SlotIndex) (f : SlotImage → SlotImage) :
    d.updateSlot slot f = { d with slots := (d.updateSlot slot f).slots } := by
  unfold updateSlot
  cases d.slots[slot.toNat]? with
  | none => rfl
  | some image => rfl

theorem updateSlot_slots_congr {d d' : Device g} (h : d'.slots = d.slots) (slot : SlotIndex)
    (f : SlotImage → SlotImage) : (d'.updateSlot slot f).slots = (d.updateSlot slot f).slots := by
  unfold updateSlot
  rw [h]
  cases d.slots[slot.toNat]? with
  | none => exact h
  | some image => rfl

theorem slot?_eq_some_of_le (d : Device g) {slot : SlotIndex} (h : slot ≤ g.maxIndex) :
    ∃ image, d.slot? slot = some image := by
  have hle : slot.toNat ≤ g.maxIndex.toNat := h
  have hlt : slot.toNat < g.maxIndex.toNat + 1 := by
    omega
  exact ⟨d.slots[slot.toNat], by rw [slot?, Vector.getElem?_eq_getElem hlt]⟩

theorem slot?_updateSlot (d : Device g) (slot i : SlotIndex) (f : SlotImage → SlotImage) :
    (d.updateSlot slot f).slot? i = if i = slot then (d.slot? slot).map f else d.slot? i := by
  unfold updateSlot slot?
  cases hslot : d.slots[slot.toNat]? with
  | none =>
      by_cases hi : i = slot
      · rw [if_pos hi, hi, hslot]
        rfl
      · rw [if_neg hi]
  | some image =>
      have hlt := (Vector.getElem?_eq_some_iff.mp hslot).1
      by_cases hi : i = slot
      · rw [if_pos hi, hi, Vector.getElem?_setIfInBounds_self_of_lt hlt]
        rfl
      · have hne : slot.toNat ≠ i.toNat := fun h => hi (BitVec.eq_of_toNat_eq h.symm)
        rw [if_neg hi, Vector.getElem?_setIfInBounds_ne hne]

/-- Two devices that show the same image in every slot have the same slots. -/
theorem slots_eq_of_slot? {d d' : Device g} (h : ∀ i, d'.slot? i = d.slot? i) :
    d'.slots = d.slots := by
  apply Vector.ext
  intro i hi
  have hi' : (BitVec.ofNat 16 i).toNat = i := by
    have hmax := g.maxIndex.isLt
    rw [BitVec.toNat_ofNat, Nat.mod_eq_of_lt (by omega)]
  have hslot := h (BitVec.ofNat 16 i)
  rw [slot?, slot?, hi', Vector.getElem?_eq_getElem hi, Vector.getElem?_eq_getElem hi] at hslot
  exact Option.some.inj hslot

theorem updateSlot_updateSlot (d : Device g) (slot : SlotIndex) (f f' : SlotImage → SlotImage) :
    ((d.updateSlot slot f).updateSlot slot f').slots =
      (d.updateSlot slot fun image => f' (f image)).slots := by
  apply slots_eq_of_slot?
  intro i
  simp only [slot?_updateSlot, if_true]
  by_cases hi : i = slot
  · simp only [hi, if_true, Option.map_map]
    rfl
  · simp only [hi, if_false]

theorem updateSlot_self (d : Device g) (slot : SlotIndex) :
    (d.updateSlot slot fun image => image).slots = d.slots := by
  apply slots_eq_of_slot?
  intro i
  rw [slot?_updateSlot]
  by_cases hi : i = slot
  · rw [if_pos hi, hi, Option.map_id']
  · rw [if_neg hi]

/-! ## Commands -/

/-- A command takes effect on slots and data registers only. -/
theorem effect_eq (c : Command) (d : Device g) :
    (effect c d).2 =
      { d with slots := (effect c d).2.slots, data := (effect c d).2.data } := by
  unfold effect
  cases c.opcode with
  | flushAll => rfl
  | flushEntry =>
      simp only
      rw [updateSlot_eq]
  | load =>
      simp only
      rw [updateSlot_eq]
  | read => rfl
  | getNext =>
      cases d.firstValid? (searchStart g c.index) with
      | none => rfl
      | some i => rfl

/-- A command leaves the extension register alone, enters the history, and makes
the block busy. -/
theorem perform_eq (c : Command) (d : Device g) :
    d.perform c = { d with
      slots := (d.perform c).slots
      operation := (d.perform c).operation
      data := (d.perform c).data
      history := c :: d.history
      busyRemaining := d.busyDelay } := by
  unfold perform
  simp only
  rw [effect_eq]

theorem firstValid?_congr {d d' : Device g} (h : d'.slots = d.slots) (start : Nat) :
    d'.firstValid? start = d.firstValid? start := by
  unfold firstValid?
  rw [h]

theorem slot?_congr {d d' : Device g} (h : d'.slots = d.slots) (slot : SlotIndex) :
    d'.slot? slot = d.slot? slot := by
  rw [slot?, slot?, h]

theorem effect_congr (d d' : Device g) (hslots : d'.slots = d.slots) (hdata : d'.data = d.data)
    (c : Command) :
    (effect c d').1 = (effect c d).1 ∧ (effect c d').2.slots = (effect c d).2.slots ∧
      (effect c d').2.data = (effect c d).2.data := by
  unfold effect
  cases c.opcode with
  | flushAll => exact ⟨rfl, rfl, hdata⟩
  | flushEntry =>
      dsimp only
      rw [updateSlot_eq d', updateSlot_eq d]
      exact ⟨rfl, updateSlot_slots_congr hslots _ _, hdata⟩
  | load =>
      dsimp only
      rw [updateSlot_eq d', updateSlot_eq d]
      refine ⟨rfl, ?_, hdata⟩
      rw [hdata]
      exact updateSlot_slots_congr hslots _ _
  | read =>
      dsimp only
      rw [slot?_congr hslots]
      exact ⟨rfl, hslots, rfl⟩
  | getNext =>
      dsimp only
      rw [firstValid?_congr hslots]
      cases d.firstValid? (searchStart g c.index) with
      | none => exact ⟨rfl, hslots, rfl⟩
      | some i =>
          refine ⟨rfl, hslots, ?_⟩
          change ((d'.slots[i]?).getD .empty).key = ((d.slots[i]?).getD .empty).key
          rw [hslots]

/-- The counters make no difference to a command. -/
theorem Agrees.perform {d d' : Device g} (h : d'.Agrees d) (c : Command) :
    (d'.perform c).Agrees (d.perform c) := by
  obtain ⟨hindex, hslots, hdata⟩ := effect_congr { d with history := c :: d.history }
    { d' with history := c :: d'.history } h.slots h.data c
  refine ⟨hslots, ?_, ?_, hdata, ?_⟩
  · change Command.idleWord { c with index := _ } = Command.idleWord { c with index := _ }
    rw [hindex]
  · rw [perform_eq c d', perform_eq c d]
    exact h.extension
  · rw [perform_eq c d', perform_eq c d]
    exact congrArg (c :: ·) h.history

theorem perform_flushAll_slots (d : Device g) (page : Page) (index : SlotIndex) :
    (d.perform ⟨.flushAll, page, index⟩).slots = Vector.replicate _ .empty :=
  rfl

theorem perform_flushEntry_slots (d : Device g) (page : Page) (slot : SlotIndex) :
    (d.perform ⟨.flushEntry, page, slot⟩).slots = (d.updateSlot slot fun _ => .empty).slots := by
  change (updateSlot { d with history := _ } slot _).slots = _
  apply updateSlot_slots_congr
  rfl

theorem perform_load_slots (d : Device g) (page : Page) (slot : SlotIndex) :
    (d.perform ⟨.load, page, slot⟩).slots =
      (d.updateSlot slot fun image => image.setPage page (d.data.setWidth _)).slots := by
  change (updateSlot { d with history := _ } slot _).slots = _
  apply updateSlot_slots_congr
  rfl

theorem perform_read_slots (d : Device g) (page : Page) (slot : SlotIndex) :
    (d.perform ⟨.read, page, slot⟩).slots = d.slots :=
  rfl

theorem perform_read_data (d : Device g) (page : Page) (slot : SlotIndex) :
    (d.perform ⟨.read, page, slot⟩).data =
      (((d.slot? slot).getD .empty).page page).setWidth _ :=
  rfl

theorem perform_getNext_slots (d : Device g) (page : Page) (index : SlotIndex) :
    (d.perform ⟨.getNext, page, index⟩).slots = d.slots := by
  unfold perform effect
  simp only
  split
  · rfl
  · rfl

/-! ## Searching -/

/-- The loaded slot at which a search after `slot` stops. -/
def firstAfter? (d : Device g) (slot : SlotIndex) : Option SlotIndex :=
  (d.firstValid? (searchStart g slot)).map (BitVec.ofNat 16)

theorem ofNat_toNat_of_le {i : Nat} (h : i ≤ g.maxIndex.toNat) :
    (BitVec.ofNat 16 i).toNat = i := by
  have hmax := g.maxIndex.isLt
  rw [BitVec.toNat_ofNat, Nat.mod_eq_of_lt (by omega)]

theorem le_maxIndex_of_slot? {d : Device g} {slot : SlotIndex} {image : SlotImage}
    (h : d.slot? slot = some image) : slot ≤ g.maxIndex := by
  have hlt := (Vector.getElem?_eq_some_iff.mp h).1
  exact BitVec.le_def.mpr (by omega)

theorem le_maxIndex_of_isValid {d : Device g} {slot : SlotIndex} (h : d.isValid slot = true) :
    slot ≤ g.maxIndex := by
  unfold isValid at h
  cases hslot : d.slot? slot with
  | none =>
      rw [hslot] at h
      exact nomatch h
  | some image => exact le_maxIndex_of_slot? hslot

/-- A search stops at the first loaded slot from its start on. -/
theorem firstAfter?_eq_some_iff {d : Device g} {slot i : SlotIndex} :
    d.firstAfter? slot = some i ↔ searchStart g slot ≤ i.toNat ∧ d.isValid i = true ∧
      ∀ j : SlotIndex, searchStart g slot ≤ j.toNat → j < i → d.isValid j = false := by
  unfold firstAfter? firstValid?
  rw [Option.map_eq_some_iff]
  -- The search runs over numbers, all of which are indices of slots.
  simp only [List.find?_range'_eq_some, List.mem_range'_1, Bool.not_eq_true']
  constructor
  · rintro ⟨k, ⟨hvalid, ⟨hstart, hend⟩, hfirst⟩, rfl⟩
    have hk : (BitVec.ofNat 16 k).toNat = k := ofNat_toNat_of_le (g := g) (by omega)
    refine ⟨hk.symm ▸ hstart, ?_, fun j hj hlt => ?_⟩
    · rw [isValid, slot?, hk]
      exact hvalid
    · have hjk : j.toNat < k := hk ▸ BitVec.lt_def.mp hlt
      exact hfirst j.toNat hj hjk
  · rintro ⟨hstart, hvalid, hfirst⟩
    have hmax := BitVec.le_def.mp (le_maxIndex_of_isValid hvalid)
    refine ⟨i.toNat, ⟨hvalid, ⟨hstart, by omega⟩, fun k hk hlt => ?_⟩, ?_⟩
    · have hk' : (BitVec.ofNat 16 k).toNat = k := ofNat_toNat_of_le (g := g) (by omega)
      have hnot := hfirst (BitVec.ofNat 16 k) (hk'.symm ▸ hk)
        (BitVec.lt_def.mpr (hk'.symm ▸ hlt))
      rwa [isValid, slot?, hk'] at hnot
    · exact BitVec.eq_of_toNat_eq (by rw [BitVec.toNat_ofNat, Nat.mod_eq_of_lt i.isLt])

theorem searchStart_of_lt {slot : SlotIndex} (h : slot < g.maxIndex) :
    searchStart g slot = max (slot.toNat + 1) g.minIndex.toNat :=
  if_neg (BitVec.not_le.mpr h)

theorem searchStart_maxIndex : searchStart g g.maxIndex = g.minIndex.toNat :=
  if_pos (BitVec.le_refl _)

/-- The command reports where its search stopped and shows the key page there.
Without a hit it reports the largest index and shows zeros. -/
theorem perform_getNext (d : Device g) (page : Page) (slot : SlotIndex) :
    match d.firstAfter? slot with
    | some i =>
      (d.perform ⟨.getNext, page, slot⟩).operation = (⟨.getNext, page, i⟩ : Command).idleWord ∧
        (d.perform ⟨.getNext, page, slot⟩).data = ((d.slot? i).getD .empty).key
    | none =>
      (d.perform ⟨.getNext, page, slot⟩).operation =
          (⟨.getNext, page, g.maxIndex⟩ : Command).idleWord ∧
        (d.perform ⟨.getNext, page, slot⟩).data = 0#_ := by
  have hcongr : firstValid? { d with history := ⟨.getNext, page, slot⟩ :: d.history }
      (searchStart g slot) = d.firstValid? (searchStart g slot) :=
    firstValid?_congr rfl _
  unfold firstAfter? perform effect
  dsimp only
  rw [hcongr]
  cases hfirst : d.firstValid? (searchStart g slot) with
  | none => exact ⟨rfl, rfl⟩
  | some k =>
      have hmem := List.mem_of_find?_eq_some hfirst
      rw [List.mem_range'_1] at hmem
      have hk : (BitVec.ofNat 16 k).toNat = k := ofNat_toNat_of_le (g := g) (by omega)
      refine ⟨rfl, ?_⟩
      simp only [slot?, hk]

end Tcam.Device
