import Tcam.Proofs.Device.Execute

/-!
# Devices that differ in their registers

Two devices are alike if they have the same slots, are busy for equally long, and
have their pending fault at the same distance.  Data registers, operation register
and extension register may hold anything.  Accesses and commands keep devices
alike, except for a load of different data.
-/

namespace Tcam.Device

variable {g : Geometry} {d₁ d₂ : Device g}

/-- The devices differ at most in their registers and in what they count. -/
structure Alike (d₁ d₂ : Device g) : Prop where
  slots : d₁.slots = d₂.slots
  busyDelay : d₁.busyDelay = d₂.busyDelay
  busyRemaining : d₁.busyRemaining = d₂.busyRemaining
  stuckBusy : d₁.stuckBusy = d₂.stuckBusy
  fault : ∀ n, 0 < n →
    (d₁.failAt = some (d₁.accesses + n) ↔ d₂.failAt = some (d₂.accesses + n))

theorem Alike.faultDue (h : d₁.Alike d₂) : d₁.FaultDue ↔ d₂.FaultDue :=
  h.fault 1 Nat.one_pos

theorem Alike.busyBit (h : d₁.Alike d₂) : d₁.busyBit = d₂.busyBit := by
  unfold Device.busyBit
  rw [h.stuckBusy, h.busyRemaining]

theorem Alike.counted (h : d₁.Alike d₂) : d₁.counted.Alike d₂.counted where
  slots := h.slots
  busyDelay := h.busyDelay
  busyRemaining := h.busyRemaining
  stuckBusy := h.stuckBusy
  fault n hn := by
    have hfault := h.fault (1 + n) (by omega)
    rw [← Nat.add_assoc, ← Nat.add_assoc] at hfault
    exact hfault

theorem Alike.faulted (h : d₁.Alike d₂) : d₁.faulted.Alike d₂.faulted where
  slots := h.slots
  busyDelay := h.busyDelay
  busyRemaining := h.busyRemaining
  stuckBusy := h.stuckBusy
  fault _ _ := iff_of_false nofun nofun

theorem Alike.polled (h : d₁.Alike d₂) : d₁.polled.Alike d₂.polled where
  slots := h.slots
  busyDelay := h.busyDelay
  busyRemaining := congrArg (· - 1) h.busyRemaining
  stuckBusy := h.stuckBusy
  fault := h.counted.fault

/-- Registers do not matter. -/
theorem Alike.withRegisters (h : d₁.Alike d₂) (operation₁ operation₂ extension₁ extension₂ : Word)
    (data₁ data₂ : Registers dataRegisters) :
    Alike { d₁ with operation := operation₁, extension := extension₁, data := data₁ }
      { d₂ with operation := operation₂, extension := extension₂, data := data₂ } :=
  ⟨h.slots, h.busyDelay, h.busyRemaining, h.stuckBusy, h.fault⟩

/-- The command does the same to the slots of both devices. -/
def SameLoad (c : Command) (d₁ d₂ : Device g) : Prop :=
  c.opcode = .load → (d₁.data.setWidth _ : Registers c.page.registers) = d₂.data.setWidth _

theorem sameLoad_of_ne {c : Command} (d₁ d₂ : Device g) (h : c.opcode ≠ .load) :
    SameLoad c d₁ d₂ :=
  fun hload => absurd hload h

theorem Alike.perform (h : d₁.Alike d₂) {c : Command} (hload : SameLoad c d₁ d₂) :
    (d₁.perform c).Alike (d₂.perform c) := by
  have hslots : (d₁.perform c).slots = (d₂.perform c).slots := by
    obtain ⟨opcode, page, index⟩ := c
    cases opcode with
    | flushAll => rfl
    | flushEntry =>
        rw [perform_flushEntry_slots, perform_flushEntry_slots]
        exact updateSlot_slots_congr h.slots _ _
    | load =>
        rw [perform_load_slots, perform_load_slots, hload rfl]
        exact updateSlot_slots_congr h.slots _ _
    | getNext =>
        rw [perform_getNext_slots, perform_getNext_slots]
        exact h.slots
    | read => exact h.slots
  rw [perform_eq c d₁, perform_eq c d₂]
  exact ⟨hslots, h.busyDelay, h.busyDelay, h.stuckBusy, h.fault⟩

/-- The devices agree in the registers that commands write. -/
def SameRegisters (d₁ d₂ : Device g) : Prop :=
  d₁.operation = d₂.operation ∧ d₁.data = d₂.data

theorem SameRegisters.congr {d₁' d₂' : Device g} (h : SameRegisters d₁ d₂) (h₁ : d₁'.Agrees d₁)
    (h₂ : d₂'.Agrees d₂) : SameRegisters d₁' d₂' :=
  ⟨h₁.operation.trans (h.1.trans h₂.operation.symm), h₁.data.trans (h.2.trans h₂.data.symm)⟩

/-- Reads and searches show nothing of what the registers held before. -/
theorem Alike.sameRegisters_read (h : d₁.Alike d₂) (page : Page) (slot : SlotIndex) :
    SameRegisters (d₁.perform ⟨.read, page, slot⟩) (d₂.perform ⟨.read, page, slot⟩) := by
  refine ⟨rfl, ?_⟩
  rw [perform_read_data, perform_read_data, slot?_congr h.slots]

theorem Alike.sameRegisters_getNext (h : d₁.Alike d₂) (page : Page) (slot : SlotIndex) :
    SameRegisters (d₁.perform ⟨.getNext, page, slot⟩) (d₂.perform ⟨.getNext, page, slot⟩) := by
  have h₁ := d₁.perform_getNext page slot
  have h₂ := d₂.perform_getNext page slot
  have hfirst : d₁.firstAfter? slot = d₂.firstAfter? slot := by
    unfold firstAfter?
    rw [firstValid?_congr h.slots]
  rw [hfirst] at h₁
  cases hfound : d₂.firstAfter? slot with
  | none =>
      rw [hfound] at h₁ h₂
      exact ⟨h₁.1.trans h₂.1.symm, h₁.2.trans h₂.2.symm⟩
  | some i =>
      rw [hfound] at h₁ h₂
      refine ⟨h₁.1.trans h₂.1.symm, h₁.2.trans (Eq.trans ?_ h₂.2.symm)⟩
      rw [slot?_congr h.slots]

end Tcam.Device
