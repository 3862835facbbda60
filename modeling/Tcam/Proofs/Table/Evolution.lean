import Tcam.Proofs.Table.Composition

/-!
# Slots under the operations of a table

Every basic operation changes slots only as `Device.Evolves` allows, in any state
of the device and however the operation ends.  What is composed of basic
operations inherits this (`evolving_of_basic`).
-/

namespace Tcam

namespace Table

open Session (Ends)

variable {t : Table} {α : Type}

/-- However the session ends, it has changed slots in the known ways only. -/
def Evolving (t : Table) (m : Session (Device t.geometry) α) : Prop :=
  ∀ s, Ends t.pollLimit m s (fun _ s' => s.bus.Evolves s'.bus) (fun _ s' => s.bus.Evolves s'.bus)

/-- The session changes no slot. -/
abbrev Reads (t : Table) (m : Session (Device t.geometry) α) : Prop :=
  t.Within (fun d d' => d'.slots = d.slots) m

variable (hvalid : t.geometry.Valid)

/-- An interrupted load has loaded some of the pages. -/
theorem PartlyLoaded.evolves {s s' : Table.State (Device t.geometry)} {slot : SlotIndex}
    {entry : Entry} (hslot : t.geometry.checkSlot slot = .ok ())
    (hentry : entry.check t.geometry = .ok ()) (h : PartlyLoaded s slot entry s') :
    s.bus.Evolves s'.bus := by
  obtain ⟨done, hdone, hslots⟩ := h
  exact Device.evolves_loaded hslot hentry (fun _ hpage => hdone.subset hpage) hslots

include hvalid

theorem reads_readEntry (slot : SlotIndex) : t.Reads (t.readEntry slot) := by
  refine fun s => (readEntry_ends hvalid slot).mono (fun _ _ h => h.2.2) ?_
  rintro e s' (⟨-, rfl⟩ | ⟨-, -, h⟩)
  · rfl
  · exact h

theorem reads_getNextEntry (slot : SlotIndex) : t.Reads (t.getNextEntry slot) := by
  refine fun s => (getNextEntry_ends hvalid slot).mono (fun _ _ h => h.2.1) ?_
  rintro e s' (⟨-, rfl⟩ | ⟨-, h, -⟩)
  · rfl
  · exact h

theorem reads_findEntry (slot : SlotIndex) : t.Reads (t.findEntry slot) := by
  refine fun s => (findEntry_ends hvalid slot).mono (fun _ _ h => h.2.1) ?_
  rintro e s' (⟨-, rfl⟩ | ⟨-, h, -⟩)
  · rfl
  · exact h

theorem evolving_flushAll : t.Evolving t.flushAll := by
  intro s
  refine (flushAll_ends hvalid).mono (fun _ _ h => Device.evolves_flushAll h) ?_
  rintro e s' ⟨-, h | h⟩
  · exact .same h
  · exact Device.evolves_flushAll h

theorem evolving_flushEntry (slot : SlotIndex) : t.Evolving (t.flushEntry slot) := by
  intro s
  refine (flushEntry_ends hvalid slot).mono ?_ ?_
  · exact fun _ _ h => Device.evolves_flushEntry h.1 h.2
  · rintro e s' (⟨-, rfl⟩ | ⟨hslot, -, h | h⟩)
    · exact .same rfl
    · exact .same h
    · exact Device.evolves_flushEntry hslot h

theorem evolving_loadEntry (slot : SlotIndex) (entry : Entry) :
    t.Evolving (t.loadEntry slot entry) := by
  intro s
  refine (loadEntry_ends hvalid slot entry).mono ?_ ?_
  · exact fun _ _ h => Device.evolves_loaded h.1 h.2.1 (fun _ hpage => hpage) h.2.2
  · rintro e s' (⟨-, rfl⟩ | ⟨-, -, rfl⟩ | ⟨hslot, hentry, -, h⟩)
    · exact .same rfl
    · exact .same rfl
    · exact h.evolves hslot hentry

theorem evolving_readEntry (slot : SlotIndex) : t.Evolving (t.readEntry slot) :=
  (reads_readEntry hvalid slot).mono fun _ _ => .same

theorem evolving_getNextEntry (slot : SlotIndex) : t.Evolving (t.getNextEntry slot) :=
  (reads_getNextEntry hvalid slot).mono fun _ _ => .same

/-- Sessions of basic operations change slots in the known ways only. -/
theorem evolving_of_basic {m : Script α} (h : Composed t.Basic m) :
    t.Evolving (m (Device t.geometry)) := by
  refine within_of_basic (R := Device.Evolves) (fun _ => .same rfl) (fun _ _ _ => .trans) ?_ h
  intro β m h
  cases h with
  | flushAll => exact evolving_flushAll hvalid
  | flushEntry slot => exact evolving_flushEntry hvalid slot
  | loadEntry slot entry => exact evolving_loadEntry hvalid slot entry
  | readEntry slot => exact evolving_readEntry hvalid slot
  | getNextEntry slot => exact evolving_getNextEntry hvalid slot
  | throw e he => exact fun _ => Ends.throw he (.same rfl)

end Table

end Tcam
