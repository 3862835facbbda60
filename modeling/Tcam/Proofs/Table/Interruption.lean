import Mathlib.Control.Monad.Basic
import Tcam.Proofs.Table.Answers

/-!
# Loads that break off

A load writes the key page last, and only the key page makes a slot valid.  So wherever
a load into an invalid slot breaks off, and whatever the slot held before, the slot stays
invalid or holds the whole entry.  Which of the two is the case depends on whether the
block has executed the load of the key page, and not on what the operation returned.
-/

namespace Tcam

namespace Device

variable {g : Geometry}

/-- From `d` to `d'` an initial part of the pages of an image has been loaded. -/
def LoadsPart (d : Device g) (slot : SlotIndex) (image : SlotImage) (d' : Device g) : Prop :=
  ∃ done, done <+: g.loadOrder ∧ d.Loads slot image done d'

theorem LoadsPart.nothing (d : Device g) (slot : SlotIndex) (image : SlotImage) :
    d.LoadsPart slot image d :=
  ⟨[], List.nil_prefix, .nil rfl rfl⟩

theorem load_mem_loads_iff {slot : SlotIndex} {page : Page} {pages : List Page} :
    ⟨.load, page, slot⟩ ∈ (loads slot pages).reverse ↔ page ∈ pages := by
  simp [loads]

end Device

namespace Table

variable {t : Table} {l l' : Lock (Table.State (Device t.geometry))} {slot : SlotIndex}
  {entry : Entry}

/-- A load writes an initial part of the pages and executes nothing else. -/
theorem after_loadEntry_loadsPart (hvalid : t.geometry.Valid)
    (l : Lock (Table.State (Device t.geometry))) (slot : SlotIndex) (entry : Entry) :
    l.content.bus.LoadsPart slot (.ofEntry entry)
      ((t.loadEntry slot entry).locked.after l).content.bus := by
  cases hl : l.poisoned with
  | true =>
      have hkept : (t.loadEntry slot entry).locked.after l = l := by
        simp [Transaction.after, Session.locked, Lock.hold, hl]
      rw [hkept]
      exact .nothing _ _ _
  | false =>
      have hends : Transaction.Ends t.pollLimit (t.loadEntry slot entry).locked l
          (fun _ s' => l.content.bus.LoadsPart slot (.ofEntry entry) s'.bus)
          (fun _ s' => l.content.bus.LoadsPart slot (.ofEntry entry) s'.bus) := by
        refine .locked hl ((loadEntry_loads hvalid slot entry).mono ?_ ?_)
        · exact fun _ _ h => ⟨_, List.prefix_rfl, h.2.2⟩
        · rintro e s' (⟨-, rfl⟩ | ⟨-, -, rfl⟩ | ⟨-, -, -, h⟩)
          · exact .nothing _ _ _
          · exact .nothing _ _ _
          · exact h
      exact hends.after.2

/-- However a load into an invalid slot ends, the slot is valid afterwards exactly if the
load of the key page was executed.  Then the slot reads back as the whole entry once the
hardware works.  Otherwise the slot is not found, and loading the entry again succeeds. -/
theorem loadEntry_allOrNothing (hgeometry : t.geometry.validate = .ok ())
    (hslot : t.geometry.checkSlot slot = .ok ()) (hentry : entry.check t.geometry = .ok ())
    (hempty : l.content.bus.isValid slot = false)
    (h : (t.loadEntry slot entry).locked.after l = l') :
    ∃ executed, l'.content.bus.history = executed ++ l.content.bus.history ∧
      (l'.content.bus.isValid slot = true ↔ ⟨.load, .key, slot⟩ ∈ executed) ∧
      ∀ later : Lock (Table.State (Device t.geometry)), later.poisoned = false →
        later.content.bus.Ready t.pollLimit →
        later.content.bus.slot? slot = l'.content.bus.slot? slot →
        (⟨.load, .key, slot⟩ ∈ executed →
          (t.readEntry slot).locked.result later = .ok ⟨slot, true, entry⟩) ∧
        (⟨.load, .key, slot⟩ ∉ executed →
          (t.findEntry slot).locked.result later = .error (.notFound slot) ∧
          ∃ again, (t.loadEntry slot entry).locked later = .ok () again ∧
            (t.readEntry slot).locked.result again = .ok ⟨slot, true, entry⟩) := by
  have hvalid := Geometry.validate_eq_ok_iff.mp hgeometry
  have hmax := (Geometry.checkSlot_eq_ok_iff.mp hslot).2
  obtain ⟨done, hdone, hloads⟩ := after_loadEntry_loadsPart hvalid l slot entry
  rw [h] at hloads
  have hloaded : l'.content.bus.isValid slot = true ↔ Page.key ∈ done := by
    rw [Device.isValid_of_loaded hmax hloads.slots, hempty]
    simp
  refine ⟨_, hloads.history, hloaded.trans Device.load_mem_loads_iff.symm, ?_⟩
  intro later husable hready hkept
  have hlater : Answers later.content.bus later := ⟨husable, hready, rfl⟩
  rw [Device.load_mem_loads_iff]
  refine ⟨fun hkey => ?_, fun hkey => ⟨?_, ?_⟩⟩
  · -- The key page is the last one, so all pages were loaded.
    have hslots := hloads.slots
    rw [Geometry.eq_loadOrder_of_key_mem hdone hkey] at hslots
    rw [hlater.result_readEntry hvalid hslot, Device.content_congr_slot? hkept,
      Device.content_of_loaded hmax hentry hslots]
  · have hinvalid : later.content.bus.isValid slot = false := by
      rw [Device.isValid_congr_slot? hkept, Bool.eq_false_iff]
      exact fun hkey' => hkey (hloaded.mp hkey')
    have hshown : later.content.bus.isValid slot = true → later.content.bus.Present slot :=
      fun hvalid' => nomatch hvalid'.symm.trans hinvalid
    rw [hlater.result_findEntry hvalid hslot hshown, hinvalid]
    rfl
  · obtain ⟨again, hrun, hagain, hslots⟩ := hlater.loadEntry hvalid hslot hentry
    refine ⟨again, hrun, ?_⟩
    rw [hagain.result_readEntry hvalid hslot, Device.content_of_loaded hmax hentry hslots]

/-- The ingress table. -/
def tableSample : Table :=
  ⟨.ingress, 1000⟩

/-- The flushed table, with an access of its device that will fail. -/
def faultySample (n : Nat) : Lock (Table.State (Device tableSample.geometry)) :=
  .ofContent (.ofBus ((Device.fresh tableSample.geometry).failNthAccess n))

theorem isValid_faultySample (n : Nat) (slot : SlotIndex) :
    (faultySample n).content.bus.isValid slot = false :=
  Device.isValid_of_flushedAll rfl slot

/-- An entry for the frames of all ports but one. -/
def portsSample : Entry :=
  (default : Entry).withPorts fun _ => ⟨default, .single 3⟩

theorem check_portsSample : portsSample.check tableSample.geometry = .ok () := by
  decide +kernel

/-- What is left of the table after an entry was to be loaded. -/
def interruptedSample (n : Nat) : Lock (Table.State (Device tableSample.geometry)) :=
  (tableSample.loadEntry 3#16 portsSample).locked.after (faultySample n)

/-- If the last access fails, the load has failed and yet the entry is there.  If an
access in the middle fails, the slot is not found and can be loaded again. -/
theorem loadEntry_allOrNothing_faultySample :
    let load := (tableSample.loadEntry 3#16 portsSample).locked
    let read := (tableSample.readEntry 3#16).locked
    tableSample.geometry.validate = .ok () ∧ tableSample.geometry.checkSlot 3#16 = .ok () ∧
      portsSample.check tableSample.geometry = .ok () ∧
      (∀ n, (faultySample n).content.bus.isValid 3#16 = false) ∧
      (load.result (faultySample 72) =
          .error (.transport (.access ⟨0x1f#8⟩ operationRegister .injected)) ∧
        read.result (interruptedSample 72) = .ok ⟨3#16, true, portsSample⟩) ∧
      (load.result (faultySample 20) =
          .error (.transport (.access ⟨0x1f#8⟩ (dataRegister 6) .injected)) ∧
        (tableSample.findEntry 3#16).locked.result (interruptedSample 20) =
          .error (.notFound 3#16) ∧
        ∃ again, load (interruptedSample 20) = .ok () again ∧
          read.result again = .ok ⟨3#16, true, portsSample⟩) := by
  intro load read
  have hempty (n : Nat) := isValid_faultySample n 3#16
  refine ⟨rfl, rfl, check_portsSample, hempty, ⟨by decide +kernel, ?late⟩, by decide +kernel,
    ?early⟩
  case late =>
    have hpoison : (interruptedSample 72).poisoned = false := by
      decide +kernel
    have hready : (interruptedSample 72).content.bus.Ready tableSample.pollLimit :=
      ⟨by decide +kernel, by decide +kernel, by decide +kernel, by decide +kernel⟩
    have hloaded : (interruptedSample 72).content.bus.isValid 3#16 = true := by
      decide +kernel
    obtain ⟨_, -, hiff, hlater⟩ := loadEntry_allOrNothing rfl rfl check_portsSample (hempty 72)
      (rfl : _ = interruptedSample 72)
    exact (hlater _ hpoison hready rfl).1 (hiff.mp hloaded)
  case early =>
    have hpoison : (interruptedSample 20).poisoned = false := by
      decide +kernel
    have hready : (interruptedSample 20).content.bus.Ready tableSample.pollLimit :=
      ⟨by decide +kernel, by decide +kernel, by decide +kernel, by decide +kernel⟩
    have hunloaded : (interruptedSample 20).content.bus.isValid 3#16 = false := by
      decide +kernel
    obtain ⟨_, -, hiff, hlater⟩ := loadEntry_allOrNothing rfl rfl check_portsSample (hempty 20)
      (rfl : _ = interruptedSample 20)
    refine (hlater _ hpoison hready rfl).2 fun hkey => ?_
    exact absurd (hiff.mpr hkey) (Bool.eq_false_iff.mp hunloaded)

end Table

end Tcam
