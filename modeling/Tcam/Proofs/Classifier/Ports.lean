import Mathlib.Data.Finset.Erase
import Tcam.Proofs.Classifier.Interruption
import Tcam.Proofs.Device.Canonical
import Tcam.Proofs.Table.Answers

/-!
# Changes of ports

To change the ports of a slot, a table searches for the slot, reads all of its pages,
changes two numbers of the entry and loads all pages again.  For the entry this comes
down to an operation on a set: admitting a port inserts it into the set of admitted
ports, blocking takes it out, and nothing else is different afterwards
(`portChanges_setOperations`).
-/

namespace Tcam

/-- The source ports that an entry compares. -/
def Entry.sourcePorts (e : Entry) : Masked PortVector :=
  ⟨e.key.value.sourcePorts, e.key.mask.sourcePorts⟩

/-- A change of the ports of an entry. -/
inductive PortChange where
  | add (port : Octet)
  | remove (port : Octet)
  deriving DecidableEq, Repr

namespace PortChange

open Classifier (PortUpdate admitting blocking)

/-! ## The changes as operations on sets -/

def port : PortChange → Octet
  | .add port => port
  | .remove port => port

/-- The port is no longer admitted afterwards. -/
def blocks : PortChange → Bool
  | .add _ => false
  | .remove _ => true

/-- What the change does to a masked port vector. -/
def update : PortChange → PortUpdate
  | .add port => admitting port
  | .remove port => blocking port

/-- What the change does to the set of admitted ports. -/
def apply (ports : Finset Nat) : PortChange → Finset Nat
  | .add port => insert port.toNat ports
  | .remove port => ports.erase port.toNat

/-- What changes do to a masked port vector, one after the other. -/
def updates (changes : List PortChange) : PortUpdate := fun ports =>
  changes.foldl (fun ports change => change.update ports) ports

variable {change change' : PortChange} {changes : List PortChange} {ports : Masked PortVector}

theorem value_update (change : PortChange) (ports : Masked PortVector) :
    (change.update ports).value = ports.value.erase change.port.toNat := by
  cases change <;> rfl

/-- The mask tells at the port what the change was, and is otherwise the old one. -/
theorem contains_mask_update (change : PortChange) (ports : Masked PortVector) (i : Nat) :
    (change.update ports).mask.contains i =
      if i = change.port.toNat then change.blocks && decide (i < 16)
      else ports.mask.contains i := by
  have hout (h : ¬i < 16) : ports.mask.contains i = false :=
    PortVector.contains_of_le (Nat.le_of_not_lt h)
  cases change with
  | add port =>
      rw [update, admitting, PortVector.contains_erase, PortChange.port, blocks]
      by_cases hi : i = port.toNat <;> simp [hi]
  | remove port =>
      rw [update, blocking, PortVector.contains_insert, PortChange.port, blocks]
      by_cases hi : i = port.toNat
      · by_cases hlt : i < 16
        · rw [if_pos hi, decide_eq_true ⟨hlt, hi⟩, decide_eq_true hlt, Bool.or_true, Bool.and_true]
        · simp [hlt, hout hlt]
      · simp [hi]

theorem conventional_update (h : ports.Conventional) : (change.update ports).Conventional := by
  rw [Masked.conventional_iff] at h ⊢
  intro i hmask
  rw [value_update, PortVector.contains_erase]
  by_cases hi : i = change.port.toNat
  · simp [hi]
  · rw [contains_mask_update, if_neg hi] at hmask
    rw [h i hmask, Bool.false_and]

theorem admitted_update (h : ports.Conventional) (hport : change.port.toNat < PortVector.width) :
    (change.update ports).admitted = apply ports.admitted change := by
  have hlt : change.port.toNat < 16 := Nat.lt_trans hport (by decide)
  ext i
  rw [Masked.mem_admitted (conventional_update h), contains_mask_update]
  by_cases hi : i = change.port.toNat
  · rw [if_pos hi, hi, decide_eq_true hlt, Bool.and_true, and_iff_right hport]
    cases change with
    | add port => exact iff_of_true rfl (Finset.mem_insert_self _ _)
    | remove port => exact iff_of_false nofun (Finset.notMem_erase _ _)
  · rw [if_neg hi, ← Masked.mem_admitted h]
    cases change with
    | add port => exact (Finset.mem_insert.trans (or_iff_right hi)).symm
    | remove port => exact (Finset.mem_erase.trans (and_iff_right hi)).symm

theorem keepsWidth (hport : change.port.toNat < PortVector.width) :
    Table.KeepsWidth change.update := by
  cases change with
  | add port => exact Table.keepsWidth_admit port.toNat
  | remove port => exact Table.keepsWidth_block hport

theorem update_update (change : PortChange) (ports : Masked PortVector) :
    change.update (change.update ports) = change.update ports := by
  cases change with
  | add port => exact Classifier.admitting_admitting port ports
  | remove port => exact Classifier.blocking_blocking port ports

/-- Changes of different ports can be exchanged. -/
theorem update_comm (hne : change.port ≠ change'.port) (ports : Masked PortVector) :
    change'.update (change.update ports) = change.update (change'.update ports) := by
  have hne' : change.port.toNat ≠ change'.port.toNat := fun h => hne (BitVec.eq_of_toNat_eq h)
  have hvalue : (change'.update (change.update ports)).value =
      (change.update (change'.update ports)).value := by
    simp only [value_update, PortVector.erase_comm]
  have hmask : (change'.update (change.update ports)).mask =
      (change.update (change'.update ports)).mask := by
    apply PortVector.eq_of_contains
    intro i
    simp only [contains_mask_update]
    by_cases hi : i = change.port.toNat
    · rw [if_neg (hi ▸ hne'), if_pos hi, if_pos hi]
    · rw [if_neg hi, if_neg hi]
  rw [Masked.mk.injEq]
  exact ⟨hvalue, hmask⟩

/-! ## Runs of changes -/

/-- A run of changes keeps the convention and acts on the set of admitted ports. -/
theorem admitted_updates (h : ports.Conventional)
    (hports : ∀ change ∈ changes, change.port.toNat < PortVector.width) :
    (updates changes ports).Conventional ∧
      (updates changes ports).admitted = changes.foldl apply ports.admitted := by
  -- The induction is on the changes that are left.
  induction changes generalizing ports with
  | nil => exact ⟨h, rfl⟩
  | cons change changes ih =>
      obtain ⟨hport, hrest⟩ := List.forall_mem_cons.mp hports
      obtain ⟨hconventional, hadmitted⟩ := ih (conventional_update h) hrest
      rw [admitted_update h hport] at hadmitted
      exact ⟨hconventional, hadmitted⟩

/-- Ports that no change names keep their bit of the value. -/
theorem contains_value_updates {i : Nat} (hi : ∀ change ∈ changes, change.port.toNat ≠ i) :
    (updates changes ports).value.contains i = ports.value.contains i := by
  induction changes generalizing ports with
  | nil => rfl
  | cons change changes ih =>
      obtain ⟨hne, hrest⟩ := List.forall_mem_cons.mp hi
      refine (ih hrest).trans ?_
      rw [value_update, PortVector.contains_erase, decide_eq_true (Ne.symm hne), Bool.and_true]

theorem keepsWidth_updates
    (hports : ∀ change ∈ changes, change.port.toNat < PortVector.width) :
    Table.KeepsWidth (updates changes) := by
  induction changes with
  | nil => exact fun _ h => h
  | cons change changes ih =>
      obtain ⟨hport, hrest⟩ := List.forall_mem_cons.mp hports
      exact fun ports h => ih hrest _ (keepsWidth hport ports h)

/-! ## The changes as operations of a table -/

/-- Changes the ports of a slot. -/
def call {σ : Type} [RegisterBus σ] (t : Table) (slot : SlotIndex) :
    PortChange → Transaction σ Unit
  | .add port => (t.addPort slot port).locked
  | .remove port => (t.removePort slot port).locked

/-- Changes the ports of a slot again and again. -/
def callAll {σ : Type} [RegisterBus σ] (t : Table) (slot : SlotIndex)
    (changes : List PortChange) : Transaction σ Unit :=
  changes.forM (call t slot)

theorem call_eq {σ : Type} [RegisterBus σ] (t : Table) (slot : SlotIndex) (change : PortChange) :
    (change.call t slot : Transaction σ Unit) =
      (t.updatePorts slot change.port change.update).locked := by
  cases change <;> rfl

theorem callAll_cons_of_ok {σ : Type} [RegisterBus σ] {t : Table} {slot : SlotIndex}
    {l l₁ : Lock (Table.State σ)} (h : change.call t slot l = .ok () l₁)
    (changes : List PortChange) :
    callAll t slot (change :: changes) l = callAll t slot changes l₁ := by
  change EStateM.bind (change.call t slot) (fun _ => callAll t slot changes) l = _
  unfold EStateM.bind
  rw [h]

/-- A run ends with the first call that fails. -/
theorem callAll_cons_of_error {σ : Type} [RegisterBus σ] {t : Table} {slot : SlotIndex}
    {l l₁ : Lock (Table.State σ)} {e : Error} (h : change.call t slot l = .error e l₁)
    (changes : List PortChange) : callAll t slot (change :: changes) l = .error e l₁ := by
  change EStateM.bind (change.call t slot) (fun _ => callAll t slot changes) l = _
  unfold EStateM.bind
  rw [h]

end PortChange

namespace Device

variable {g : Geometry}

/-- The source ports that a read of the slot gives. -/
def portsAt (d : Device g) (slot : SlotIndex) : Masked PortVector :=
  (d.content slot).entry.sourcePorts

/-- From `d` to `d'` the ports of a slot have changed, and nothing else: of the entry
everything but its ports is as before, and so is every other slot. -/
structure PortsChanged (changes : List PortChange) (slot : SlotIndex) (d d' : Device g) :
    Prop where
  admitted : (d'.portsAt slot).admitted = changes.foldl PortChange.apply (d.portsAt slot).admitted
  conventional : (d'.portsAt slot).Conventional
  untouched : ∀ i, (∀ change ∈ changes, change.port.toNat ≠ i) →
    (d'.portsAt slot).value.contains i = (d.portsAt slot).value.contains i
  rest : d'.content slot = { d.content slot with
    entry := (d.content slot).entry.withPorts fun _ => d'.portsAt slot }
  others : ∀ i, i ≠ slot → d'.slot? i = d.slot? i

end Device

namespace Table

open Session (Ends)
open Classifier (PortUpdate withPortsAt)

variable {t : Table} {d d₁ d' : Device t.geometry} {l l' : Lock (Table.State (Device t.geometry))}
  {slot : SlotIndex} {update update' : PortUpdate} {change : PortChange}
  {changes : List PortChange}

/-- From `d` to `d'` the entry of a slot has been loaded again, with its ports changed. -/
def PortsLoaded (slot : SlotIndex) (update : PortUpdate) (d d' : Device t.geometry) : Prop :=
  d'.slots = d.loaded slot (.ofEntry (withPortsAt d slot update)) t.geometry.loadOrder

theorem PortsLoaded.content (hslot : slot ≤ t.geometry.maxIndex) (hupdate : KeepsWidth update)
    (h : PortsLoaded slot update d d') : d'.content slot = ⟨slot, true, withPortsAt d slot update⟩ :=
  Device.content_of_loaded hslot (check_withPorts (d.check_content slot) hupdate) h

theorem PortsLoaded.congr (h : PortsLoaded slot update d₁ d') (hslots : d₁.slots = d.slots) :
    PortsLoaded slot update d d' := by
  unfold PortsLoaded withPortsAt at h ⊢
  rw [h, Device.content_congr hslots, Device.loaded_congr hslots]

theorem PortsLoaded.trans (hslot : slot ≤ t.geometry.maxIndex) (hupdate : KeepsWidth update)
    (h : PortsLoaded slot update d d₁) (h' : PortsLoaded slot update' d₁ d') :
    PortsLoaded slot (fun ports => update' (update ports)) d d' := by
  have hentry : withPortsAt d₁ slot update' =
      withPortsAt d slot fun ports => update' (update ports) := by
    rw [withPortsAt, h.content hslot hupdate]
    rfl
  unfold PortsLoaded at h' ⊢
  rw [h', hentry, Device.loaded_of_loaded List.prefix_rfl h]

/-- What is left depends on what has become of the ports only. -/
theorem PortsLoaded.slots_eq (h : PortsLoaded slot update d d₁)
    (h' : PortsLoaded slot update' d d') (hsame : ∀ ports, update ports = update' ports) :
    d₁.slots = d'.slots := by
  obtain rfl : update = update' := funext hsame
  exact Eq.trans h (Eq.symm h')

/-- A slot that could be loaded again may just as well have been. -/
theorem portsLoaded_refl (hd : d.Canonical) (hvalid : d.isValid slot = true) :
    PortsLoaded slot (fun ports => ports) d d :=
  (hd.loaded_eq hvalid fun _ _ => rfl).symm

theorem PortsLoaded.portsChanged (hslot : slot ≤ t.geometry.maxIndex)
    (hloaded : d.isValid slot = true) (hconventional : (d.portsAt slot).Conventional)
    (hports : ∀ change ∈ changes, change.port.toNat < PortVector.width)
    (h : PortsLoaded slot (PortChange.updates changes) d d') :
    d.PortsChanged changes slot d' := by
  have hcontent := h.content hslot (PortChange.keepsWidth_updates hports)
  have hportsAt : d'.portsAt slot = PortChange.updates changes (d.portsAt slot) := by
    rw [Device.portsAt, hcontent]
    rfl
  obtain ⟨hkept, hadmitted⟩ := PortChange.admitted_updates hconventional hports
  refine ⟨?admitted, ?conventional, ?untouched, ?rest, ?others⟩
  case admitted => rw [hportsAt, hadmitted]
  case conventional =>
    rw [hportsAt]
    exact hkept
  case untouched =>
    intro i hi
    rw [hportsAt]
    exact PortChange.contains_value_updates hi
  case rest =>
    have hbefore : d.content slot = ⟨slot, true, (d.content slot).entry⟩ :=
      congrArg (fun b => (⟨slot, b, (d.content slot).entry⟩ : Slot))
        ((d.valid_content slot).trans hloaded)
    rw [hcontent, hportsAt, hbefore]
    rfl
  case others => exact fun i hi => Device.slot?_of_loaded_of_ne h hi

/-- A call refuses an argument, or it loads the entry with other ports. -/
theorem call_ends (hvalid : t.geometry.Valid) (hl : l.poisoned = false) (change : PortChange)
    (slot : SlotIndex) :
    Transaction.Ends t.pollLimit (change.call t slot) l
      (fun _ s' => change.port.toNat < PortVector.width ∧ t.geometry.checkSlot slot = .ok () ∧
        l.content.bus.Present slot ∧ PortsLoaded slot change.update l.content.bus s'.bus)
      (fun _ s' => s'.bus.slots = l.content.bus.slots ∨
        change.port.toNat < PortVector.width ∧ t.geometry.checkSlot slot = .ok () ∧
          l.content.bus.Present slot ∧
          PartlyLoaded l.content slot (withPortsAt l.content.bus slot change.update) s') := by
  rw [PortChange.call_eq]
  refine .locked hl ((updatePorts_ends hvalid slot change.port PortChange.keepsWidth).mono ?_ ?_)
  · exact fun _ _ h => h
  · rintro e s' (⟨-, -, rfl⟩ | ⟨hport, ⟨-, rfl⟩ |
      ⟨hslot, ⟨-, -, hkept⟩ | ⟨-, hkept | ⟨hpresent, hpart⟩⟩⟩⟩)
    · exact Or.inl rfl
    · exact Or.inl rfl
    · exact Or.inl hkept
    · exact Or.inl hkept
    · exact Or.inr ⟨hport, hslot, hpresent, hpart⟩

theorem portsLoaded_of_call (hvalid : t.geometry.Valid) (hl : l.poisoned = false)
    (h : change.call t slot l = .ok () l') :
    l'.poisoned = false ∧ change.port.toNat < PortVector.width ∧
      slot ≤ t.geometry.maxIndex ∧ PortsLoaded slot change.update l.content.bus l'.content.bus := by
  rcases (call_ends hvalid hl change slot).cases with
    ⟨_, l₁, hok, hl₁, -, hport, hslot, -, hloaded⟩ | ⟨e, l₁, herror, -⟩
  · obtain ⟨-, rfl⟩ := EStateM.Result.ok.inj (hok.symm.trans h)
    exact ⟨hl₁, hport, (Geometry.checkSlot_eq_ok_iff.mp hslot).2, hloaded⟩
  · exact nomatch herror.symm.trans h

/-- Calls one after the other come down to one load of the entry. -/
theorem portsLoaded_of_callAll (hvalid : t.geometry.Valid) (hl : l.poisoned = false)
    (hupdate : KeepsWidth update) (hpast : PortsLoaded slot update d l.content.bus)
    (h : PortChange.callAll t slot changes l = .ok () l') :
    (∀ change ∈ changes, change.port.toNat < PortVector.width) ∧
      PortsLoaded slot (fun ports => PortChange.updates changes (update ports)) d
        l'.content.bus := by
  -- The induction is on the calls that are left.
  induction changes generalizing l update with
  | nil =>
      obtain ⟨-, rfl⟩ := EStateM.Result.ok.inj h
      exact ⟨nofun, hpast⟩
  | cons change changes ih =>
      cases hcall : change.call t slot l with
      | error e l₁ =>
          rw [PortChange.callAll_cons_of_error hcall] at h
          exact nomatch h
      | ok _ l₁ =>
          rw [PortChange.callAll_cons_of_ok hcall] at h
          obtain ⟨hl₁, hport, hslot, hloaded⟩ := portsLoaded_of_call hvalid hl hcall
          have hwidth : KeepsWidth fun ports => change.update (update ports) :=
            fun ports hports => PortChange.keepsWidth hport _ (hupdate ports hports)
          obtain ⟨hports, hrest⟩ := ih hl₁ hwidth (hpast.trans hslot hupdate hloaded) h
          exact ⟨List.forall_mem_cons.mpr ⟨hport, hports⟩, hrest⟩

/-- On a ready device a change of the ports of a valid slot succeeds. -/
theorem Answers.call (hvalid : t.geometry.Valid) (h : Answers d l)
    (hport : change.port.toNat < PortVector.width) (hslot : t.geometry.checkSlot slot = .ok ())
    (hpresent : d.Present slot) :
    ∃ l', change.call t slot l = .ok () l' ∧ Answers l'.content.bus l' ∧
      PortsLoaded slot change.update d l'.content.bus := by
  rw [PortChange.call_eq]
  obtain ⟨_, l', hrun, h', hloaded⟩ := h.ok_of_ends
    (Q := fun _ d' => PortsLoaded slot change.update l.content.bus d')
    ((updatePorts_ends hvalid slot change.port PortChange.keepsWidth).mono
      (fun _ _ hdone => hdone.2.2.2) (by
        rintro e s' (⟨hwide, -⟩ | ⟨-, ⟨hrefused, -⟩ | ⟨-, ⟨-, habsent, -⟩ | ⟨he, -⟩⟩⟩)
        · exact absurd hport hwide
        · exact nomatch hslot.symm.trans hrefused
        · exact absurd (hpresent.congr h.slots) habsent
        · exact he))
  exact ⟨l', hrun, h', hloaded.congr h.slots⟩

theorem Answers.callAll (hvalid : t.geometry.Valid) (h : Answers d l)
    (hports : ∀ change ∈ changes, change.port.toNat < PortVector.width)
    (hslot : t.geometry.checkSlot slot = .ok ()) (hpresent : d.Present slot) :
    ∃ l', PortChange.callAll t slot changes l = .ok () l' ∧ Answers l'.content.bus l' := by
  induction changes generalizing d l with
  | nil => exact ⟨l, rfl, h.usable, h.ready, rfl⟩
  | cons change changes ih =>
      obtain ⟨hport, hrest⟩ := List.forall_mem_cons.mp hports
      obtain ⟨l₁, hcall, h₁, hloaded⟩ := h.call hvalid hport hslot hpresent
      have hmax := (Geometry.checkSlot_eq_ok_iff.mp hslot).2
      obtain ⟨l', hrun, h'⟩ := ih h₁ hrest (hpresent.of_loaded hmax hloaded)
      exact ⟨l', (PortChange.callAll_cons_of_ok hcall changes).trans hrun, h'⟩

end Table

namespace Classifier

variable {c : Classifier} {l : Lock (Table.State (Device c.table.geometry))} {slot : SlotIndex}

/-- Changes of ports are set operations.  Whatever calls have been made before, a run of
successful changes of the ports of a valid slot inserts and deletes these ports in the
set of admitted ports and changes nothing else.  So repeating a call changes nothing, and
calls for different ports can be exchanged.  On a device that works, changes of ports
that there are succeed. -/
theorem portChanges_setOperations (hgeometry : c.table.geometry.validate = .ok ())
    (hl : c.Reachable l) (hloaded : l.content.bus.isValid slot = true)
    (hconventional : (l.content.bus.portsAt slot).Conventional) :
    (∀ changes l', PortChange.callAll c.table slot changes l = .ok () l' →
      l.content.bus.PortsChanged changes slot l'.content.bus) ∧
    (∀ (change : PortChange) l₁ l₂, change.call c.table slot l = .ok () l₁ →
      change.call c.table slot l₁ = .ok () l₂ → l₂.content.bus.slots = l₁.content.bus.slots) ∧
    (∀ (change change' : PortChange) l₁ l₂, change.port ≠ change'.port →
      PortChange.callAll c.table slot [change, change'] l = .ok () l₁ →
      PortChange.callAll c.table slot [change', change] l = .ok () l₂ →
      l₁.content.bus.slots = l₂.content.bus.slots) ∧
    (l.content.bus.Ready c.table.pollLimit → ∀ changes : List PortChange,
      (∀ change ∈ changes, change.port.toNat < PortVector.width) →
      ∃ l', PortChange.callAll c.table slot changes l = .ok () l' ∧
        (c.table.readEntry slot).locked.result l' = .ok (l'.content.bus.content slot)) := by
  have hvalid := Geometry.validate_eq_ok_iff.mp hgeometry
  obtain ⟨husable, hd⟩ := hl.evolves hvalid
  have hslot := hd.checkSlot hloaded
  have hmax := (Geometry.checkSlot_eq_ok_iff.mp hslot).2
  have hrun (changes : List PortChange) (l' : Lock (Table.State (Device c.table.geometry)))
      (h : PortChange.callAll c.table slot changes l = .ok () l') :=
    Table.portsLoaded_of_callAll hvalid husable (fun _ h => h)
      (Table.portsLoaded_refl (Device.canonical_of_evolves hd) hloaded) h
  refine ⟨fun changes l' h => ?run, fun change l₁ l₂ h₁ h₂ => ?again,
    fun change change' l₁ l₂ hne h₁ h₂ => ?exchanged, fun hready changes hports => ?progress⟩
  case run =>
    obtain ⟨hports, hchanged⟩ := hrun changes l' h
    exact hchanged.portsChanged hmax hloaded hconventional hports
  case again =>
    obtain ⟨husable₁, hport, -, hfirst⟩ := Table.portsLoaded_of_call hvalid husable h₁
    obtain ⟨-, -, -, hsecond⟩ := Table.portsLoaded_of_call hvalid husable₁ h₂
    exact (hfirst.trans hmax (PortChange.keepsWidth hport) hsecond).slots_eq hfirst
      change.update_update
  case exchanged =>
    exact (hrun _ _ h₁).2.slots_eq (hrun _ _ h₂).2 (PortChange.update_comm hne)
  case progress =>
    have hpresent := (hl.marked hvalid).present_iff.mpr hloaded
    have hanswers : Table.Answers l.content.bus l := ⟨husable, hready, rfl⟩
    obtain ⟨l', h, h'⟩ := hanswers.callAll hvalid hports hslot hpresent
    exact ⟨l', h, h'.result_readEntry hvalid hslot⟩

/-- Two ports of a rule are blocked, and one of them is admitted again. -/
theorem portChanges_setOperations_programmedSample :
    let d := programmedSample.content.bus
    let changes : List PortChange := [.remove 2#8, .remove 3#8, .add 2#8]
    ingressSample.table.geometry.validate = .ok () ∧ ingressSample.Reachable programmedSample ∧
      d.Ready ingressSample.table.pollLimit ∧ d.isValid 3#16 = true ∧
      (d.portsAt 3#16).Conventional ∧ (d.portsAt 3#16).admitted = Finset.range 11 ∧
      ∃ l', PortChange.callAll ingressSample.table 3#16 changes programmedSample = .ok () l' ∧
        (l'.content.bus.portsAt 3#16).admitted = {0, 1, 2, 4, 5, 6, 7, 8, 9, 10} := by
  intro d changes
  have hready : d.Ready ingressSample.table.pollLimit :=
    ⟨by decide +kernel, by decide +kernel, by decide +kernel, by decide +kernel⟩
  have hloaded : d.isValid 3#16 = true := by
    decide +kernel
  have hconventional : (d.portsAt 3#16).Conventional := by
    unfold Masked.Conventional
    decide +kernel
  have hadmitted : (d.portsAt 3#16).admitted = Finset.range 11 := by
    decide +kernel
  obtain ⟨hrun, -, -, hprogress⟩ :=
    portChanges_setOperations rfl reachable_programmedSample hloaded hconventional
  obtain ⟨l', h, -⟩ := hprogress hready changes (by decide)
  refine ⟨rfl, reachable_programmedSample, hready, hloaded, hconventional, hadmitted, l', h, ?_⟩
  rw [(hrun changes l' h).admitted, hadmitted]
  decide

end Classifier

end Tcam
