import Mathlib.Control.Monad.Basic
import Tcam.Proofs.Classifier.Walk

/-!
# Searching for a slot and reading it

A slot can be read directly, or it can be searched for, starting one slot before it.
The search has to deal with the wrap at the largest index, with a start below the
smallest one and with hits that look like misses, and still it agrees with the read:
it gives what the read gives, except that it does not find an invalid slot.
-/

namespace Tcam

namespace Table

variable {t : Table} {d : Device t.geometry} {l : Lock (Table.State (Device t.geometry))}

/-- What was read, unless the slot is invalid. -/
def ifValid (slot : SlotIndex) (x : Slot) : Except Error Slot :=
  if x.valid then .ok x else .error (.notFound slot)

/-- A search for a slot is a read of the slot that refuses an invalid one. -/
theorem Answers.result_findEntry_eq (hvalid : t.geometry.Valid) (h : Answers d l)
    (hmarked : d.Marked) (slot : SlotIndex) :
    (t.findEntry slot).locked.result l =
      (t.readEntry slot).locked.result l >>= ifValid slot := by
  cases hslot : t.geometry.checkSlot slot with
  | error e =>
      rw [h.result_findEntry_of_refused hslot, h.result_readEntry_of_refused hslot]
      rfl
  | ok =>
      rw [h.result_findEntry hvalid hslot hmarked.present_iff.mpr, h.result_readEntry hvalid hslot,
        ← d.valid_content slot]
      rfl

end Table

namespace Classifier

variable {c : Classifier} {l : Lock (Table.State (Device c.table.geometry))}

/-- In every state that calls lead to, a search for a slot finds exactly what a read of
the slot gives as valid.  An invalid slot is not found, and a slot outside of the table is
refused by both in the same way. -/
theorem findEntry_iff_readEntry (hgeometry : c.table.geometry.validate = .ok ())
    (hl : c.Reachable l) (hready : l.content.bus.Ready c.table.pollLimit) (slot : SlotIndex) :
    let find := (c.table.findEntry slot).locked.result l
    let read := (c.table.readEntry slot).locked.result l
    (∀ x, find = .ok x ↔ read = .ok x ∧ x.valid = true) ∧
      (∀ x, read = .ok x → x.valid = false → find = .error (.notFound slot)) ∧
      (∀ e, read = .error e → find = .error e) ∧
      ∀ e, read = .error e ↔ c.table.geometry.checkSlot slot = .error e := by
  intro find read
  have hvalid := Geometry.validate_eq_ok_iff.mp hgeometry
  have h : Table.Answers l.content.bus l := ⟨(hl.evolves hvalid).1, hready, rfl⟩
  have hfind : find = read >>= Table.ifValid slot :=
    h.result_findEntry_eq hvalid (hl.marked hvalid) slot
  refine ⟨fun x => ?_, fun x hread hinvalid => ?_, fun e hread => ?_, fun e => ?_⟩
  · rw [hfind, Checks.bind_eq_ok_iff]
    constructor
    · rintro ⟨y, hread, hy⟩
      by_cases hloaded : y.valid = true
      · obtain rfl := Except.ok.inj ((if_pos hloaded).symm.trans hy)
        exact ⟨hread, hloaded⟩
      · exact nomatch (if_neg hloaded).symm.trans hy
    · rintro ⟨hread, hloaded⟩
      exact ⟨x, hread, if_pos hloaded⟩
  · rw [hfind, hread]
    exact if_neg (Bool.eq_false_iff.mp hinvalid)
  · rw [hfind, hread]
    rfl
  · cases hslot : c.table.geometry.checkSlot slot with
    | error e' =>
        have hread : read = .error e' := h.result_readEntry_of_refused hslot
        rw [hread, Except.error.injEq, Except.error.injEq]
    | ok =>
        have hread : read = .ok _ := h.result_readEntry hvalid hslot
        rw [hread]
        exact iff_of_false nofun nofun

/-- The last slot of the table is found, an empty slot is not, and the slot before the
first one is refused. -/
theorem findEntry_iff_readEntry_edgeSample :
    let read := fun slot => (egressSample.table.readEntry slot).locked.result edgeSample
    let find := fun slot => (egressSample.table.findEntry slot).locked.result edgeSample
    let outside := Error.invalidArgument (.slotOutsideTable 0#16 1#16 63#16)
    egressSample.table.geometry.validate = .ok () ∧ egressSample.Reachable edgeSample ∧
      edgeSample.content.bus.Ready egressSample.table.pollLimit ∧
      (read 63#16 = .ok ⟨63#16, true, default⟩ ∧ find 63#16 = .ok ⟨63#16, true, default⟩) ∧
      (read 1#16 = .ok ⟨1#16, false, default⟩ ∧ find 1#16 = .error (.notFound 1#16)) ∧
      (read 0#16 = .error outside ∧ find 0#16 = .error outside) := by
  intro read find outside
  have hreachable : egressSample.Reachable edgeSample :=
    .call _ (.table (.loadEntry 63#16 default)) (.call _ (.table (.loadEntry 5#16 default)) .fresh)
  have hready : edgeSample.content.bus.Ready egressSample.table.pollLimit :=
    ⟨by decide +kernel, by decide +kernel, by decide +kernel, by decide +kernel⟩
  have hagree := findEntry_iff_readEntry rfl hreachable hready
  have hlast : read 63#16 = .ok ⟨63#16, true, default⟩ := by
    decide +kernel
  have hempty : read 1#16 = .ok ⟨1#16, false, default⟩ := by
    decide +kernel
  have houtside : read 0#16 = .error outside := by
    decide +kernel
  exact ⟨rfl, hreachable, hready, ⟨hlast, ((hagree 63#16).1 _).mpr ⟨hlast, rfl⟩⟩,
    ⟨hempty, (hagree 1#16).2.1 _ hempty rfl⟩, houtside, (hagree 0#16).2.2.1 _ houtside⟩

end Classifier

end Tcam
