import Tcam.Proofs.Classifier.Continuation
import Tcam.Proofs.Classifier.FailFast

/-!
# Removals that break off

Removing a rule flushes its first slot and then the slot in which it continued.
Wherever this is cut short, and at every point on the way there, the slots are as
before, or the first slot is flushed, or both are; no other slot changes
(`removeRule_unlinks`).  So a rule that is still in place is still complete.  A
reference to the slot itself or out of the table makes no difference to this.
-/

namespace Tcam

namespace Device

variable {g : Geometry} {d d' d₁ d₁' : Device g} {slot next : SlotIndex}

/-- The listed slots are flushed and all others are as before. -/
def FlushedAt (d d' : Device g) (flushed : List SlotIndex) : Prop :=
  ∀ i, d'.slot? i = if i ∈ flushed then some .empty else d.slot? i

/-- The slots at some point of the removal of the rule at `slot`. -/
inductive Unlinks (d : Device g) (slot : SlotIndex) (d' : Device g) : Prop
  | untouched (h : d.FlushedAt d' [])
  | first (h : d.FlushedAt d' [slot])
  | both (next : SlotIndex) (hnext : d.next? slot = some next) (h : d.FlushedAt d' [slot, next])

namespace FlushedAt

theorem of_slots (h : d'.slots = d.slots) : d.FlushedAt d' [] :=
  fun i => slot?_congr h i

theorem of_flushed (hslot : g.checkSlot slot = .ok ()) (h : d'.slots = (d.flushed slot).slots) :
    d.FlushedAt d' [slot] := by
  intro i
  obtain ⟨image, himage⟩ := d.slot?_eq_some_of_le (Geometry.checkSlot_eq_ok_iff.mp hslot).2
  rw [slot?_of_flushed h, himage, Option.map_some]
  simp only [List.mem_singleton]

theorem append {flushed flushed' : List SlotIndex} (h : d.FlushedAt d₁ flushed)
    (h' : d₁.FlushedAt d' flushed') : d.FlushedAt d' (flushed ++ flushed') := by
  intro i
  rw [h' i, h i]
  by_cases hlast : i ∈ flushed'
  · rw [if_pos hlast, if_pos (List.mem_append_right flushed hlast)]
  · simp only [hlast, if_false, List.mem_append, or_false]

theorem of_flushed_flushed (hslot : g.checkSlot slot = .ok ()) (hnext : g.checkSlot next = .ok ())
    (h : d'.slots = ((d.flushed slot).flushed next).slots) : d.FlushedAt d' [slot, next] := by
  have hfirst : d.FlushedAt (d.flushed slot) [slot] := of_flushed hslot rfl
  exact hfirst.append (of_flushed hnext h)

theorem congr {flushed : List SlotIndex} (h : d.FlushedAt d' flushed) (hd : d₁.slots = d.slots)
    (hd' : d₁'.slots = d'.slots) : d₁.FlushedAt d₁' flushed := by
  intro i
  rw [slot?_congr hd', slot?_congr hd]
  exact h i

theorem isValid_of_mem {flushed : List SlotIndex} (h : d.FlushedAt d' flushed)
    (hslot : slot ∈ flushed) : d'.isValid slot = false := by
  rw [isValid, h slot, if_pos hslot, Option.any_some, SlotImage.isValid_empty]

end FlushedAt

namespace Unlinks

theorem congr (h : d.Unlinks slot d') (hd : d₁.slots = d.slots) (hd' : d₁'.slots = d'.slots) :
    d₁.Unlinks slot d₁' := by
  cases h with
  | untouched h => exact .untouched (h.congr hd hd')
  | first h => exact .first (h.congr hd hd')
  | both next hnext h => exact .both next ((next?_congr hd slot).trans hnext) (h.congr hd hd')

/-- While the first slot is valid no slot has changed. -/
theorem untouched_of_isValid (h : d.Unlinks slot d') (hvalid : d'.isValid slot = true) :
    d.FlushedAt d' [] := by
  cases h with
  | untouched h => exact h
  | first h => exact nomatch hvalid.symm.trans (h.isValid_of_mem List.mem_cons_self)
  | both next hnext h => exact nomatch hvalid.symm.trans (h.isValid_of_mem List.mem_cons_self)

end Unlinks

end Device

namespace Classifier

variable {c : Classifier} {l : Lock (Table.State (Device c.table.geometry))} {slot : SlotIndex}

section Outcomes

variable {t : Table} {s s' : Table.State (Device t.geometry)}

/-- A complete removal has flushed the slot and the slot in which it continued. -/
theorem Removed.flushedAt (h : Removed slot s s') :
    s.bus.FlushedAt s'.bus (slot :: (s.bus.next? slot).toList) := by
  obtain ⟨hslot, -, ⟨hnext, h⟩ | ⟨next, hnext, hcheck, h⟩⟩ := h
  · rw [hnext]
    exact Device.FlushedAt.of_flushed hslot h
  · rw [hnext]
    exact Device.FlushedAt.of_flushed_flushed hslot hcheck h

theorem Removed.unlinks (h : Removed slot s s') : s.bus.Unlinks slot s'.bus := by
  have hflushed := h.flushedAt
  cases hnext : s.bus.next? slot with
  | none =>
      rw [hnext] at hflushed
      exact .first hflushed
  | some next =>
      rw [hnext] at hflushed
      exact .both next hnext hflushed

theorem RemovalFails.unlinks {e : Error} (h : RemovalFails slot s e s') :
    s.bus.Unlinks slot s'.bus := by
  rcases h with ⟨-, h⟩ | ⟨hslot, ⟨-, -, h⟩ | ⟨-, next, -, -, h⟩ | ⟨-, h | ⟨-, hflushed⟩⟩⟩
  · exact .untouched (.of_slots h)
  · exact .untouched (.of_slots h)
  · exact .first (.of_flushed hslot h)
  · exact .untouched (.of_slots h)
  · rcases hflushed with h | ⟨next, hnext, hcheck, h⟩
    · exact .first (.of_flushed hslot h)
    · exact .both next hnext (.of_flushed_flushed hslot hcheck h)

end Outcomes

theorem after_carryOut_removeRule (slot : SlotIndex) :
    (c.carryOut (.rule (.removeRule slot))).after l = (c.removeRule slot).after l :=
  (after_carryOut_rule _).trans (Transaction.after_map _ _ l)

/-- However a removal ends, it has flushed nothing, the first slot or both slots. -/
theorem unlinks_after (hvalid : c.table.geometry.Valid)
    (l : Lock (Table.State (Device c.table.geometry))) (slot : SlotIndex) :
    l.content.bus.Unlinks slot ((c.removeRule slot).after l).content.bus := by
  cases hl : l.poisoned with
  | true =>
      rw [← after_carryOut_removeRule, after_of_poisoned c _ hl]
      exact .untouched (.of_slots rfl)
  | false =>
      have hends := (removeRule_ends hvalid hl slot).mono (fun _ _ h => h.unlinks)
        (fun _ _ h => h.unlinks)
      exact hends.after.2

/-- The device at some point of an operation: before one of its accesses, or at its end.
The accesses are those made without a fault, which only cuts them short. -/
inductive Passes (c : Classifier) (op : Operation)
    (l : Lock (Table.State (Device c.table.geometry))) : Device c.table.geometry → Prop
  | before (access : Access (Device c.table.geometry))
      (h : access ∈ c.accessesOf op (adjust (Device.failing none) l)) : Passes c op l access.before
  | atEnd : Passes c op l ((c.carryOut op).after l).content.bus

/-- At every point of a removal, and however it ends, the slots are as before, or the
first slot is flushed, or that slot and the one in which it continued are.  While the
first slot is valid no slot has changed.  A removal that succeeds has flushed both. -/
theorem removeRule_unlinks (hgeometry : c.table.geometry.validate = .ok ())
    (l : Lock (Table.State (Device c.table.geometry))) (slot : SlotIndex) :
    (∀ d', c.Passes (.rule (.removeRule slot)) l d' →
      l.content.bus.Unlinks slot d' ∧
        (d'.isValid slot = true → l.content.bus.FlushedAt d' [])) ∧
    ((c.removeRule slot).result l = .ok () →
      l.content.bus.FlushedAt ((c.removeRule slot).after l).content.bus
        (slot :: (l.content.bus.next? slot).toList)) := by
  have hvalid := Geometry.validate_eq_ok_iff.mp hgeometry
  refine ⟨fun d' hpasses => ?_, fun hresult => ?_⟩
  · have hunlinks : l.content.bus.Unlinks slot d' := by
      cases hpasses with
      | before access h =>
          -- A fault at this access leaves the slots that the access found.
          obtain ⟨n, hslots⟩ := exists_slots_before c _ l h
          have hfailed := unlinks_after hvalid (adjust (fun d => d.failNthAccess n) l) slot
          rw [← after_carryOut_removeRule] at hfailed
          exact hfailed.congr rfl hslots.symm
      | atEnd =>
          rw [after_carryOut_removeRule]
          exact unlinks_after hvalid l slot
    exact ⟨hunlinks, hunlinks.untouched_of_isValid⟩
  · cases hl : l.poisoned with
    | true =>
        rw [removeRule_eq, result_of_eq_error (locked_of_poisoned _ hl)] at hresult
        exact nomatch hresult
    | false =>
        unfold Transaction.result at hresult
        unfold Transaction.after
        rcases (removeRule_ends hvalid hl slot).cases with
          ⟨_, l', hrun, -, -, hremoved⟩ | ⟨e, l', hrun, -⟩
        · rw [hrun]
          exact hremoved.flushedAt
        · rw [hrun] at hresult
          exact nomatch hresult

/-- The poll after the first flush fails: the first slot is flushed although the
removal was not reported to have done anything, and the second slot is still there. -/
theorem removeRule_unlinks_afterFirstFlush :
    let l := adjust (fun d => d.failNthAccess 79) sharedSample
    let d' := ((ingressSample.removeRule 11#16).after l).content.bus
    ingressSample.table.geometry.validate = .ok () ∧ l.content.bus.next? 11#16 = some 12#16 ∧
      (ingressSample.removeRule 11#16).result l =
        .error (.transport (.access ⟨0x1f#8⟩ operationRegister .injected)) ∧
      l.content.bus.FlushedAt d' [11#16] := by
  intro l d'
  have hnext : l.content.bus.next? 11#16 = some 12#16 := by
    decide +kernel
  refine ⟨rfl, hnext, by decide +kernel, ?_⟩
  have hbefore : l.content.bus.isValid 11#16 = true := by
    decide +kernel
  have hafter : d'.isValid 11#16 = false ∧ d'.isValid 12#16 = true := by
    decide +kernel
  have hpasses : ingressSample.Passes (.rule (.removeRule 11#16)) l d' := by
    have hend : ingressSample.Passes (.rule (.removeRule 11#16)) l _ := .atEnd
    rw [after_carryOut_removeRule] at hend
    exact hend
  cases ((removeRule_unlinks rfl l 11#16).1 d' hpasses).1 with
  | untouched h =>
      have hsame : d'.isValid 11#16 = l.content.bus.isValid 11#16 :=
        congrArg (fun image => image.any SlotImage.isValid) (h 11#16)
      exact nomatch hafter.1.symm.trans (hsame.trans hbefore)
  | first h => exact h
  | both next hboth h =>
      obtain rfl : 12#16 = next := Option.some.inj (hnext.symm.trans hboth)
      have hflushed : d'.isValid 12#16 = false :=
        h.isValid_of_mem (List.mem_cons_of_mem _ List.mem_cons_self)
      exact nomatch hafter.2.symm.trans hflushed

end Classifier

end Tcam
