import Tcam.Command
import Tcam.Proofs.Bits.Packing

/-!
# Operation words

The word that starts a command names its opcode, its page and, up to index 255,
its slot.  The word that the block keeps afterwards names the slot as well,
whether its busy bit reads as set or not.
-/

namespace Tcam

theorem Opcode.ofBits?_bits (o : Opcode) : Opcode.ofBits? o.bits = some o := by
  cases o <;> decide

theorem Page.ofBits?_bits (p : Page) : Page.ofBits? p.bits = some p := by
  cases p <;> decide

theorem Opcode.ofBits?_eq_some_iff {bits : Word} {o : Opcode} :
    Opcode.ofBits? bits = some o ↔ bits = o.bits := by
  refine ⟨fun h => ?_, fun h => h ▸ o.ofBits?_bits⟩
  have hfound := List.find?_some h
  exact (beq_iff_eq.mp hfound).symm

theorem Page.ofBits?_eq_some_iff {bits : Word} {p : Page} :
    Page.ofBits? bits = some p ↔ bits = p.bits := by
  refine ⟨fun h => ?_, fun h => h ▸ p.ofBits?_bits⟩
  have hfound := List.find?_some h
  exact (beq_iff_eq.mp hfound).symm

/-- Every page fits into the data registers. -/
theorem Page.registers_le (p : Page) : p.registers ≤ dataRegisters := by
  cases p <;> decide

theorem entryField_fits {i : SlotIndex} (h : i ≤ maxSlotIndex) : entryField.fits i = true := by
  rw [BitField.fits_iff]
  intro j hj
  have hmax : i.toNat ≤ 255 := h
  have hpow : 2 ^ 8 ≤ 2 ^ j := Nat.pow_le_pow_right (by decide) hj
  exact Nat.testBit_lt_two_pow (by omega)

namespace Command

theorem busy_word (c : Command) : busyField.getFlag c.word = true := by
  have hget : (busyField.get c.word : Word) = 1#16 := by
    rw [word, BitField.get_set_of_disjoint (by decide), BitField.get_set_of_disjoint (by decide),
      BitField.get_set_of_disjoint (by decide), BitField.get_set_self _ _ _ (by decide)]
    rfl
  rw [BitField.getFlag, hget]
  decide

theorem opcode_word (c : Command) : Opcode.ofBits? (opcodeField.get c.word) = some c.opcode := by
  have hfit : opcodeField.fits c.opcode.bits = true := by
    cases c.opcode <;> decide
  rw [word, BitField.get_set_of_disjoint (by decide), BitField.get_set_of_disjoint (by decide),
    BitField.get_set_of_fits _ _ _ (by decide) hfit, Opcode.ofBits?_bits]

theorem page_word (c : Command) : Page.ofBits? (pageField.get c.word) = some c.page := by
  have hfit : pageField.fits c.page.bits = true := by
    cases c.page <;> decide
  rw [word, BitField.get_set_of_disjoint (by decide),
    BitField.get_set_of_fits _ _ _ (by decide) hfit, Page.ofBits?_bits]

theorem index_word {c : Command} (h : c.index ≤ maxSlotIndex) :
    (entryField.get c.word : SlotIndex) = c.index :=
  BitField.get_set_of_fits _ _ _ (by decide) (entryField_fits h)

/-- The index in the word of a command that is done. -/
theorem index_idleWord {c : Command} (h : c.index ≤ maxSlotIndex) (busy : Bool) :
    (entryField.get (busyField.setFlag c.idleWord busy) : SlotIndex) = c.index := by
  rw [BitField.setFlag, BitField.get_set_of_disjoint (by decide)]
  exact BitField.get_set_of_fits _ _ _ (by decide) (entryField_fits h)

end Command

end Tcam
