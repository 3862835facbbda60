import Mathlib.Data.Finset.Filter
import Mathlib.Data.Finset.Range
import Tcam.PortVector
import Tcam.Proofs.Masked

/-!
# Port vectors as sets

A port vector is the set of the ports whose bit is set.  A masked port vector stands for
a set as well, the ports that it admits: those whose one-bit vector it accepts.  By
convention no bit of the value lies in the mask, and then a port is admitted exactly if
its mask bit is zero (`admits_iff`).
-/

namespace Tcam

namespace PortVector

variable {v w : PortVector}

theorem contains_of_le {i : Nat} (hi : 16 ≤ i) : v.contains i = false :=
  BitVec.getLsbD_of_ge _ _ hi

theorem contains_single (port i : Nat) :
    (single port).contains i = decide (i < 16 ∧ i = port) := by
  have hone : (1#16).getLsbD (i - port) = decide (i - port = 0) := by
    simp [BitVec.getLsbD_one]
  rw [contains, single, BitVec.getLsbD_shiftLeft, hone, Bool.eq_iff_iff]
  simp only [Bool.and_eq_true, Bool.not_eq_true', decide_eq_true_eq, decide_eq_false_iff_not]
  omega

theorem contains_insert (v : PortVector) (port i : Nat) :
    (v.insert port).contains i = (v.contains i || decide (i < 16 ∧ i = port)) := by
  rw [← contains_single]
  exact BitVec.getLsbD_or

theorem contains_erase (v : PortVector) (port i : Nat) :
    (v.erase port).contains i = (v.contains i && decide (i ≠ port)) := by
  have hsingle := contains_single port i
  rw [contains, single] at hsingle
  rw [contains, erase, BitVec.getLsbD_and, BitVec.getLsbD_not, hsingle, ← contains]
  by_cases hi : i < 16
  · simp [hi]
  · rw [contains_of_le (Nat.le_of_not_lt hi), Bool.false_and, Bool.false_and]

theorem eq_of_contains (h : ∀ i, v.contains i = w.contains i) : v = w := by
  obtain ⟨v⟩ := v
  obtain ⟨w⟩ := w
  exact congrArg mk (BitVec.eq_of_getLsbD_eq fun i _ => h i)

theorem erase_erase (v : PortVector) (port : Nat) :
    (v.erase port).erase port = v.erase port := by
  simp only [erase, BitVec.and_assoc, BitVec.and_self]

theorem erase_comm (v : PortVector) (port port' : Nat) :
    (v.erase port).erase port' = (v.erase port').erase port := by
  apply eq_of_contains
  intro i
  simp only [contains_erase, Bool.and_right_comm]

theorem insert_insert (v : PortVector) (port : Nat) :
    (v.insert port).insert port = v.insert port := by
  simp only [insert, BitVec.or_assoc, BitVec.or_self]

end PortVector

namespace Masked

variable {ports : Masked PortVector} {port : Nat}

/-- Frames from the port are admitted. -/
def Admits (ports : Masked PortVector) (port : Nat) : Prop :=
  (ports.map PortVector.bits).Accepts (PortVector.single port).bits

instance (ports : Masked PortVector) : DecidablePred ports.Admits :=
  fun _ => inferInstanceAs (Decidable ((ports.map PortVector.bits).Accepts _))

/-- The ports whose frames are admitted. -/
def admitted (ports : Masked PortVector) : Finset Nat :=
  (Finset.range PortVector.width).filter ports.Admits

/-- No bit of the value lies in the mask. -/
def Conventional (ports : Masked PortVector) : Prop :=
  ports.value.bits &&& ports.mask.bits = 0#16

theorem conventional_iff :
    ports.Conventional ↔ ∀ i, ports.mask.contains i = true → ports.value.contains i = false := by
  unfold Conventional PortVector.contains
  constructor
  · intro hzero i hmask
    have hbit : (ports.value.bits &&& ports.mask.bits).getLsbD i = false := by
      rw [hzero, BitVec.getLsbD_zero]
    rwa [BitVec.getLsbD_and, hmask, Bool.and_true] at hbit
  · intro hbits
    apply BitVec.eq_of_getLsbD_eq
    intro i _
    rw [BitVec.getLsbD_and, BitVec.getLsbD_zero]
    cases hmask : ports.mask.bits.getLsbD i with
    | false => exact Bool.and_false _
    | true => rw [hbits i hmask, Bool.false_and]

/-- With a value outside of the mask, the mask bit alone decides. -/
theorem admits_iff (h : ports.Conventional) (hport : port < 16) :
    ports.Admits port ↔ ports.mask.contains port = false := by
  rw [conventional_iff] at h
  unfold Admits
  rw [accepts_iff, ← Bool.not_eq_true]
  constructor
  · intro hbits hmask
    have hvalue : (PortVector.single port).contains port = ports.value.contains port :=
      hbits port hmask
    rw [PortVector.contains_single, h port hmask] at hvalue
    exact absurd hvalue (by simp [hport])
  · intro hmask i hi
    have hne : i ≠ port := fun heq => hmask (heq ▸ hi)
    have hsingle := PortVector.contains_single port i
    rw [decide_eq_false fun hi => hne hi.2] at hsingle
    exact hsingle.trans (h i hi).symm

theorem mem_admitted (h : ports.Conventional) :
    port ∈ ports.admitted ↔ port < PortVector.width ∧ ports.mask.contains port = false := by
  unfold admitted
  rw [Finset.mem_filter, Finset.mem_range, and_congr_right_iff]
  intro hport
  exact admits_iff h (Nat.lt_trans hport (by decide))

end Masked

end Tcam
