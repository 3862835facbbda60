import Tcam.Masked
import Tcam.Proofs.Bits.Packing

/-!
# What a masked number accepts

A masked number accepts the numbers that agree with its value in every bit of
its mask (`accepts_iff`).  Acceptance can be checked field by field, as long as
the fields see every bit of the mask (`accepts_iff_forall_fields`).
-/

namespace Tcam.Masked

variable {α β : Type} {n m : Nat}

@[simp] theorem any_value (n : Nat) : (any : Masked (BitVec n)).value = 0#n := rfl

@[simp] theorem any_mask (n : Nat) : (any : Masked (BitVec n)).mask = 0#n := rfl

theorem eq_any_iff {w : Masked (BitVec n)} : w = any ↔ w.value = 0#n ∧ w.mask = 0#n := by
  constructor
  · rintro rfl
    exact ⟨any_value n, any_mask n⟩
  · rintro ⟨hvalue, hmask⟩
    show (⟨w.value, w.mask⟩ : Masked (BitVec n)) = ⟨0#n, 0#n⟩
    rw [hvalue, hmask]

theorem isWildcard_eq (w : Masked (BitVec n)) : w.isWildcard = (w.mask == 0#n) := rfl

/-- A part of the value with the same part of the mask. -/
def map (f : α → β) (w : Masked α) : Masked β :=
  ⟨f w.value, f w.mask⟩

theorem accepts_iff {w : Masked (BitVec n)} {x : BitVec n} :
    w.Accepts x ↔ ∀ i, w.mask.getLsbD i = true → x.getLsbD i = w.value.getLsbD i := by
  unfold Accepts
  constructor
  · intro hzero i hi
    have hbit : ((x ^^^ w.value) &&& w.mask).getLsbD i = false := by
      rw [hzero, BitVec.getLsbD_zero]
    rw [BitVec.getLsbD_and, BitVec.getLsbD_xor, hi, Bool.and_true] at hbit
    exact bne_eq_false_iff_eq.mp hbit
  · intro hbits
    apply BitVec.eq_of_getLsbD_eq
    intro i hi
    cases hmask : w.mask.getLsbD i with
    | false => simp [hmask]
    | true => simp [hmask, hbits i hmask]

/-- Only the value itself is accepted where every bit is compared. -/
theorem accepts_exact_iff {v x : BitVec n} : (exact v).Accepts x ↔ x = v := by
  rw [accepts_iff]
  constructor
  · intro hbits
    apply BitVec.eq_of_getLsbD_eq
    intro i hi
    exact hbits i (by simp [exact, FullMask.full, hi])
  · rintro rfl i _
    rfl

/-- The field of a masked number accepts the field of `x` exactly when the bits of
the mask inside the field agree. -/
theorem accepts_field_iff {w : Masked (BitVec n)} {x : BitVec n} {f : BitField}
    (hm : f.width ≤ m) :
    (⟨f.get w.value, f.get w.mask⟩ : Masked (BitVec m)).Accepts (f.get x) ↔
      ∀ i, f.Contains i → w.mask.getLsbD i = true → x.getLsbD i = w.value.getLsbD i := by
  simp only [accepts_iff, BitField.getLsbD_get]
  constructor
  · intro hfield i hi hmask
    have hbit := hfield (i - f.offset)
    have hback : f.offset + (i - f.offset) = i := Nat.add_sub_of_le hi.1
    have hlt : i - f.offset < f.width := Nat.sub_lt_left_of_lt_add hi.1 hi.2
    simpa [hback, hlt, Nat.lt_of_lt_of_le hlt hm, hmask] using hbit
  · intro hbits i hi
    -- Bit `i` of the field is bit `f.offset + i` of the whole number.
    by_cases hwidth : i < f.width
    · have hcontains : f.Contains (f.offset + i) := ⟨by omega, by omega⟩
      have hlt : i < m := Nat.lt_of_lt_of_le hwidth hm
      simp only [hwidth, hlt, decide_true, Bool.true_and] at hi ⊢
      exact hbits _ hcontains hi
    · simp [hwidth]

/-- Acceptance field by field. -/
theorem accepts_iff_forall_fields {w : Masked (BitVec n)} {x : BitVec n} {fields : List BitField}
    (hcover : ∀ i, w.mask.getLsbD i = true → ∃ f ∈ fields, f.Contains i) :
    w.Accepts x ↔ ∀ f ∈ fields,
      (⟨f.get w.value, f.get w.mask⟩ : Masked (BitVec f.width)).Accepts (f.get x) := by
  simp only [accepts_field_iff (Nat.le_refl _), accepts_iff]
  constructor
  · intro hbits f _ i _ hmask
    exact hbits i hmask
  · intro hfields i hmask
    obtain ⟨f, hf, hi⟩ := hcover i hmask
    exact hfields f hf i hi hmask

end Tcam.Masked
