import Tcam.Slot.Registers

/-!
# Runs of registers, one register at a time

The bits of a register are bits of its run.  Reading, writing and copying are given
here with every index checked as well.  A copy with its indices in bounds replaces the
first registers and keeps the others (`exists_copy?`), so copying a whole page is a
change of width.
-/

namespace Tcam.Registers

variable {n m : Nat}

theorem getLsbD_get (r : Registers n) (i j : Nat) (hj : j < 16) :
    (r.get i).getLsbD j = r.getLsbD (16 * i + j) := by
  rw [get, BitField.getLsbD_get]
  simp [field, hj]

theorem getLsbD_set (r : Registers n) (i : Nat) (w : Word) (j : Nat) :
    (r.set i w).getLsbD j =
      if j < 16 * n ∧ 16 * i ≤ j ∧ j < 16 * i + 16 then w.getLsbD (j - 16 * i)
      else r.getLsbD j := by
  rw [set, BitField.getLsbD_set]
  rfl

/-! ## Checked indices -/

/-- Register `i`, if the run is long enough. -/
def get? (r : Registers n) (i : Nat) : Option Word :=
  if i < n then some (r.get i) else none

/-- The run with register `i` replaced, if the run is long enough. -/
def set? (r : Registers n) (i : Nat) (w : Word) : Option (Registers n) :=
  if i < n then some (r.set i w) else none

/-- Copies one register after the other, if both runs are long enough. -/
def copy? (count : Nat) (source : Registers n) (target : Registers m) : Option (Registers m) :=
  (List.range count).foldlM (fun r i => (source.get? i).bind (r.set? i)) target

theorem exists_copy? {count : Nat} (hsource : count ≤ n) (htarget : count ≤ m)
    (source : Registers n) (target : Registers m) :
    ∃ r, copy? count source target = some r ∧
      ∀ j, r.getLsbD j = if j < 16 * count then source.getLsbD j else target.getLsbD j := by
  -- The induction is on the number of registers that are copied.
  induction count with
  | zero => exact ⟨target, rfl, fun j => by rw [if_neg (Nat.not_lt_zero j)]⟩
  | succ count ih =>
      obtain ⟨r, hr, hbits⟩ := ih (by omega) (by omega)
      refine ⟨r.set count (source.get count), ?_, fun j => ?_⟩
      · have hlast : (source.get? count).bind (r.set? count) =
            some (r.set count (source.get count)) := by
          rw [get?, if_pos (by omega), Option.bind_some, set?, if_pos (by omega)]
        rw [copy?] at hr
        rw [copy?, List.range_succ, List.foldlM_append, hr]
        change ((source.get? count).bind (r.set? count)).bind some = _
        rw [hlast, Option.bind_some]
      · rw [getLsbD_set, hbits]
        by_cases hin : 16 * count ≤ j ∧ j < 16 * count + 16
        · rw [if_pos ⟨by omega, hin⟩, if_pos (by omega), getLsbD_get _ _ _ (by omega),
            Nat.add_sub_cancel' hin.1]
        · rw [if_neg fun h => hin h.2]
          by_cases hbefore : j < 16 * count
          · rw [if_pos hbefore, if_pos (by omega)]
          · rw [if_neg hbefore, if_neg (by omega)]

/-- A copy that fills its target. -/
theorem copy?_all {count : Nat} (h : count ≤ n) (source : Registers n)
    (target : Registers count) : copy? count source target = some (source.setWidth _) := by
  obtain ⟨r, hr, hbits⟩ := exists_copy? h (Nat.le_refl count) source target
  rw [hr]
  congr 1
  apply BitVec.eq_of_getLsbD_eq
  intro j hj
  rw [hbits, if_pos hj, BitVec.getLsbD_setWidth, decide_eq_true hj, Bool.true_and]

/-- A copy of the whole source over zeros. -/
theorem copy?_zeros {count : Nat} (h : count ≤ m) (source : Registers count) :
    copy? count source (0#_ : Registers m) = some (source.setWidth _) := by
  obtain ⟨r, hr, hbits⟩ := exists_copy? (Nat.le_refl count) h source 0#_
  rw [hr]
  congr 1
  apply BitVec.eq_of_getLsbD_eq
  intro j hj
  rw [hbits, BitVec.getLsbD_setWidth, decide_eq_true hj, Bool.true_and, BitVec.getLsbD_zero]
  by_cases hin : j < 16 * count
  · rw [if_pos hin]
  · rw [if_neg hin, BitVec.getLsbD_of_ge source j (by omega)]

end Tcam.Registers
