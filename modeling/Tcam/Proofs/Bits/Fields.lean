import Mathlib.Data.List.Pairwise
import Tcam.Bits.Field

/-!
# Several fields of one word

Fields that share no bit do not interfere.  Written one after the other they leave the
same word in every order (`setAll_eq_of_perm`), each of them then holds what was written
to it, as far as it has room (`get_setAll_of_mem`), and all other bits are as before
(`getLsbD_setAll_of_outside`).  A number that its own fields fill can as well be written to
its place field by field (`set_setAll`).
-/

namespace Tcam.BitField

variable {n m k : Nat} {f g : BitField} {fields : List (BitField × BitVec m)}

/-- Bit `i` of a word belongs to the field. -/
def Contains (f : BitField) (i : Nat) : Prop :=
  f.offset ≤ i ∧ i < f.offset + f.width

instance (f : BitField) (i : Nat) : Decidable (f.Contains i) :=
  inferInstanceAs (Decidable (_ ∧ _))

@[simp] theorem get_zero (f : BitField) : (f.get 0#n : BitVec m) = 0#m := by
  simp [get]

theorem disjoint_comm {f g : BitField} (h : f.Disjoint g) : g.Disjoint f :=
  Or.symm h

theorem Disjoint.not_contains {i : Nat} (h : f.Disjoint g) (hi : f.Contains i) :
    ¬g.Contains i := by
  obtain ⟨hlow, hhigh⟩ := hi
  rintro ⟨hlow', hhigh'⟩
  rcases h with h | h
  · omega
  · omega

/-- Bits of a word are bits of the field they lie in. -/
theorem getLsbD_eq_of_contains {f : BitField} {i : Nat} (hi : f.Contains i) (hm : f.width ≤ m)
    (w : BitVec n) :
    w.getLsbD i = (f.get w : BitVec m).getLsbD (i - f.offset) := by
  obtain ⟨hlow, hhigh⟩ := hi
  have hinside : i - f.offset < f.width ∧ i - f.offset < m := by omega
  have hback : f.offset + (i - f.offset) = i := by omega
  rw [getLsbD_get, hback]
  simp only [hinside, decide_true, Bool.true_and]

/-- The field `f` of the number that stands in `g`, as a field of the whole word. -/
def within (f g : BitField) : BitField :=
  ⟨g.offset + f.offset, f.width⟩

/-- A field of the number that a field holds is a field of the word. -/
theorem get_get (hf : f.offset + f.width ≤ g.width) (hm : g.width ≤ m) (w : BitVec n) :
    (f.get (g.get w : BitVec m) : BitVec k) = (f.within g).get w := by
  apply BitVec.eq_of_getLsbD_eq
  intro i hi
  simp only [getLsbD_get, within]
  by_cases hw : i < f.width
  · have hinside : f.offset + i < m ∧ f.offset + i < g.width := by omega
    simp only [hinside, decide_true, Bool.true_and, Nat.add_assoc]
  · simp [hw]

theorem getLsbD_set_of_contains {i : Nat} (hi : f.Contains i) (hin : i < n) (w : BitVec n)
    (v : BitVec m) : (f.set w v).getLsbD i = v.getLsbD (i - f.offset) := by
  rw [getLsbD_set, if_pos ⟨hin, hi.1, hi.2⟩]

theorem getLsbD_set_of_not_contains {f : BitField} {i : Nat} (h : ¬f.Contains i)
    (w : BitVec n) (v : BitVec m) : (f.set w v).getLsbD i = w.getLsbD i := by
  rw [getLsbD_set, if_neg]
  rintro ⟨-, hlo, hhi⟩
  exact h ⟨hlo, hhi⟩

/-- Bits beyond the width of the word play no part in a write. -/
theorem set_setWidth (f : BitField) (w : BitVec n) (v : BitVec m) :
    f.set w (v.setWidth n) = f.set w v := by
  rw [set, set, BitVec.setWidth_eq]

theorem fits_iff (f : BitField) (v : BitVec m) :
    f.fits v = true ↔ ∀ i, f.width ≤ i → v.getLsbD i = false := by
  rw [fits, beq_iff_eq]
  constructor
  · intro hzero i hi
    have hbit := congrArg (fun u => u.getLsbD (i - f.width)) hzero
    simpa [Nat.add_sub_cancel' hi] using hbit
  · intro hbits
    apply BitVec.eq_of_getLsbD_eq
    intro i _
    simp [hbits (f.width + i) (by omega)]

/-- A number that fits its place is all that is left of it. -/
theorem setWidth_of_fits {f : BitField} {v : BitVec m} (h : f.fits v = true) :
    (v.setWidth f.width).setWidth m = v := by
  apply BitVec.eq_of_getLsbD_eq
  intro i hi
  by_cases hw : i < f.width
  · simp [hi, hw]
  · simp [hw, (fits_iff f v).mp h i (by omega)]

/-- A number is left as it is exactly if it fits. -/
theorem setWidth_eq_iff_fits {v : BitVec m} :
    (v.setWidth f.width).setWidth m = v ↔ f.fits v = true := by
  refine ⟨fun h => (fits_iff f v).mpr fun i hi => ?_, setWidth_of_fits⟩
  rw [← h]
  simp [Nat.not_lt.mpr hi]

/-- A number that fits its place is read back as it was written. -/
theorem get_set_of_fits (f : BitField) (w : BitVec n) (v : BitVec m)
    (hin : f.offset + f.width ≤ n) (hfit : f.fits v = true) :
    (f.get (f.set w v) : BitVec m) = v := by
  rw [get_set_self f w v hin, setWidth_of_fits hfit]

/-- A flag is read back. -/
theorem getFlag_setFlag (hwidth : f.width = 1) (hin : f.offset + f.width ≤ n) (w : BitVec n)
    (flag : Bool) : f.getFlag (f.setFlag w flag) = flag := by
  have hread : (f.get (f.setFlag w flag) : BitVec n) = (BitVec.ofBool flag).setWidth n := by
    rw [setFlag, get_set_self f w _ hin, hwidth, BitVec.setWidth_eq]
  rw [getFlag, hread]
  cases flag with
  | false => simp
  | true =>
      have hbit : ((BitVec.ofBool true).setWidth n).getLsbD 0 = true := by
        simp
        omega
      refine bne_iff_ne.mpr fun hzero => ?_
      rw [hzero, BitVec.getLsbD_zero] at hbit
      exact Bool.false_ne_true hbit

/-- Writes to disjoint fields can be exchanged. -/
theorem set_comm (h : f.Disjoint g) (w : BitVec n) (u : BitVec m) (v : BitVec k) :
    f.set (g.set w v) u = g.set (f.set w u) v := by
  apply BitVec.eq_of_getLsbD_eq
  intro i hi
  by_cases hf : f.Contains i
  · have hg := h.not_contains hf
    rw [getLsbD_set_of_contains hf hi, getLsbD_set_of_not_contains hg,
      getLsbD_set_of_contains hf hi]
  · rw [getLsbD_set_of_not_contains hf]
    by_cases hg : g.Contains i
    · rw [getLsbD_set_of_contains hg hi, getLsbD_set_of_contains hg hi]
    · rw [getLsbD_set_of_not_contains hg, getLsbD_set_of_not_contains hg,
        getLsbD_set_of_not_contains hf]

/-- No two fields share a bit, and each lies inside an `n`-bit word. -/
structure Separate {α : Type} (fields : List (BitField × α)) (n : Nat) : Prop where
  disjoint : fields.Pairwise fun p q => p.1.Disjoint q.1
  inside : ∀ p ∈ fields, p.1.offset + p.1.width ≤ n

instance {α : Type} (fields : List (BitField × α)) (n : Nat) : Decidable (Separate fields n) :=
  decidable_of_iff ((fields.Pairwise fun p q => p.1.Disjoint q.1) ∧
    ∀ p ∈ fields, p.1.offset + p.1.width ≤ n)
    ⟨fun h => ⟨h.1, h.2⟩, fun h => ⟨h.disjoint, h.inside⟩⟩

theorem Separate.tail {α : Type} {p : BitField × α} {fields : List (BitField × α)}
    (h : Separate (p :: fields) n) : Separate fields n :=
  ⟨(List.pairwise_cons.mp h.disjoint).2, fun q hq => h.inside q (List.mem_cons_of_mem p hq)⟩

/-- What stands in the fields plays no part. -/
theorem Separate.map {α β : Type} {fields : List (BitField × α)} (h : Separate fields n)
    (r : α → β) : Separate (fields.map fun p => (p.1, r p.2)) n := by
  constructor
  · exact List.pairwise_map.mpr h.disjoint
  · intro q hq
    obtain ⟨p, hp, rfl⟩ := List.mem_map.mp hq
    exact h.inside p hp

/-- The fields can be written one after the other in either order. -/
def Exchange (n : Nat) (p q : BitField × BitVec m) : Prop :=
  ∀ w : BitVec n, q.1.set (p.1.set w p.2) q.2 = p.1.set (q.1.set w q.2) p.2

instance : Std.Symm (Exchange n : BitField × BitVec m → BitField × BitVec m → Prop) :=
  ⟨fun _ _ h w => (h w).symm⟩

/-- The order of the writes plays no part. -/
theorem setAll_eq_of_perm {fields' : List (BitField × BitVec m)} (hperm : fields'.Perm fields)
    (hsep : Separate fields n) (w : BitVec n) : setAll fields' w = setAll fields w := by
  have hpairs : fields.Pairwise (Exchange n) :=
    hsep.disjoint.imp fun h w => set_comm (disjoint_comm h) w _ _
  have hall : ∀ p ∈ fields, ∀ q ∈ fields, Exchange n p q :=
    fun p hp q hq => hpairs.forall_of_forall (fun _ _ _ => rfl) hp hq
  exact (hperm.symm.foldl_eq' (fun p hp q hq w => hall p hp q hq w) w).symm

/-- A bit of no field is left as it was. -/
theorem getLsbD_setAll_of_outside {i : Nat} (h : ∀ p ∈ fields, ¬p.1.Contains i) (w : BitVec n) :
    (setAll fields w).getLsbD i = w.getLsbD i := by
  induction fields generalizing w with
  | nil => rfl
  | cons p fields ih =>
      rw [setAll_cons, ih (fun q hq => h q (List.mem_cons_of_mem p hq)),
        getLsbD_set_of_not_contains (h p List.mem_cons_self)]

/-- A field that shares no bit with those written is left as it was. -/
theorem get_setAll_of_disjoint (h : ∀ p ∈ fields, f.Disjoint p.1) (w : BitVec n) :
    (f.get (setAll fields w) : BitVec k) = f.get w := by
  induction fields generalizing w with
  | nil => rfl
  | cons p fields ih =>
      rw [setAll_cons, ih (fun q hq => h q (List.mem_cons_of_mem p hq)),
        get_set_of_disjoint (h p List.mem_cons_self)]

/-- Each field holds what was written to it, cut to its width. -/
theorem get_setAll_of_mem (hsep : Separate fields n) {p : BitField × BitVec m} (hp : p ∈ fields)
    (w : BitVec n) :
    (p.1.get (setAll fields w) : BitVec k) = (p.2.setWidth p.1.width).setWidth k := by
  induction fields generalizing w with
  | nil => exact absurd hp List.not_mem_nil
  | cons q fields ih =>
      -- The field that is written first is left alone by all later writes.
      rw [setAll_cons]
      rcases List.mem_cons.mp hp with rfl | hmem
      · rw [get_setAll_of_disjoint (List.pairwise_cons.mp hsep.disjoint).1,
          get_set_self p.1 w p.2 (hsep.inside p List.mem_cons_self)]
      · exact ih hsep.tail hmem (q.1.set w q.2)

theorem getLsbD_setAll_of_mem (hsep : Separate fields n) {p : BitField × BitVec m}
    (hp : p ∈ fields) {i : Nat} (hi : p.1.Contains i) (w : BitVec n) :
    (setAll fields w).getLsbD i = p.2.getLsbD (i - p.1.offset) := by
  have hwidth : i - p.1.offset < p.1.width := Nat.sub_lt_left_of_lt_add hi.1 hi.2
  rw [getLsbD_eq_of_contains hi (Nat.le_refl _), get_setAll_of_mem hsep hp, BitVec.setWidth_eq,
    BitVec.getLsbD_setWidth, decide_eq_true hwidth, Bool.true_and]

/-- Fields of a number are separate in every word that holds the number. -/
theorem Separate.within (hsep : Separate fields g.width) (hin : g.offset + g.width ≤ n) :
    Separate (fields.map fun p => (p.1.within g, p.2)) n := by
  constructor
  · refine List.pairwise_map.mpr (hsep.disjoint.imp fun h => ?_)
    simp only [Disjoint, BitField.within] at h ⊢
    omega
  · intro q hq
    obtain ⟨p, hp, rfl⟩ := List.mem_map.mp hq
    have hinside := hsep.inside p hp
    simp only [BitField.within]
    omega

/-- A number that its fields fill is written to its place field by field. -/
theorem set_setAll (hsep : Separate fields k) (hfull : ∀ i < k, ∃ p ∈ fields, p.1.Contains i)
    (hk : k = g.width) (hin : g.offset + g.width ≤ n) (w : BitVec n) (v : BitVec k) :
    g.set w (setAll fields v) = setAll (fields.map fun p => (p.1.within g, p.2)) w := by
  subst hk
  apply BitVec.eq_of_getLsbD_eq
  intro i hi
  by_cases hg : g.Contains i
  · have hlow : i - g.offset < g.width := Nat.sub_lt_left_of_lt_add hg.1 hg.2
    obtain ⟨p, hp, hcontains⟩ := hfull (i - g.offset) hlow
    have hwithin : (p.1.within g).Contains i := by
      simp only [Contains, within] at hg hcontains ⊢
      omega
    have hmem := List.mem_map_of_mem (f := fun p => (p.1.within g, p.2)) hp
    rw [getLsbD_set_of_contains hg hi, getLsbD_setAll_of_mem hsep hp hcontains,
      getLsbD_setAll_of_mem (hsep.within hin) hmem hwithin, Nat.sub_sub]
    rfl
  · have houtside : ∀ q ∈ fields.map fun p => (p.1.within g, p.2), ¬q.1.Contains i := by
      refine List.forall_mem_map.mpr fun p hp hcontains => hg ?_
      have hinside := hsep.inside p hp
      simp only [Contains, within] at hcontains ⊢
      omega
    rw [getLsbD_set_of_not_contains hg, getLsbD_setAll_of_outside houtside]

end Tcam.BitField
