/-!
# Bit fields

A bit field is a run of bits inside a word.  Words have any width: registers,
frame windows and whole register pages are all addressed this way.  Writing a
field keeps every other bit of the word and drops the bits of the value that do
not fit; reading it gives the run as a number.  The `getLsbD` equations say
exactly that, bit by bit, and the two laws on `get` and `set` follow from them.
They do not need the field to lie inside the word, except to read back what was
written.
-/

namespace Tcam

/-- An eight-bit number. -/
abbrev Octet := BitVec 8

/-- The content of one register. -/
abbrev Word := BitVec 16

/-- The run of `width` bits whose lowest is bit `offset` of its word. -/
structure BitField where
  offset : Nat
  width : Nat
  deriving DecidableEq, Repr

namespace BitField

variable {n m : Nat}

/-- The bits of an `n`-bit word that belong to the field. -/
def mask (f : BitField) (n : Nat) : BitVec n :=
  (BitVec.allOnes f.width).setWidth n <<< f.offset

/-- The largest number the field holds, as an `m`-bit number. -/
def maxValue (f : BitField) : BitVec m :=
  (BitVec.allOnes f.width).setWidth m

/-- The value has no bit beyond the width of the field. -/
def fits (f : BitField) (v : BitVec m) : Bool :=
  v >>> f.width == 0#m

/-- The field's content as an `m`-bit number. -/
def get (f : BitField) (w : BitVec n) : BitVec m :=
  (w.extractLsb' f.offset f.width).setWidth m

/-- The word with the field replaced by the low bits of `v`. -/
def set (f : BitField) (w : BitVec n) (v : BitVec m) : BitVec n :=
  (w &&& ~~~f.mask n) ||| ((v.setWidth n <<< f.offset) &&& f.mask n)

/-- The word with several fields replaced, one after the other. -/
def setAll (fields : List (BitField × BitVec m)) (w : BitVec n) : BitVec n :=
  fields.foldl (fun w p => p.1.set w p.2) w

/-- Some bit of the field is set. -/
def getFlag (f : BitField) (w : BitVec n) : Bool :=
  (f.get w : BitVec n) != 0#n

/-- The field set to the number one or zero. -/
def setFlag (f : BitField) (w : BitVec n) (flag : Bool) : BitVec n :=
  f.set w (BitVec.ofBool flag)

/-- The two fields share no bit. -/
def Disjoint (f g : BitField) : Prop :=
  f.offset + f.width ≤ g.offset ∨ g.offset + g.width ≤ f.offset

instance (f g : BitField) : Decidable (f.Disjoint g) :=
  inferInstanceAs (Decidable (_ ∨ _))

@[simp] theorem setAll_nil (w : BitVec n) : setAll ([] : List (BitField × BitVec m)) w = w := rfl

@[simp] theorem setAll_cons (p : BitField × BitVec m) (fields : List (BitField × BitVec m))
    (w : BitVec n) : setAll (p :: fields) w = setAll fields (p.1.set w p.2) := rfl

theorem getLsbD_mask (f : BitField) (i : Nat) :
    (f.mask n).getLsbD i =
      (decide (i < n) && (decide (f.offset ≤ i) && decide (i < f.offset + f.width))) := by
  by_cases hn : i < n <;> by_cases ho : f.offset ≤ i <;>
    by_cases hw : i < f.offset + f.width <;>
    simp [mask, hn, ho, hw] <;> omega

theorem getLsbD_get (f : BitField) (w : BitVec n) (i : Nat) :
    (f.get w : BitVec m).getLsbD i =
      (decide (i < m) && (decide (i < f.width) && w.getLsbD (f.offset + i))) := by
  simp [get]

theorem getLsbD_set (f : BitField) (w : BitVec n) (v : BitVec m) (i : Nat) :
    (f.set w v).getLsbD i =
      if i < n ∧ f.offset ≤ i ∧ i < f.offset + f.width then v.getLsbD (i - f.offset)
      else w.getLsbD i := by
  have hbits : (f.set w v).getLsbD i =
      (w.getLsbD i && (decide (i < n) && !(f.mask n).getLsbD i) ||
        (decide (i < n) && !decide (i < f.offset) &&
          (decide (i - f.offset < n) && v.getLsbD (i - f.offset)) && (f.mask n).getLsbD i)) := by
    simp only [set, BitVec.getLsbD_or, BitVec.getLsbD_and, BitVec.getLsbD_not,
      BitVec.getLsbD_shiftLeft, BitVec.getLsbD_setWidth]
  rw [hbits, getLsbD_mask]
  by_cases hn : i < n
  · have hlt : i - f.offset < n := by omega
    by_cases ho : f.offset ≤ i
    · by_cases hw : i < f.offset + f.width <;> simp [hn, ho, hw, hlt, Nat.not_lt.mpr ho]
    · simp [hn, ho]
  · simp [hn, BitVec.getLsbD_of_ge w i (Nat.le_of_not_lt hn)]

/-- Reading a field just written gives the value cut to the width. -/
theorem get_set_self {k : Nat} (f : BitField) (w : BitVec n) (v : BitVec m)
    (h : f.offset + f.width ≤ n) :
    (f.get (f.set w v) : BitVec k) = (v.setWidth f.width).setWidth k := by
  apply BitVec.eq_of_getLsbD_eq
  intro i hi
  rw [getLsbD_get, getLsbD_set]
  by_cases hw : i < f.width
  · have hlt : f.offset + i < n := by omega
    simp [hi, hw, hlt]
  · simp [hi, hw]

/-- Writing a field leaves the fields disjoint from it as they are. -/
theorem get_set_of_disjoint {k : Nat} {f g : BitField} (h : f.Disjoint g) (w : BitVec n)
    (v : BitVec m) : (f.get (g.set w v) : BitVec k) = f.get w := by
  apply BitVec.eq_of_getLsbD_eq
  intro i hi
  rw [getLsbD_get, getLsbD_get, getLsbD_set]
  by_cases hw : i < f.width
  · have hout : ¬(f.offset + i < n ∧ g.offset ≤ f.offset + i ∧
        f.offset + i < g.offset + g.width) := by
      intro ⟨_, hlo, hhi⟩
      rcases h with h | h
      · omega
      · omega
    simp [hout]
  · simp [hw]

end BitField

end Tcam
