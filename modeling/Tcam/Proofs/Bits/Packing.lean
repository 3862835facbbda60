import Tcam.Proofs.Bits.Fields
import Tcam.Proofs.Checks
import Tcam.Widths

/-!
# Packing and unpacking records

A layout is *separate* in an `n`-bit word if its places share no bit and lie
inside the word, and it *covers* a record type if copying every listed number
rebuilds the record.  Under both conditions unpacking undoes packing for every
record whose numbers fit their places (`unpack_pack`).  Bits and fields apart
from the places keep what the word held before, so several layouts can be packed
into one word, each without regard to the others.
-/

namespace Tcam

namespace Layout

variable {α : Type} {n : Nat}

/-- No two places share a bit, and each lies inside an `n`-bit word. -/
structure Separate (l : Layout α) (n : Nat) : Prop where
  disjoint : l.Pairwise fun c d => c.place.Disjoint d.place
  inside : ∀ c ∈ l, c.place.offset + c.place.width ≤ n

instance (l : Layout α) (n : Nat) : Decidable (l.Separate n) :=
  decidable_of_iff ((l.Pairwise fun c d => c.place.Disjoint d.place) ∧
    ∀ c ∈ l, c.place.offset + c.place.width ≤ n)
    ⟨fun h => ⟨h.1, h.2⟩, fun h => ⟨h.disjoint, h.inside⟩⟩

/-- No place shares a bit with the field. -/
def Avoids (l : Layout α) (f : BitField) : Prop :=
  ∀ c ∈ l, f.Disjoint c.place

instance (l : Layout α) (f : BitField) : Decidable (l.Avoids f) :=
  inferInstanceAs (Decidable (∀ c ∈ l, _))

/-- The places of the two layouts share no bit. -/
def Apart {β : Type} (l : Layout α) (l' : Layout β) : Prop :=
  ∀ c ∈ l, l'.Avoids c.place

instance {β : Type} (l : Layout α) (l' : Layout β) : Decidable (l.Apart l') :=
  inferInstanceAs (Decidable (∀ c ∈ l, _))

/-- Every value and every mask of the header fits its place. -/
structure Holds (l : Layout α) (h : Masked α) : Prop where
  value : ∀ c ∈ l, c.fits h.value = true
  mask : ∀ c ∈ l, c.fits h.mask = true

instance (l : Layout α) (h : Masked α) : Decidable (l.Holds h) :=
  decidable_of_iff ((∀ c ∈ l, c.fits h.value = true) ∧ ∀ c ∈ l, c.fits h.mask = true)
    ⟨fun h => ⟨h.1, h.2⟩, fun h => ⟨h.value, h.mask⟩⟩

/-- The record `b` with every listed number taken from `a`. -/
def copy (l : Layout α) (a b : α) : α :=
  l.foldl (fun b c => c.set (c.get a) b) b

/-- The layout lists all that a record consists of. -/
def Covers (l : Layout α) : Prop :=
  ∀ a b, l.copy a b = a

/-- Packing a record is writing its numbers to their places. -/
theorem pack_eq_setAll (l : Layout α) (w : BitVec n) (a : α) :
    l.pack w a = BitField.setAll (l.map fun c => (c.place, (c.get a).setWidth n)) w := by
  induction l generalizing w with
  | nil => rfl
  | cons c l ih => rw [pack_cons, ih, List.map_cons, BitField.setAll_cons, BitField.set_setWidth]

theorem Separate.fields {l : Layout α} (h : l.Separate n) {m : Nat} (r : Cell α → BitVec m) :
    BitField.Separate (l.map fun c => (c.place, r c)) n := by
  constructor
  · exact List.pairwise_map.mpr h.disjoint
  · intro p hp
    obtain ⟨c, hc, rfl⟩ := List.mem_map.mp hp
    exact h.inside c hc

theorem getLsbD_pack_of_outside {l : Layout α} {i : Nat}
    (h : ∀ c ∈ l, ¬c.place.Contains i) (w : BitVec n) (a : α) :
    (l.pack w a).getLsbD i = w.getLsbD i := by
  rw [pack_eq_setAll]
  exact BitField.getLsbD_setAll_of_outside (List.forall_mem_map.mpr h) w

theorem get_pack_of_avoids {l : Layout α} {f : BitField} {k : Nat} (h : l.Avoids f)
    (w : BitVec n) (a : α) : (f.get (l.pack w a) : BitVec k) = f.get w := by
  rw [pack_eq_setAll]
  exact BitField.get_setAll_of_disjoint (List.forall_mem_map.mpr fun c hc => h c hc) w

theorem get_pack_of_mem {l : Layout α} (hsep : l.Separate n) {c : Cell α} (hc : c ∈ l)
    (w : BitVec n) (a : α) (hfit : c.fits a = true) :
    c.place.get (l.pack w a) = c.get a := by
  have hwidth : c.place.width ≤ n := Nat.le_trans (Nat.le_add_left _ _) (hsep.inside c hc)
  have hmem := List.mem_map_of_mem (f := fun c => (c.place, (c.get a).setWidth n)) hc
  rw [pack_eq_setAll, BitField.get_setAll_of_mem (hsep.fields _) hmem,
    BitVec.setWidth_setWidth_of_le _ hwidth, BitField.setWidth_of_fits hfit]

theorem unpack_eq_copy {l : Layout α} {w : BitVec n} {a : α}
    (h : ∀ c ∈ l, c.place.get w = c.get a) (b : α) : l.unpack w b = l.copy a b := by
  induction l generalizing b with
  | nil => rfl
  | cons c l ih =>
      rw [unpack_cons, h c List.mem_cons_self,
        ih (fun d hd => h d (List.mem_cons_of_mem c hd))]
      rfl

/-- Unpacking undoes packing, whatever the word held before. -/
theorem unpack_pack {l : Layout α} (hsep : l.Separate n) (hcov : l.Covers) (w : BitVec n)
    {a : α} (hfit : ∀ c ∈ l, c.fits a = true) (b : α) : l.unpack (l.pack w a) b = a := by
  rw [unpack_eq_copy (fun c hc => get_pack_of_mem hsep hc w a (hfit c hc)) b]
  exact hcov a b

/-- A record passes its check exactly when every number fits. -/
theorem check_eq_ok_iff {l : Layout α} {a : α} :
    l.check a = .ok () ↔ ∀ c ∈ l, c.fits a = true := by
  rw [← overflow?_eq_none_iff, check]
  cases l.overflow? a with
  | none => simp
  | some c => simp

/-- A header passes its check exactly when every value and every mask fits. -/
theorem checkMasked_eq_ok_iff {l : Layout α} {h : Masked α} :
    l.checkMasked h = .ok () ↔ l.Holds h := by
  have hfind : (l.find? fun c => !(c.fits h.value && c.fits h.mask)) = none ↔ l.Holds h := by
    rw [List.find?_eq_none]
    simp only [Bool.not_eq_true', Bool.not_eq_false, Bool.and_eq_true]
    exact ⟨fun hall => ⟨fun c hc => (hall c hc).1, fun c hc => (hall c hc).2⟩,
      fun hall c hc => ⟨hall.value c hc, hall.mask c hc⟩⟩
  rw [← hfind, checkMasked]
  cases l.find? fun c => !(c.fits h.value && c.fits h.mask) with
  | none => simp
  | some c => simp

theorem isRefusal_of_check {l : Layout α} {a : α} {e : Error} (h : l.check a = .error e) :
    e.IsRefusal := by
  unfold check at h
  cases hover : l.overflow? a with
  | none =>
      rw [hover] at h
      exact nomatch h
  | some c =>
      rw [hover] at h
      exact ⟨_, (Except.error.inj h).symm⟩

theorem isRefusal_of_checkMasked {l : Layout α} {h : Masked α} {e : Error}
    (herror : l.checkMasked h = .error e) : e.IsRefusal := by
  unfold checkMasked at herror
  cases hover : l.find? fun c => !(c.fits h.value && c.fits h.mask) with
  | none =>
      rw [hover] at herror
      exact nomatch herror
  | some c =>
      rw [hover] at herror
      exact ⟨_, (Except.error.inj herror).symm⟩

end Layout

end Tcam
