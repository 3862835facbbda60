import Tcam.Bits.Field

/-!
# Records laid out in words

A layout lists where each number of a record lives inside a word.  One list
serves three purposes: packing the record, unpacking it, and finding the first
number that is too wide for its place.  Several layouts may share a word; each
writes its own places only.
-/

namespace Tcam

/-- One number of a record and its place in a word.  `size` is the width of the
number in the record, which may exceed the width of the place. -/
structure Cell (α : Type) where
  label : String
  place : BitField
  size : Nat
  get : α → BitVec size
  set : BitVec size → α → α

namespace Cell

variable {α β : Type}

/-- The record's number fits its place. -/
def fits (c : Cell α) (a : α) : Bool :=
  c.place.fits (c.get a)

/-- A truth value kept in one bit. -/
def flag (label : String) (place : BitField) (get : α → Bool) (set : Bool → α → α) : Cell α where
  label := label
  place := place
  size := 1
  get a := BitVec.ofBool (get a)
  set v a := set (v == 1#1) a

end Cell

/-- The places of a record, in the order they are checked. -/
abbrev Layout (α : Type) := List (Cell α)

namespace Layout

variable {α : Type} {n : Nat}

/-- Writes every number of the record to its place in `w`. -/
def pack (l : Layout α) (w : BitVec n) (a : α) : BitVec n :=
  l.foldl (fun w c => c.place.set w (c.get a)) w

/-- Replaces the numbers of `a` by what their places in `w` hold. -/
def unpack (l : Layout α) (w : BitVec n) (a : α) : α :=
  l.foldl (fun a c => c.set (c.place.get w) a) a

/-- The first number that is too wide for its place. -/
def overflow? (l : Layout α) (a : α) : Option (Cell α) :=
  l.find? fun c => !c.fits a

@[simp] theorem pack_nil (w : BitVec n) (a : α) : pack [] w a = w := rfl

@[simp] theorem pack_cons (c : Cell α) (l : Layout α) (w : BitVec n) (a : α) :
    pack (c :: l) w a = pack l (c.place.set w (c.get a)) a := rfl

@[simp] theorem unpack_nil (w : BitVec n) (a : α) : unpack [] w a = a := rfl

@[simp] theorem unpack_cons (c : Cell α) (l : Layout α) (w : BitVec n) (a : α) :
    unpack (c :: l) w a = unpack l w (c.set (c.place.get w) a) := rfl

/-- No number is too wide exactly when each one fits. -/
theorem overflow?_eq_none_iff {l : Layout α} {a : α} :
    l.overflow? a = none ↔ ∀ c ∈ l, c.fits a := by
  simp [overflow?, List.find?_eq_none]

end Layout

end Tcam
