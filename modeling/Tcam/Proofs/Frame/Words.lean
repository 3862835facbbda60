import Mathlib.Algebra.Group.Nat.Defs
import Tcam.Frame.Header
import Tcam.Proofs.Frame.Stream

/-!
# Fields that share a word

The numbers below an octet stand side by side in words of sixteen bits.  Fields of a word
that share no bit are independent of each other, in a register as in a stream
(`separate_independent`): neither the order of the writes nor a number that is too large
for its field shows in another field.  A word that is full of fields is the same as its
fields written one by one, as the layouts do it (`putWord_eq_setAll`).
-/

namespace Tcam

namespace BitField

variable {n m : Nat} {fields : List (BitField × BitVec m)}

/-- A field holds the remainder of the number that was written to it. -/
theorem toNat_get_setAll (hsep : Separate fields n) {p : BitField × BitVec m} (hp : p ∈ fields)
    (w : BitVec n) :
    (p.1.get (setAll fields w) : BitVec m).toNat = p.2.toNat % 2 ^ p.1.width := by
  have hlt : p.2.toNat % 2 ^ p.1.width < 2 ^ m :=
    Nat.lt_of_le_of_lt (Nat.mod_le _ _) p.2.isLt
  rw [get_setAll_of_mem hsep hp, BitVec.toNat_setWidth, BitVec.toNat_setWidth,
    Nat.mod_eq_of_lt hlt]

end BitField

namespace FrameStream

open BitField (Separate setAll)

variable {octet : Nat} {fields : List (BitField × Masked Word)}

/-- Each field of a packed word holds what is left of its number. -/
theorem wordField_putWord (hsep : Separate fields 16) (hin : octet + 2 ≤ streamOctets)
    (s : FrameStream) {p : BitField × Masked Word} (hp : p ∈ fields) :
    ((s.putWord octet fields).wordField octet p.1).value.toNat =
        p.2.value.toNat % 2 ^ p.1.width ∧
      ((s.putWord octet fields).wordField octet p.1).mask.toNat =
        p.2.mask.toNat % 2 ^ p.1.width := by
  have hpart (part : Masked Word → Word) :
      (p.1.get (setAll (fields.map fun q => (q.1, part q.2)) 0#16) : Word).toNat =
        (part p.2).toNat % 2 ^ p.1.width :=
    BitField.toNat_get_setAll (hsep.map part)
      (List.mem_map_of_mem (f := fun q => (q.1, part q.2)) hp) 0#16
  have hspan : 8 * octet + 16 ≤ 8 * streamOctets := by omega
  rw [wordField, putWord, readAt_putAt hspan]
  exact ⟨hpart Masked.value, hpart Masked.mask⟩

/-- A word that is full of fields is written field by field. -/
theorem putWord_eq_setAll (hsep : Separate fields 16)
    (hfull : ∀ i < 16, ∃ p ∈ fields, p.1.Contains i) (hin : octet + 2 ≤ streamOctets)
    (s : FrameStream) :
    let inStream (part : Masked Word → Word) :=
      fields.map fun p => (p.1.within (span (8 * octet) 16), part p.2)
    s.putWord octet fields =
      ⟨setAll (inStream Masked.value) s.value, setAll (inStream Masked.mask) s.mask⟩ := by
  have hspan : (span (8 * octet) 16).offset + (span (8 * octet) 16).width ≤ 8 * streamOctets := by
    simp only [span]
    omega
  have hpart (part : Masked Word → Word) (w : BitVec (8 * streamOctets)) :
      (span (8 * octet) 16).set w (setAll (fields.map fun p => (p.1, part p.2)) 0#16) =
        setAll (fields.map fun p => (p.1.within (span (8 * octet) 16), part p.2)) w := by
    have hfull' : ∀ i < 16, ∃ q ∈ fields.map fun p => (p.1, part p.2), q.1.Contains i := by
      intro i hi
      obtain ⟨p, hp, hcontains⟩ := hfull i hi
      exact ⟨_, List.mem_map_of_mem hp, hcontains⟩
    rw [BitField.set_setAll (hsep.map part) hfull' rfl hspan, List.map_map]
    rfl
  simp only [putWord, putAt, put, hpart]

/-- The first fields of an IPv4 header fill the word at octet 18. -/
example : (Ipv4Header.layout.take 3).map Cell.place =
    ([⟨12, 4⟩, ⟨8, 4⟩, ⟨0, 8⟩] : List BitField).map (·.within (span (8 * 18) 16)) := rfl

end FrameStream

namespace BitField

/-- Fields of a word that share no bit are independent.  Written in any order they leave the
same word, in which each holds its number modulo its size, the number itself exactly if it
fits, and all bits outside of them are as before.  A word that is packed from fields and
written to a stream gives back every field in the same way, and a flag is read as it was
set. -/
theorem separate_independent :
    (∀ (w : Word) (fields : List (BitField × Word)), Separate fields 16 →
      (∀ fields' : List (BitField × Word), fields'.Perm fields →
        setAll fields' w = setAll fields w) ∧
      (∀ p ∈ fields, (p.1.get (setAll fields w) : Word).toNat = p.2.toNat % 2 ^ p.1.width ∧
        (p.1.get (setAll fields w) = p.2 ↔ p.1.fits p.2 = true)) ∧
      ∀ i, (∀ p ∈ fields, ¬p.1.Contains i) → (setAll fields w).getLsbD i = w.getLsbD i) ∧
    (∀ (s : FrameStream) (octet : Nat) (fields : List (BitField × Masked Word)),
      octet + 2 ≤ streamOctets → Separate fields 16 → ∀ p ∈ fields,
        let field := (s.putWord octet fields).wordField octet p.1
        field.value.toNat = p.2.value.toNat % 2 ^ p.1.width ∧
          field.mask.toNat = p.2.mask.toNat % 2 ^ p.1.width) ∧
    ∀ (f : BitField) (w : Word) (flag : Bool), f.width = 1 → f.offset + f.width ≤ 16 →
      f.getFlag (f.setFlag w flag) = flag := by
  refine ⟨fun w fields hsep => ⟨fun fields' hperm => setAll_eq_of_perm hperm hsep w,
    fun p hp => ⟨toNat_get_setAll hsep hp w, ?_⟩,
    fun i hout => getLsbD_setAll_of_outside hout w⟩, ?_, ?_⟩
  · rw [get_setAll_of_mem hsep hp]
    exact setWidth_eq_iff_fits
  · intro s octet fields hin hsep p hp
    exact FrameStream.wordField_putWord hsep hin s hp
  · intro f w flag hwidth hin
    exact getFlag_setFlag hwidth hin w flag

/-- Two numbers that are too large for their fields, which fill a word up to its last bit, and
one that fits. -/
def overfullSample : List (BitField × Word) :=
  [(⟨12, 4⟩, 0x1f#16), (⟨4, 8⟩, 0xfff#16), (⟨0, 3⟩, 2#16)]

/-- The field that ends with the word is cut, and bit 3 belongs to no field. -/
theorem separate_independent_overfullSample :
    Separate overfullSample 16 ∧
      setAll overfullSample.reverse 0x0008#16 = setAll overfullSample 0x0008#16 ∧
      ((⟨12, 4⟩ : BitField).get (setAll overfullSample 0x0008#16) : Word).toNat = 15 ∧
      ((⟨0, 3⟩ : BitField).get (setAll overfullSample 0x0008#16) : Word) = 2#16 ∧
      (setAll overfullSample 0x0008#16).getLsbD 3 = true ∧
      ((FrameStream.putWord .any 47 [(⟨12, 4⟩, ⟨0x1f#16, 0xffff#16⟩)]).wordField 47
        ⟨12, 4⟩).mask.toNat = 15 ∧
      (⟨15, 1⟩ : BitField).getFlag ((⟨15, 1⟩ : BitField).setFlag 0#16 true) = true := by
  have hsep : Separate overfullSample 16 := by decide
  obtain ⟨hperm, hheld, houtside⟩ := separate_independent.1 0x0008#16 overfullSample hsep
  have hword := separate_independent.2.1 .any 47 [(⟨12, 4⟩, ⟨0x1f#16, 0xffff#16⟩)]
    (by decide) (by decide) _ List.mem_cons_self
  have hflag := separate_independent.2.2 ⟨15, 1⟩ 0#16 true rfl (by decide)
  refine ⟨hsep, hperm _ (List.reverse_perm _), ?_, ?_, ?_, hword.2, hflag⟩
  · exact (hheld (⟨12, 4⟩, 0x1f#16) (by decide)).1
  · exact (hheld (⟨0, 3⟩, 2#16) (by decide)).2.mpr (by decide)
  · exact (houtside 3 (by decide)).trans (by decide)

end BitField

end Tcam
