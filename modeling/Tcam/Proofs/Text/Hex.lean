import Mathlib.Data.List.Forall2
import Mathlib.Data.Nat.Digits.Defs
import Tcam.Proofs.Json.Grammar
import Tcam.Text.Hex

/-!
# Hexadecimal numbers as texts

The reader takes exactly the non-empty runs of hexadecimal digits, of any length,
and gives the number whose digits they are.  An octet is written as the digits of
its upper and its lower half.
-/

namespace Tcam.Hex

open Json (HexDigit)

variable {c : Char} {cs : List Char} {acc n : Nat}

/-- A non-empty run of hexadecimal digits and its number, the most significant
digit first. -/
def Numeral (cs : List Char) (n : Nat) : Prop :=
  cs ≠ [] ∧ ∃ values, List.Forall₂ HexDigit cs values ∧ Nat.ofDigits 16 values.reverse = n

theorem digit?_of_hexDigit (h : HexDigit c n) : digit? c = some n := by
  obtain ⟨hn, rfl | rfl⟩ := h
  · revert n
    decide
  · revert n
    decide

/-- Nothing behind the letter `f` is a digit. -/
theorem digit?_eq_none_of_lt (h : 'f'.toNat < c.toNat) : digit? c = none := by
  have hcode : 102 < c.toNat := h
  have hdigit : ¬ c ≤ '9' := by
    show ¬ c.toNat ≤ 57
    omega
  have hsmall : ¬ c ≤ 'f' := by
    show ¬ c.toNat ≤ 102
    omega
  have hcapital : ¬ c ≤ 'F' := by
    show ¬ c.toNat ≤ 70
    omega
  simp [digit?, hdigit, hsmall, hcapital]

theorem hexDigit_of_digit? (h : digit? c = some n) : HexDigit c n := by
  have hascii : ∀ code ≤ 'f'.toNat, ∀ value ∈ digit? (Char.ofNat code),
      HexDigit (Char.ofNat code) value := by
    unfold HexDigit
    decide +kernel
  have hcode : c.toNat ≤ 'f'.toNat := by
    by_contra hbehind
    rw [digit?_eq_none_of_lt (Nat.lt_of_not_le hbehind)] at h
    cases h
  have hdigit := hascii c.toNat hcode n
  rw [Char.ofNat_toNat] at hdigit
  exact hdigit h

/-- A number that has been read acts as one more digit in front. -/
theorem continueNat?_eq_some_iff :
    continueNat? acc cs = some n ↔
      ∃ values, List.Forall₂ HexDigit cs values ∧
        Nat.ofDigits 16 (values.reverse ++ [acc]) = n := by
  induction cs generalizing acc with
  | nil => simp [continueNat?, List.forall₂_nil_left_iff]
  | cons c cs ih =>
      have hpush (d : Nat) (values : List Nat) :
          Nat.ofDigits 16 ((d :: values).reverse ++ [acc]) =
            Nat.ofDigits 16 (values.reverse ++ [16 * acc + d]) := by
        simp only [List.reverse_cons, List.append_assoc, List.singleton_append, Nat.ofDigits_append,
          Nat.ofDigits_cons, Nat.ofDigits_nil]
        ring
      constructor
      · intro h
        cases hd : digit? c with
        | none => simp [continueNat?, hd] at h
        | some d =>
            simp only [continueNat?, hd] at h
            obtain ⟨values, hvalues, rfl⟩ := ih.mp h
            exact ⟨d :: values, .cons (hexDigit_of_digit? hd) hvalues, hpush d values⟩
      · rintro ⟨_, hvalues, rfl⟩
        cases hvalues with
        | cons hd hrest =>
            simp only [continueNat?, digit?_of_hexDigit hd]
            exact ih.mpr ⟨_, hrest, (hpush _ _).symm⟩

/-- What is not a digit stands in no number. -/
theorem Numeral.not_mem (h : Numeral cs n) (hc : digit? c = none) : c ∉ cs := by
  obtain ⟨-, values, hvalues, -⟩ := h
  induction hvalues with
  | nil => exact List.not_mem_nil
  | cons hdigit _ ih =>
      rw [List.mem_cons, not_or]
      refine ⟨?_, ih⟩
      rintro rfl
      rw [digit?_of_hexDigit hdigit] at hc
      cases hc

theorem nat?_eq_some_iff : nat? cs = some n ↔ Numeral cs n := by
  cases cs with
  | nil => simp [nat?, Numeral]
  | cons c cs =>
      simp [nat?, Numeral, continueNat?_eq_some_iff, Nat.ofDigits_append]

/-- An octet is written as two digits, the first of them a zero for a small one. -/
theorem toList_padded (o : Octet) :
    (padded o).toList = [Nat.digitChar (o.toNat / 16), Nat.digitChar (o.toNat % 16)] := by
  have hbound : o.toNat < 256 := o.isLt
  rcases Nat.lt_or_ge o.toNat 16 with hsmall | hlarge
  · have hupper : o.toNat / 16 = 0 := by omega
    have hlower : o.toNat % 16 = o.toNat := by omega
    simp [padded, Nat.toDigits_of_lt_base hsmall, hupper, hlower, List.leftpad]
  · have hdigits : Nat.toDigits 16 (o.toNat / 16) ++ Nat.toDigits 16 (o.toNat % 16) =
        Nat.toDigits 16 (16 * (o.toNat / 16) + o.toNat % 16) :=
      Nat.toDigits_append_toDigits (by decide) (by omega) (by omega)
    rw [Nat.div_add_mod, Nat.toDigits_of_lt_base (by omega),
      Nat.toDigits_of_lt_base (by omega)] at hdigits
    simp [padded, ← hdigits, List.leftpad]

theorem numeral_padded (o : Octet) : Numeral (padded o).toList o.toNat := by
  have hbound : o.toNat < 256 := o.isLt
  rw [toList_padded]
  refine ⟨by simp, [o.toNat / 16, o.toNat % 16], ?_, ?_⟩
  · exact .cons ⟨by omega, .inl rfl⟩ (.cons ⟨by omega, .inl rfl⟩ .nil)
  · simp [Nat.ofDigits_cons]
    omega

end Tcam.Hex
