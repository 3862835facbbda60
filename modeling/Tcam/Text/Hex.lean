import Tcam.Bits.Field

/-!
# Hexadecimal text

Numbers are written in lower case, either padded to their width or with no
leading zeros.  Reading takes digits of either case, any number of leading
zeros, and nothing else.
-/

namespace Tcam.Hex

/-- The number without leading zeros. -/
def natDigits (v : Nat) : String :=
  String.ofList (Nat.toDigits 16 v)

/-- The number with one digit for every four bits of its width. -/
def padded {n : Nat} (v : BitVec n) : String :=
  String.ofList (List.leftpad ((n + 3) / 4) '0' (Nat.toDigits 16 v.toNat))

/-- The value of a hexadecimal digit. -/
def digit? (c : Char) : Option Nat :=
  if '0' ≤ c ∧ c ≤ '9' then some (c.toNat - '0'.toNat)
  else if 'a' ≤ c ∧ c ≤ 'f' then some (c.toNat - 'a'.toNat + 10)
  else if 'A' ≤ c ∧ c ≤ 'F' then some (c.toNat - 'A'.toNat + 10)
  else none

/-- Appends digits to a number already read. -/
def continueNat? (acc : Nat) : List Char → Option Nat
  | [] => some acc
  | c :: rest =>
    match digit? c with
    | some d => continueNat? (16 * acc + d) rest
    | none => none

/-- The number a non-empty run of digits stands for. -/
def nat? : List Char → Option Nat
  | [] => none
  | c :: rest => continueNat? 0 (c :: rest)

end Tcam.Hex
