import Tcam.Bits.Field

/-!
# JSON syntax trees

A tree keeps what the text says and nothing about its layout.  String literals
are kept as a list of characters and escaped UTF-16 units, because a text can be
well formed although such a unit stands alone; `TextItem.chars?` tells whether a
literal names a string.  Of a number the sign and the whole part are kept as
numbers, and fraction and exponent as they are written.
-/

namespace Tcam

/-- One element of a string literal. -/
inductive TextItem where
  | char (c : Char)
  | unit (u : Word)
  deriving DecidableEq, Repr

namespace TextItem

/-- The unit is the first of a surrogate pair. -/
def isHigh (u : Word) : Bool :=
  decide (0xd800#16 ≤ u) && decide (u ≤ 0xdbff#16)

/-- The unit is the second of a surrogate pair. -/
def isLow (u : Word) : Bool :=
  decide (0xdc00#16 ≤ u) && decide (u ≤ 0xdfff#16)

/-- The character of a surrogate pair. -/
def pairChar (high low : Word) : Char :=
  Char.ofNat (0x10000 + 0x400 * (high.toNat - 0xd800) + (low.toNat - 0xdc00))

/-- The characters that a literal stands for, unless a surrogate has no partner. -/
def chars? : List TextItem → Option (List Char)
  | [] => some []
  | .char c :: rest => (chars? rest).map (c :: ·)
  | .unit u :: .unit v :: rest =>
    if isHigh u && isLow v then (chars? rest).map (pairChar u v :: ·)
    else if isHigh u || isLow u then none
    else (chars? (.unit v :: rest)).map (Char.ofNat u.toNat :: ·)
  | .unit u :: rest =>
    if isHigh u || isLow u then none
    else (chars? rest).map (Char.ofNat u.toNat :: ·)

end TextItem

/-- A number as it is written: the sign, the whole part, and the text of
fraction and exponent. -/
structure NumberText where
  negative : Bool
  whole : Nat
  tail : List Char
  deriving DecidableEq, Repr

/-- A JSON value. -/
inductive Json where
  | null
  | bool (b : Bool)
  | number (n : NumberText)
  | string (items : List TextItem)
  | array (items : List Json)
  | object (members : List (List TextItem × Json))
  deriving Repr

namespace Json

/-- A number without sign, fraction and exponent. -/
def ofNat (n : Nat) : Json :=
  .number ⟨false, n, []⟩

/-- The value, if it is a number written without sign, fraction and exponent. -/
def nat? : Json → Option Nat
  | .number ⟨false, n, []⟩ => some n
  | _ => none

/-- The value as an `n`-bit number, if it is one. -/
def bits? (n : Nat) (j : Json) : Option (BitVec n) :=
  match j.nat? with
  | some v => if (BitVec.ofNat n v).toNat = v then some (BitVec.ofNat n v) else none
  | none => none

/-- The literal of a string without escapes. -/
def plain (s : String) : List TextItem :=
  s.toList.map .char

/-- Text between quotation marks. -/
def quoted (s : List Char) : List Char :=
  '\x22' :: s ++ ['\x22']

/-- A character inside a string literal. -/
def writeChar (c : Char) : List Char :=
  if c = '\x22' ∨ c = '\\' then ['\\', c]
  else if c.toNat < 0x20 then "\\u00".toList ++ (BitVec.ofNat 8 c.toNat).toHex.toList
  else [c]

def writeItem : TextItem → List Char
  | .char c => writeChar c
  | .unit u => "\\u".toList ++ u.toHex.toList

def writeString (items : List TextItem) : List Char :=
  quoted (items.flatMap writeItem)

def writeNumber (n : NumberText) : List Char :=
  (if n.negative then ['-'] else []) ++ Nat.toDigits 10 n.whole ++ n.tail

mutual

/-- The value as text without blanks. -/
def write : Json → List Char
  | .null => "null".toList
  | .bool true => "true".toList
  | .bool false => "false".toList
  | .number n => writeNumber n
  | .string items => writeString items
  | .array items => '[' :: writeItems items ++ [']']
  | .object members => '\x7b' :: writeMembers members ++ ['\x7d']

/-- The values of an array with commas between. -/
def writeItems : List Json → List Char
  | [] => []
  | [j] => write j
  | j :: rest => write j ++ ',' :: writeItems rest

/-- The members of an object with commas between. -/
def writeMembers : List (List TextItem × Json) → List Char
  | [] => []
  | [(name, j)] => writeString name ++ ':' :: write j
  | (name, j) :: rest => writeString name ++ ':' :: write j ++ ',' :: writeMembers rest

end

/-- The value as text without blanks. -/
def text (j : Json) : String :=
  String.ofList (write j)

end Json

end Tcam
