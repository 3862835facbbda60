import Tcam.Json.Basic
import Tcam.Text.Hex

/-!
# Reading JSON text

The reader accepts the texts of the JSON grammar and nothing else, to any depth.
Each reading function takes the characters that are left and returns what it
found together with the rest.  Values nest, so reading them takes an amount of
fuel; one unit for every character is always enough, because each nested call
starts at a later character.
-/

namespace Tcam.Json

def isBlank (c : Char) : Bool :=
  c == ' ' || c == '\n' || c == '\t' || c == '\r'

def isDigit (c : Char) : Bool :=
  decide ('0' ≤ c) && decide (c ≤ '9')

/-- The characters from the first one on that is no blank. -/
def skipBlank (cs : List Char) : List Char :=
  cs.dropWhile isBlank

/-- The number that decimal digits stand for. -/
def digitsValue (ds : List Char) : Nat :=
  ds.foldl (fun n c => 10 * n + (c.toNat - '0'.toNat)) 0

/-- A non-empty run of digits. -/
def readDigits (cs : List Char) : Option (List Char × List Char) :=
  match cs.takeWhile isDigit with
  | [] => none
  | d :: ds => some (d :: ds, cs.dropWhile isDigit)

/-- The whole part of a number.  A leading zero stands alone. -/
def readWhole : List Char → Option (Nat × List Char)
  | '0' :: rest => some (0, rest)
  | cs => (readDigits cs).map fun r => (digitsValue r.1, r.2)

/-- The fraction of a number, which may be absent. -/
def readFraction : List Char → Option (List Char × List Char)
  | '.' :: rest => (readDigits rest).map fun r => ('.' :: r.1, r.2)
  | cs => some ([], cs)

/-- The exponent of a number, which may be absent. -/
def readExponent : List Char → Option (List Char × List Char)
  | [] => some ([], [])
  | e :: rest =>
    if e = 'e' ∨ e = 'E' then
      match rest with
      | '+' :: rest => (readDigits rest).map fun r => (e :: '+' :: r.1, r.2)
      | '-' :: rest => (readDigits rest).map fun r => (e :: '-' :: r.1, r.2)
      | rest => (readDigits rest).map fun r => (e :: r.1, r.2)
    else some ([], e :: rest)

/-- A number behind its sign. -/
def readUnsigned (negative : Bool) (cs : List Char) : Option (NumberText × List Char) := do
  let (whole, cs) ← readWhole cs
  let (fraction, cs) ← readFraction cs
  let (exponent, cs) ← readExponent cs
  return (⟨negative, whole, fraction ++ exponent⟩, cs)

def readNumber : List Char → Option (NumberText × List Char)
  | '-' :: rest => readUnsigned true rest
  | cs => readUnsigned false cs

/-- The character that a backslash and a letter name. -/
def escaped? (c : Char) : Option Char :=
  if c = '\x22' ∨ c = '\\' ∨ c = '/' then some c
  else if c = 'b' then some '\x08'
  else if c = 'f' then some '\x0c'
  else if c = 'n' then some '\n'
  else if c = 'r' then some '\r'
  else if c = 't' then some '\t'
  else none

/-- The unit that four hexadecimal digits name. -/
def hexUnit? (ds : List Char) : Option Word :=
  (Hex.nat? ds).map (BitVec.ofNat 16)

/-- A string literal behind its opening quotation mark. -/
def readString : List Char → Option (List TextItem × List Char)
  | [] => none
  | '\x22' :: rest => some ([], rest)
  | '\\' :: 'u' :: a :: b :: c :: d :: rest => do
    let unit ← hexUnit? [a, b, c, d]
    let (items, rest) ← readString rest
    return (.unit unit :: items, rest)
  | '\\' :: e :: rest => do
    let c ← escaped? e
    let (items, rest) ← readString rest
    return (.char c :: items, rest)
  | c :: rest =>
    if c = '\\' ∨ c.toNat < 0x20 then none
    else do
      let (items, rest) ← readString rest
      return (.char c :: items, rest)

mutual

/-- A value, after any blanks. -/
def readValue : Nat → List Char → Option (Json × List Char)
  | 0, _ => none
  | fuel + 1, cs =>
    match skipBlank cs with
    | 'n' :: 'u' :: 'l' :: 'l' :: rest => some (.null, rest)
    | 't' :: 'r' :: 'u' :: 'e' :: rest => some (.bool true, rest)
    | 'f' :: 'a' :: 'l' :: 's' :: 'e' :: rest => some (.bool false, rest)
    | '\x22' :: rest => (readString rest).map fun r => (.string r.1, r.2)
    | '[' :: rest =>
      match skipBlank rest with
      | ']' :: rest => some (.array [], rest)
      | rest => (readItems fuel rest).map fun r => (.array r.1, r.2)
    | '\x7b' :: rest =>
      match skipBlank rest with
      | '\x7d' :: rest => some (.object [], rest)
      | rest => (readMembers fuel rest).map fun r => (.object r.1, r.2)
    | rest => (readNumber rest).map fun r => (.number r.1, r.2)

/-- The values of an array up to its closing bracket, at least one. -/
def readItems : Nat → List Char → Option (List Json × List Char)
  | 0, _ => none
  | fuel + 1, cs =>
    match readValue fuel cs with
    | none => none
    | some (j, rest) =>
      match skipBlank rest with
      | ']' :: rest => some ([j], rest)
      | ',' :: rest => (readItems fuel rest).map fun r => (j :: r.1, r.2)
      | _ => none

/-- The members of an object up to its closing brace, at least one. -/
def readMembers : Nat → List Char → Option (List (List TextItem × Json) × List Char)
  | 0, _ => none
  | fuel + 1, cs =>
    match skipBlank cs with
    | '\x22' :: rest =>
      match readString rest with
      | none => none
      | some (name, rest) =>
        match skipBlank rest with
        | ':' :: rest =>
          match readValue fuel rest with
          | none => none
          | some (j, rest) =>
            match skipBlank rest with
            | '\x7d' :: rest => some ([(name, j)], rest)
            | ',' :: rest => (readMembers fuel rest).map fun r => ((name, j) :: r.1, r.2)
            | _ => none
        | _ => none
    | _ => none

end

/-- The value of a whole text. -/
def ofChars? (cs : List Char) : Option Json :=
  match readValue (cs.length + 1) cs with
  | some (j, rest) => if skipBlank rest = [] then some j else none
  | none => none

/-- The value of a whole text. -/
def parse? (text : String) : Option Json :=
  ofChars? text.toList

end Tcam.Json
