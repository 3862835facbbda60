import Tcam.Error

/-!
# MAC addresses as text

An address is six octets, written as two hexadecimal digits each with colons
between.  Reading is more generous: the separator is the colon if the text has
one and the hyphen otherwise, and a part may start with one plus sign and have
any number of leading zeros.
-/

namespace Tcam

/-- A forty-eight-bit address, first octet most significant. -/
abbrev MacAddress := BitVec 48

namespace MacAddress

/-- The six octets in the order they are sent. -/
def octets (m : MacAddress) : List Octet :=
  (List.range 6).map fun i => m.extractLsb' (8 * (5 - i)) 8

/-- The address with the given octets, the first one most significant. -/
def ofOctets (octets : List Octet) : MacAddress :=
  octets.foldl (fun m o => m <<< 8 ||| o.setWidth 48) 0#48

/-- The parts of a text between separators. -/
def split (separator : Char) : List Char → List (List Char)
  | [] => [[]]
  | c :: rest =>
    if c = separator then [] :: split separator rest
    else match split separator rest with
      | part :: parts => (c :: part) :: parts
      | [] => [[c]]

/-- One part of an address: an optional plus sign and a number below 256. -/
def octet? (part : List Char) : Option Octet :=
  let digits := match part with
    | '+' :: rest => rest
    | _ => part
  match Hex.nat? digits with
  | some n => if n < 256 then some (BitVec.ofNat 8 n) else none
  | none => none

/-- The octets of all parts. -/
def octets? : List (List Char) → Option (List Octet)
  | [] => some []
  | part :: parts =>
    match octet? part, octets? parts with
    | some o, some os => some (o :: os)
    | _, _ => none

/-- The address the characters spell. -/
def ofChars? (cs : List Char) : Option MacAddress :=
  let parts := split (if ':' ∈ cs then ':' else '-') cs
  match octets? parts with
  | some os => if os.length = 6 then some (ofOctets os) else none
  | none => none

/-- Reads an address. -/
def parse (text : String) : Except Error MacAddress :=
  match ofChars? text.toList with
  | some m => .ok m
  | none => .error (.invalidArgument (.malformedMac text))

/-- The octets in hexadecimal with colons between. -/
def text (m : MacAddress) : String :=
  String.intercalate ":" (m.octets.map Hex.padded)

end MacAddress

end Tcam
