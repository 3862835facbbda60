import Tcam.Error
import Tcam.Text.Casing

/-!
# Reading the name of a shape

Names are read without regard to case: the text is put in capitals, character by
character and with the whole of Unicode, and compared with the four names.
-/

namespace Tcam.Shape

/-- The shape whose name the characters spell. -/
def ofChars? (cs : List Char) : Option Shape :=
  all.find? fun s => s.text.toList == Casing.upper cs

/-- Reads the name of a shape. -/
def parse (text : String) : Except Error Shape :=
  match ofChars? text.toList with
  | some s => .ok s
  | none => .error (.invalidArgument (.unknownShape text))

end Tcam.Shape
