import Tcam.Bits.Layout
import Tcam.Geometry
import Tcam.Masked

/-!
# Frame windows and streams

A slot compares the first forty-eight octets of a frame, or the next
forty-eight if it continues another slot.  Both windows together form a stream
of ninety-six octets.  Octets are kept in the order they are sent, the first one
most significant, so a header field in network order is a run of bits.
-/

namespace Tcam

/-- The octets of a frame that two windows see. -/
abbrev streamOctets : Nat := 96

/-- The values and masks of one window. -/
abbrev FrameWindow := Masked (BitVec (8 * windowOctets))

/-- The values and masks of two windows. -/
abbrev FrameStream := Masked (BitVec (8 * streamOctets))

namespace FrameWindow

/-- Octet `i`, counted from the start of the window. -/
def octetField (i : Nat) : BitField :=
  ⟨8 * (windowOctets - 1 - i), 8⟩

def valueOctet (w : FrameWindow) (i : Nat) : Octet :=
  (octetField i).get w.value

def maskOctet (w : FrameWindow) (i : Nat) : Octet :=
  (octetField i).get w.mask

/-- The window without its first `octets` octets. -/
def drop (w : FrameWindow) (octets : Nat) : Masked (BitVec (8 * (windowOctets - octets))) :=
  ⟨w.value.extractLsb' 0 _, w.mask.extractLsb' 0 _⟩

/-- Some mask bit is set at or beyond octet `octets`. -/
def comparesBeyond (w : FrameWindow) (octets : Nat) : Bool :=
  (w.drop octets).mask != 0#_

/-- Some value bit is set at or beyond octet `octets`. -/
def hasValuesBeyond (w : FrameWindow) (octets : Nat) : Bool :=
  (w.drop octets).value != 0#_

end FrameWindow

namespace FrameStream

variable {α : Type} {n : Nat}

/-- The run of `width` bits that starts `start` bits into the stream. -/
def span (start width : Nat) : BitField :=
  ⟨8 * streamOctets - start - width, width⟩

/-- The stream of two windows; without a second window the rest compares nothing. -/
def ofWindows (first : FrameWindow) (second : Option FrameWindow) : FrameStream :=
  let rest := second.getD .any
  ⟨first.value ++ rest.value, first.mask ++ rest.mask⟩

/-- The first forty-eight octets. -/
def firstWindow (s : FrameStream) : FrameWindow :=
  ⟨s.value.extractLsb' (8 * windowOctets) (8 * windowOctets),
    s.mask.extractLsb' (8 * windowOctets) (8 * windowOctets)⟩

/-- The last forty-eight octets. -/
def secondWindow (s : FrameStream) : FrameWindow :=
  ⟨s.value.extractLsb' 0 (8 * windowOctets), s.mask.extractLsb' 0 (8 * windowOctets)⟩

/-- Writes value and mask of a field to the same place. -/
def put (s : FrameStream) (place : BitField) (field : Masked (BitVec n)) : FrameStream :=
  ⟨place.set s.value field.value, place.set s.mask field.mask⟩

/-- Reads value and mask of a field from the same place. -/
def read (s : FrameStream) (place : BitField) : Masked (BitVec n) :=
  ⟨place.get s.value, place.get s.mask⟩

/-- Writes an `n`-bit field that starts at an octet. -/
def putAt (s : FrameStream) (octet : Nat) (field : Masked (BitVec n)) : FrameStream :=
  s.put (span (8 * octet) n) field

/-- Reads an `n`-bit field that starts at an octet. -/
def readAt (s : FrameStream) (octet : Nat) : Masked (BitVec n) :=
  s.read (span (8 * octet) n)

/-- Packs fields into a sixteen-bit word, the rest of it zero, and writes it at an octet. -/
def putWord (s : FrameStream) (octet : Nat) (fields : List (BitField × Masked Word)) :
    FrameStream :=
  let pack (part : Masked Word → Word) : Word :=
    BitField.setAll (fields.map fun p => (p.1, part p.2)) 0#16
  s.putAt octet ⟨pack Masked.value, pack Masked.mask⟩

/-- Reads a field of the sixteen-bit word that starts at an octet. -/
def wordField (s : FrameStream) (octet : Nat) (f : BitField) : Masked Word :=
  let word : Masked Word := s.readAt octet
  ⟨f.get word.value, f.get word.mask⟩

/-- Writes the values and masks of a header to their places. -/
def putHeader (s : FrameStream) (layout : Layout α) (header : Masked α) : FrameStream :=
  ⟨layout.pack s.value header.value, layout.pack s.mask header.mask⟩

/-- Reads the values and masks of a header from their places. -/
def readHeader [Inhabited α] (s : FrameStream) (layout : Layout α) : Masked α :=
  ⟨layout.unpack s.value default, layout.unpack s.mask default⟩

end FrameStream

end Tcam
