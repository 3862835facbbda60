import Tcam.Config
import Tcam.Json.Reader

/-!
# Configurations as JSON

A configuration is an object whose missing members take their default values.
A geometry is an object with all four members.  Members with other names are
ignored, but a name must be a proper string, and a known member may occur only
once.  Both records may also be written as arrays of their members in order,
and such an array may be short for a configuration but not for a geometry.
-/

namespace Tcam

namespace Json

/-- The members of an object with their names as strings. -/
def namedMembers? : List (List TextItem × Json) → Option (List (String × Json))
  | [] => some []
  | (name, j) :: rest =>
    match TextItem.chars? name, namedMembers? rest with
    | some cs, some ms => some ((String.ofList cs, j) :: ms)
    | _, _ => none

/-- The member of a name: nothing if it occurs twice, and `some none` if it is absent. -/
def member? (name : String) (members : List (String × Json)) : Option (Option Json) :=
  match members.filter fun m => m.1 == name with
  | [] => some none
  | [m] => some (some m.2)
  | _ => none

end Json

open Json (namedMembers? member?)

namespace Geometry

/-- The four members as a geometry. -/
def ofMembers? (block minIndex maxIndex windowPages : Json) : Option Geometry := do
  let block ← block.bits? 8
  let minIndex ← minIndex.bits? 16
  let maxIndex ← maxIndex.bits? 16
  let windowPages ← windowPages.bits? 8
  return ⟨block, minIndex, maxIndex, windowPages⟩

def ofJson? : Json → Option Geometry
  | .object members => do
    let members ← namedMembers? members
    let block ← member? "block" members
    let minIndex ← member? "min_index" members
    let maxIndex ← member? "max_index" members
    let windowPages ← member? "window_pages" members
    ofMembers? (← block) (← minIndex) (← maxIndex) (← windowPages)
  | .array [block, minIndex, maxIndex, windowPages] =>
    ofMembers? block minIndex maxIndex windowPages
  | _ => none

def toJson (g : Geometry) : Json :=
  .object [
    (Json.plain "block", .ofNat g.block.toNat),
    (Json.plain "min_index", .ofNat g.minIndex.toNat),
    (Json.plain "max_index", .ofNat g.maxIndex.toNat),
    (Json.plain "window_pages", .ofNat g.windowPages.toNat)]

end Geometry

namespace Config

/-- The value of an optional member, or its default. -/
def memberOr {α : Type} (read : Json → Option α) (standard : α) : Option Json → Option α
  | none => some standard
  | some j => read j

/-- The four optional members as a configuration. -/
def ofMembers? (ingress egress busyPollLimit portCount : Option Json) : Option Config := do
  let ingress ← memberOr Geometry.ofJson? (default : Config).ingress ingress
  let egress ← memberOr Geometry.ofJson? (default : Config).egress egress
  let busyPollLimit ← memberOr (Json.bits? 32) (default : Config).busyPollLimit busyPollLimit
  let portCount ← memberOr (Json.bits? 8) (default : Config).portCount portCount
  return ⟨ingress, egress, busyPollLimit, portCount⟩

def ofJson? : Json → Option Config
  | .object members => do
    let members ← namedMembers? members
    ofMembers? (← member? "ingress" members) (← member? "egress" members)
      (← member? "busy_poll_limit" members) (← member? "port_count" members)
  | .array items =>
    if items.length ≤ 4 then ofMembers? items[0]? items[1]? items[2]? items[3]? else none
  | _ => none

def toJson (c : Config) : Json :=
  .object [
    (Json.plain "ingress", c.ingress.toJson),
    (Json.plain "egress", c.egress.toJson),
    (Json.plain "busy_poll_limit", .ofNat c.busyPollLimit.toNat),
    (Json.plain "port_count", .ofNat c.portCount.toNat)]

/-- The configuration as text without blanks. -/
def text (c : Config) : String :=
  c.toJson.text

/-- Reads a configuration without checking that a device can have it. -/
def parse (text : String) : Except Error Config :=
  match (Json.parse? text).bind ofJson? with
  | some c => .ok c
  | none => .error (.config .malformedText)

/-- Reads a configuration and checks it. -/
def load (text : String) : Except Error Config := do
  let c ← parse text
  c.validate
  return c

end Config

end Tcam
