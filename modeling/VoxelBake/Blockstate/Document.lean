/-
Blockstate files.

A blockstate file says which models a block is drawn with.  It either has variants, one of which
is chosen by the properties of the state, or parts, of which every one whose condition holds is
drawn.  Numbers and truth values may be written as texts.

* `Placement` — a model, how it is turned and how likely it is;
* `Part` — a placement with its condition;
* `BlockstateDocument` — a file;
* `BlockstateFault` — what may be wrong with a file as a whole;
* `BlockstateDocument.ofValue` — the file behind a document.
-/
import VoxelBake.Blockstate.Condition
import VoxelBake.Identifier
import VoxelBake.Json.Value
import VoxelBake.Orientation

set_option relaxedAutoImplicit false
set_option autoImplicit false

namespace VoxelBake

/-- A model, how it is turned and how likely it is. -/
structure Placement where
  /-- The model. -/
  model : Identifier
  /-- Angle about the east-west axis in degrees. -/
  x : Int
  /-- Angle about the vertical axis in degrees. -/
  y : Int
  /-- Whether textures stay fixed in the world. -/
  lockTextures : Bool
  /-- How likely the model is, compared with the others. -/
  weight : Nat
deriving DecidableEq

/-- A placement that is drawn under a condition, or always if there is none. -/
structure Part where
  /-- The document that states the condition. -/
  condition : Option Json.Value
  /-- What is drawn. -/
  placement : Placement

/-- A blockstate file. -/
inductive BlockstateDocument
  /-- Variants by key, in the order of the file, each with its placements. -/
  | variants (variants : List (String × List Placement))
  /-- Parts in the order of the file. -/
  | parts (parts : List Part)

/-- What may be wrong with a blockstate file as a whole. -/
inductive BlockstateFault
  /-- The variants are not an object. -/
  | variantsNotObject
  /-- The parts are not a list. -/
  | partsNotList
  /-- There are neither variants nor parts. -/
  | nothingToDraw
deriving DecidableEq

/-- The wording of a fault. -/
def BlockstateFault.message : BlockstateFault → String
  | variantsNotObject => "\x60variants\x60 is not an object"
  | partsNotList => "\x60multipart\x60 is not an array"
  | nothingToDraw => "neither \x60variants\x60 nor \x60multipart\x60 present"

/-! ### Values that may be written as texts -/

/-- The whole part of a double, as far as 64 bits go; zero if it is not a number. -/
def wholePart (x : Float) : Int := x.toInt64.toInt

/-- A whole number, or the text of one. -/
def looseInt? : Json.Value → Option Int
  | .number (.real x) => some (wholePart x)
  | .number (.negative n) => some (-(n : Int))
  | .number (.whole n) =>
      if n < 0x8000000000000000 then some n else some (wholePart n.toUInt64.toFloat)
  | .text s => Text.readInt64 (Text.trim s)
  | _ => none

/-- A truth value, or the text of one. -/
def looseBool? : Json.Value → Option Bool
  | .bool b => some b
  | .text s => Text.readBool (Text.trim s)
  | _ => none

/-! ### Reading -/

/-- The largest weight. -/
def maxWeight : Nat := 0xffffffff

/-- The weight that a number stands for: at least one. -/
def weightOf (w : Int) : Nat := min (max w 1).toNat maxWeight

namespace Placement

/-- The placement that a document describes; it has to name a model. -/
def ofValue? (v : Json.Value) : Option Placement := do
  let model ← (v.member? "model").bind Json.Value.asText?
  some
    { model := Identifier.parse model
      x := ((v.member? "x").bind looseInt?).getD 0
      y := ((v.member? "y").bind looseInt?).getD 0
      lockTextures := ((v.member? "uvlock").bind looseBool?).getD false
      weight := (((v.member? "weight").bind looseInt?).map weightOf).getD 1 }

/-- The placements of a variant: a list of them, or a single one; unreadable ones are left out. -/
def listOfValue : Json.Value → List Placement
  | .array items => items.filterMap ofValue?
  | v => (ofValue? v).toList

/-- How a placement turns its model. -/
def orientation (p : Placement) : Orientation := Orientation.ofDegrees p.x p.y p.lockTextures

end Placement

/-- The part that a document describes.  Of a list of placements only the first counts. -/
def Part.ofValue? (v : Json.Value) : Option Part := do
  let placement ← match ← v.member? "apply" with
    | .array items => items.head?.bind Placement.ofValue?
    | single => Placement.ofValue? single
  some { condition := v.member? "when", placement := placement }

/-- The condition under which a part is drawn. -/
def Part.holdsFor (p : Part) (properties : Properties) : Bool :=
  match p.condition with
  | some v => (Condition.ofWhen v).holds properties
  | none => true

/-- The blockstate file behind a document. -/
def BlockstateDocument.ofValue (v : Json.Value) : Except BlockstateFault BlockstateDocument :=
  match v.member? "variants", v.member? "multipart" with
  | some (.object members), _ =>
      .ok (.variants (members.map fun m => (m.1, Placement.listOfValue m.2)))
  | some _, _ => .error .variantsNotObject
  | none, some (.array items) => .ok (.parts (items.filterMap Part.ofValue?))
  | none, some _ => .error .partsNotList
  | none, none => .error .nothingToDraw

end VoxelBake
