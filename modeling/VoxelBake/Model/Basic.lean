/-
Models: boxes with textured faces.

A model is a list of boxes ("elements"), each with a texture on some of its six faces, together
with named texture slots and the transforms used when the model is displayed as an item.  A face
names its texture directly or through a slot, and a slot may point at another slot.

* `TextureRef`, `TextureRef.parse` — a texture, or the slot that names it;
* `UvRect`, `Face`, `Element` — a part of a texture, a face, a box;
* `defaultUv` — the part of its texture that a face shows when none is written;
* `DisplayPosition`, `DisplayTransform` — where and how an item is displayed;
* `Model`, `Model.resolveSlot`, `Model.resolve` — a model and the texture behind a reference;
* `Model.textureIds` — every texture that the model can show;
* `Model.layerCount` — how many of the slots `layer0`, `layer1`, … follow each other;
* `Model.layerSlot_injective` — each of these slots has a name of its own.
-/
import VoxelBake.Chain
import VoxelBake.Identifier
import VoxelBake.Model.Rotation
import VoxelBake.Table

set_option relaxedAutoImplicit false
set_option autoImplicit false

namespace VoxelBake

/-! ### Textures of faces -/

/-- What a slot or a face says about its texture. -/
inductive TextureRef
  /-- Whatever the slot of this name holds. -/
  | slot (name : String)
  /-- This texture. -/
  | texture (id : Identifier)
deriving DecidableEq

/-- Reads a reference: a slot after `#`, a texture otherwise. -/
def TextureRef.parse (s : String) : TextureRef :=
  match s.toList with
  | '#' :: name => .slot (String.ofList name)
  | _ => .texture (Identifier.parse s)

/-- A part of a texture, between two corners, in sixteenths of its size. -/
structure UvRect (α : Type) where
  /-- Horizontal coordinate of the first corner. -/
  u1 : α
  /-- Vertical coordinate of the first corner, counted downwards. -/
  v1 : α
  /-- Horizontal coordinate of the second corner. -/
  u2 : α
  /-- Vertical coordinate of the second corner. -/
  v2 : α
deriving BEq, DecidableEq

/-- A face of a box. -/
structure Face (α : Type) where
  /-- The part of the texture that the face shows. -/
  uv : UvRect α
  /-- The texture of the face. -/
  texture : TextureRef
  /-- The side whose neighbour hides the face. -/
  cull : CullSide
  /-- Quarter turns of the texture on the face. -/
  rotation : Nat
  /-- Which tint colours the face; a negative number for none. -/
  tint : Int
deriving BEq, DecidableEq

/-- A box with textured faces. -/
structure Element (α : Type) where
  /-- The corner with the smallest coordinates, in sixteenths of a block. -/
  low : Vec3 α
  /-- The corner with the largest coordinates. -/
  high : Vec3 α
  /-- The turns of the box about its pivot. -/
  rotation : Option (ElementRotation α)
  /-- Whether directional shading applies. -/
  shade : Bool
  /-- The textured faces, in the order of `Direction.all`. -/
  faces : List (Direction × Face α)
deriving BEq, DecidableEq

section DefaultUv

variable {α : Type} [Scalar α]

/-- The part of its texture that a face shows when none is written: the outline of the box as seen
from outside. -/
def defaultUv (d : Direction) (low high : Vec3 α) : UvRect α :=
  let flip (a : α) : α := (16 : Nat) - a
  match d with
  | .down => ⟨low.x, flip high.z, high.x, flip low.z⟩
  | .up => ⟨low.x, low.z, high.x, high.z⟩
  | .north => ⟨flip high.x, flip high.y, flip low.x, flip low.y⟩
  | .south => ⟨low.x, flip high.y, high.x, flip low.y⟩
  | .west => ⟨low.z, flip high.y, high.z, flip low.y⟩
  | .east => ⟨flip high.z, flip high.y, flip low.z, flip low.y⟩

end DefaultUv

/-! ### Display as an item -/

/-- Where an item is displayed. -/
inductive DisplayPosition
  | thirdPersonRightHand
  | thirdPersonLeftHand
  | firstPersonRightHand
  | firstPersonLeftHand
  | gui
  | head
  | ground
  | fixed
  | onShelf
deriving DecidableEq

namespace DisplayPosition

/-- All positions in their order. -/
def all : List DisplayPosition :=
  [.thirdPersonRightHand, .thirdPersonLeftHand, .firstPersonRightHand, .firstPersonLeftHand, .gui,
    .head, .ground, .fixed, .onShelf]

/-- The written name of a position. -/
def name : DisplayPosition → String
  | thirdPersonRightHand => "thirdperson_righthand"
  | thirdPersonLeftHand => "thirdperson_lefthand"
  | firstPersonRightHand => "firstperson_righthand"
  | firstPersonLeftHand => "firstperson_lefthand"
  | gui => "gui"
  | head => "head"
  | ground => "ground"
  | fixed => "fixed"
  | onShelf => "on_shelf"

/-- The position of a name. -/
def ofName? (s : String) : Option DisplayPosition := all.find? (·.name = s)

end DisplayPosition

/-- How an item is displayed. -/
structure DisplayTransform (α : Type) where
  /-- Angles in degrees. -/
  rotation : Vec3 α
  /-- Distance by which the item is moved. -/
  shift : Vec3 α
  /-- Factors on the size of the item. -/
  scale : Vec3 α
deriving BEq, DecidableEq

/-! ### Models -/

/-- A model with everything that it inherits. -/
structure Model (α : Type) where
  /-- The texture slots. -/
  textures : Table String TextureRef
  /-- The boxes in order. -/
  elements : List (Element α)
  /-- The display transforms. -/
  display : Table DisplayPosition (DisplayTransform α)

namespace Model

variable {α : Type}

/-- The model without slots, boxes and transforms. -/
def empty : Model α := ⟨∅, [], ∅⟩

instance : Inhabited (Model α) := ⟨empty⟩

/-- Whether there is nothing to draw. -/
def isEmpty (m : Model α) : Bool := m.elements.isEmpty

/-- How many slots may point at each other before a texture is reached. -/
def maxSlotHops : Nat := 50

/-- What a slot says: another slot, a texture, or nothing. -/
def slotStep (textures : Table String TextureRef) (name : String) : Chain.Step String Identifier :=
  match textures.get? name with
  | some (.slot next) => .next next
  | some (.texture id) => .done id
  | none => .missing

/-- The texture at the end of the chain that starts at a slot; the missing texture if there is no
such slot, or no end within the bound. -/
def resolveSlot (m : Model α) (name : String) : Identifier :=
  match (Chain.follow (slotStep m.textures) maxSlotHops name).outcome with
  | .ok id => id
  | .error _ => Identifier.missing

/-- The texture that a reference stands for. -/
def resolve (m : Model α) : TextureRef → Identifier
  | .texture id => id
  | .slot name => m.resolveSlot name

/-- Identifiers in order, each once. -/
def sortedIds (ids : List Identifier) : List Identifier :=
  ids.eraseDups.mergeSort Identifier.atMost

/-- Every texture that a slot or a face stands for, in order; the missing texture is left out. -/
def textureIds (m : Model α) : List Identifier :=
  sortedIds
    ((m.textures.keys.map m.resolveSlot
        ++ m.elements.flatMap fun e => e.faces.map fun f => m.resolve f.2.texture).filter
      (· ≠ Identifier.missing))

/-! ### Layers -/

/-- The slot of a layer. -/
def layerSlot (n : Nat) : String := "layer" ++ toString n

theorem layerSlot_injective {m n : Nat} (h : layerSlot m = layerSlot n) : m = n := by
  have hdigits : Nat.toDigits 10 m = Nat.toDigits 10 n := by
    simpa [layerSlot] using congrArg String.toList h
  calc m = Nat.ofDigitChars 10 (Nat.toDigits 10 m) 0 :=
        (Nat.ofDigitChars_toDigits (by decide) (by decide)).symm
    _ = Nat.ofDigitChars 10 (Nat.toDigits 10 n) 0 := by rw [hdigits]
    _ = n := Nat.ofDigitChars_toDigits (by decide) (by decide)

/-- How many slots `layerN` follow each other from `n` on, looking at no more than `fuel`. -/
def layersFrom (textures : Table String TextureRef) : Nat → Nat → Nat
  | 0, _ => 0
  | fuel + 1, n =>
      if textures.contains (layerSlot n) then layersFrom textures fuel (n + 1) + 1 else 0

/-- How many of the slots `layer0`, `layer1`, … there are before the first gap. -/
def layerCount (m : Model α) : Nat := layersFrom m.textures m.textures.size 0

end Model

end VoxelBake
