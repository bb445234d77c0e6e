/-
Light, and what else a vertex says beside its colour.

Light is given on a scale from zero to fifteen, either at the eight corners of a block or for its
six neighbours and itself.  A vertex carries its light in one number, on its own or together with
the directions in which the block is open at that vertex.

* `LightSamples`, `LightSamples.at` — the light of a block, and that of a point on a face;
* `openSides` — the directions in which a point is at the open boundary of its block;
* `ExtraFormat` — what a vertex carries beside its colour;
* `packExtra`, `unpackExtra` — light and directions in one number.
-/
import VoxelBake.Mesh.Occlusion

set_option relaxedAutoImplicit false
set_option autoImplicit false

namespace VoxelBake

/-- The light of the six neighbours of a block, and its own. -/
structure NeighbourLight (α : Type) where
  /-- Light above. -/
  up : α
  /-- Light below. -/
  down : α
  /-- Light to the north. -/
  north : α
  /-- Light to the south. -/
  south : α
  /-- Light to the east. -/
  east : α
  /-- Light to the west. -/
  west : α
  /-- Light of the block itself. -/
  own : α

/-- The light of a block. -/
inductive LightSamples (α : Type)
  /-- Light at the eight corners; number `x + 2 * z + 4 * y` lies at those coordinates. -/
  | corners (samples : Vector α 8)
  /-- Light of the neighbours and of the block itself. -/
  | neighbours (samples : NeighbourLight α)

/-- What a vertex carries beside its colour. -/
inductive ExtraFormat
  /-- Its light. -/
  | light
  /-- Its light and the directions in which its block is open there. -/
  | openSides
  /-- Its light and every direction. -/
  | everySide
deriving DecidableEq

section Light

variable {α : Type} [Scalar α]

/-- The same light everywhere. -/
def LightSamples.uniform (light : α) : LightSamples α := .corners (Vector.replicate 8 light)

/-- Light at a point, interpolated between the corners of its block: first upwards, then east,
then south. -/
def cornerLightAt (samples : Vector α 8) (p : Vec3 α) : α :=
  let upward (low : Fin 4) : α := Scalar.lerp samples[low.val] samples[low.val + 4] p.y
  Scalar.lerp (Scalar.lerp (upward 0) (upward 1) p.x) (Scalar.lerp (upward 2) (upward 3) p.x) p.z

/-- Light on a face: that of the neighbour it looks at or that of the block, whichever is
brighter. -/
def faceLight (n : NeighbourLight α) (facing : CullSide) : α :=
  Scalar.greatest
    (match facing with
      | some .up => n.up
      | some .down => n.down
      | some .north => n.north
      | some .south => n.south
      | some .east => n.east
      | some .west => n.west
      | none => n.own)
    n.own

/-- The light of a point on a face that looks to a side. -/
def LightSamples.at (s : LightSamples α) (facing : CullSide) (p : Vec3 α) : α :=
  match s with
  | .corners c => cornerLightAt c p
  | .neighbours n => faceLight n facing

/-! ### Open directions -/

/-- The value of a bit if the cell in a direction is empty. -/
def openBit (mask : NeighbourMask) (dx dy dz : Int) (value : Nat) : Nat :=
  if mask.getLsbD (cellIndex dx dy dz) then 0 else value

/-- The bit for one axis: `high` if the coordinate is well above the middle and the cell there is
empty, `low` if it is well below the middle and the cell there is empty. -/
def openAlong (a : α) (high low : Nat) : Nat :=
  if (6 : Nat) / (10 : Nat) < a ∧ high ≠ 0 then high
  else if a < (4 : Nat) / (10 : Nat) then low else 0

/-- The directions in which a point lies near the boundary of its block with nothing behind it.
The bits stand for south, north, up, down, east and west, lowest first. -/
def openSides (p : Vec3 α) (mask : NeighbourMask) : Nat :=
  openAlong p.z (openBit mask 0 0 1 1) (openBit mask 0 0 (-1) 2)
    + openAlong p.y (openBit mask 0 1 0 4) (openBit mask 0 (-1) 0 8)
    + openAlong p.x (openBit mask 1 0 0 16) (openBit mask (-1) 0 0 32)

/-- All six directions. -/
def everySideBits : Nat := 63

/-! ### Packing -/

/-- Light as a byte: fifteen is 255. -/
def lightByte (light : α) : Nat := Scalar.nearestUpTo 255 (light * (17 : Nat))

/-- Light and directions in one number: the byte of the light, the directions above it.  At most
24 bits of directions are kept. -/
def packExtra (light : α) (sides : Nat) : α :=
  ((sides % 0x1000000 * 256 + lightByte light : Nat) : α)

/-- The byte of the light and the directions in a number. -/
def unpackExtra (packed : α) : Nat × Nat :=
  (Scalar.truncate packed % 256, Scalar.truncate packed / 256)

end Light

end VoxelBake
