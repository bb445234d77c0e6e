/-
Ambient occlusion.

A corner of a face is the darker the more blocks crowd around it.  Which of the 27 cells of the
neighbourhood are occupied is given by a mask; each corner of a face looks at three cells, two
beside it and one across, and the values in between are interpolated.  Light thins the shadow out.

* `cellIndex` — the bit of a cell of the neighbourhood;
* `Ring`, `outerRing`, `innerRing` — the cells around a face, outside the block or inside it;
* `Ring.corners` — how much light the corners of a face keep;
* `facePlane` — the coordinates of a point within the plane of a face;
* `occlusionAt` — how much light a point of a face keeps.
-/
import VoxelBake.Atlas.Basic

set_option relaxedAutoImplicit false
set_option autoImplicit false

namespace VoxelBake

/-! ### The neighbourhood -/

/-- Which cells of the neighbourhood are occupied, one bit a cell. -/
abbrev NeighbourMask := BitVec 32

/-- The bit of a cell, given by its distance east, up and south, each from -1 to 1. -/
def cellIndex (dx dy dz : Int) : Nat :=
  (((dy + 1) * 9 + (dz + 1) * 3 + (dx + 1)) % 0x100000000).toNat

/-- The eight cells around the middle of a face, as seen from outside. -/
structure Ring where
  /-- Cell beyond the top left corner. -/
  topLeft : Nat
  /-- Cell beyond the top edge. -/
  top : Nat
  /-- Cell beyond the top right corner. -/
  topRight : Nat
  /-- Cell beyond the left edge. -/
  left : Nat
  /-- Cell beyond the right edge. -/
  right : Nat
  /-- Cell beyond the bottom left corner. -/
  bottomLeft : Nat
  /-- Cell beyond the bottom edge. -/
  bottom : Nat
  /-- Cell beyond the bottom right corner. -/
  bottomRight : Nat

/-- The cells around a face on the boundary of the block: they lie in the layer in front of it. -/
def outerRing : Direction → Ring
  | .down => ⟨6, 7, 8, 3, 5, 0, 1, 2⟩
  | .up => ⟨20, 23, 26, 19, 25, 18, 21, 24⟩
  | .south => ⟨24, 25, 26, 15, 17, 6, 7, 8⟩
  | .north => ⟨2, 11, 20, 1, 19, 0, 9, 18⟩
  | .east => ⟨8, 17, 26, 5, 23, 2, 11, 20⟩
  | .west => ⟨18, 21, 24, 9, 15, 0, 3, 6⟩

/-- The cells around a face inside the block: they lie in the layer of the block itself. -/
def innerRing : Direction → Ring
  | .up => ⟨11, 14, 17, 10, 16, 9, 12, 15⟩
  | .down => ⟨15, 16, 17, 12, 14, 9, 10, 11⟩
  | .north => ⟨5, 14, 23, 4, 22, 3, 12, 21⟩
  | .south => ⟨21, 22, 23, 12, 14, 3, 4, 5⟩
  | .west => ⟨19, 22, 25, 10, 16, 1, 4, 7⟩
  | .east => ⟨7, 16, 25, 4, 22, 1, 10, 19⟩

section Corners

variable {α : Type} [Scalar α]

/-- What one cell takes away: the intensity if it is occupied, nothing otherwise. -/
def shade (mask : NeighbourMask) (intensity : α) (cell : Nat) : α :=
  if mask.getLsbD cell then intensity else (0 : Nat)

/-- How much light a corner keeps between the two cells beside it and the one across. -/
def cornerLight (mask : NeighbourMask) (intensity : α) (side across side' : Nat) : α :=
  Scalar.greatest
    ((1 : Nat) - shade mask intensity side - shade mask intensity across
      - shade mask intensity side') (0 : Nat)

/-- How much light the corners of a face keep among the cells of a ring. -/
def Ring.corners (r : Ring) (mask : NeighbourMask) (intensity : α) : Quad α where
  topLeft := cornerLight mask intensity r.left r.topLeft r.top
  topRight := cornerLight mask intensity r.top r.topRight r.right
  bottomLeft := cornerLight mask intensity r.bottom r.bottomLeft r.left
  bottomRight := cornerLight mask intensity r.right r.bottomRight r.bottom

/-- The corners of a face that nothing shades. -/
def unshaded : Quad α := ⟨(1 : Nat), (1 : Nat), (1 : Nat), (1 : Nat)⟩

/-- How much light the corners of a face on the boundary of the block keep. -/
def outerCorners (facing : CullSide) (mask : NeighbourMask) (intensity : α) : Quad α :=
  match facing with
  | some d => (outerRing d).corners mask intensity
  | none => unshaded

/-- How much light the corners of a face inside the block keep. -/
def innerCorners (facing : CullSide) (mask : NeighbourMask) (intensity : α) : Quad α :=
  match facing with
  | some d => (innerRing d).corners mask intensity
  | none => unshaded

/-! ### Points between the corners -/

/-- The coordinates of a point within the plane of a face: how far it is towards the right-hand
corners, and how far towards the upper ones. -/
def facePlane (facing : CullSide) (p : Vec3 α) : α × α :=
  match facing with
  | some .down => (p.x, p.z)
  | some .up => (p.z, p.x)
  | some .south => (p.x, p.y)
  | some .north => (p.y, p.x)
  | some .east => (p.y, p.z)
  | some .west => (p.z, p.y)
  | none => ((0 : Nat), (0 : Nat))

/-- How much light a point of a face keeps: interpolated between the corners, then lifted towards
one by the light that falls on it, which is given on a scale up to fifteen. -/
def occlusionAt (facing : CullSide) (corners : Quad α) (p : Vec3 α) (light : α) : α :=
  let (h, v) := facePlane facing p
  let kept := Scalar.lerp (Scalar.lerp corners.bottomLeft corners.topLeft v)
    (Scalar.lerp corners.bottomRight corners.topRight v) h
  Scalar.lerp kept (1 : Nat) (light / (15 : Nat))

end Corners

end VoxelBake
