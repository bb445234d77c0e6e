/-
From models to geometry.

Each element is turned about its own pivot and then with the whole model; its faces take their
corners from the box, their texture coordinates from the atlas, and end up under the side that
hides them after the turn.  Faces keep the order of the elements and of the directions.

* `boxCorners` — the eight corners of a box;
* `winding` — the four corners of each of its faces, as seen from outside;
* `Element.corners` — the corners of an element after all turns;
* `Model.faceQuad`, `Model.faceQuads` — one face, and all faces, after the turn;
* `compile` — the geometry of a model at one orientation.
-/
import VoxelBake.Mesh.Geometry
import VoxelBake.Orientation

set_option relaxedAutoImplicit false
set_option autoImplicit false

namespace VoxelBake

variable {α : Type} [Scalar α]

/-! ### Corners -/

/-- The corners of a box in blocks.  Number `4 * x + 2 * y + z` takes each coordinate from the
high corner where the bit is one and from the low corner where it is zero. -/
def boxCorners (low high : Vec3 α) : Vector (Vec3 α) 8 :=
  Vector.ofFn fun i =>
    { x := inBlocks (if i.val.testBit 2 then high.x else low.x)
      y := inBlocks (if i.val.testBit 1 then high.y else low.y)
      z := inBlocks (if i.val.testBit 0 then high.z else low.z) }

/-- The corners of a face of a box, as seen from outside. -/
def winding : Direction → Quad (Fin 8)
  | .up => ⟨2, 6, 3, 7⟩
  | .down => ⟨1, 5, 0, 4⟩
  | .south => ⟨3, 7, 1, 5⟩
  | .north => ⟨6, 2, 4, 0⟩
  | .east => ⟨7, 6, 5, 4⟩
  | .west => ⟨2, 3, 0, 1⟩

variable [Trig α]

/-- A point after the turns of an element and those of its model. -/
def Element.place (e : Element α) (o : Orientation) (p : Vec3 α) : Vec3 α :=
  o.rotatePoint (match e.rotation with
    | some r => r.apply p
    | none => p)

/-- The corners of an element after all turns. -/
def Element.corners (e : Element α) (o : Orientation) : Vector (Vec3 α) 8 :=
  (boxCorners e.low e.high).map (e.place o)

/-! ### Faces -/

/-- One face of an element whose corners are given, at one orientation. -/
def Model.faceQuad (m : Model α) (o : Orientation) (atlas : Atlas α)
    (corners : Vector (Vec3 α) 8) (f : Direction × Face α) : FaceQuad α :=
  let sampled := atlas.uvs (m.resolve f.2.texture) f.2.uv (o.lockTurns f.1)
  { cull := o.remap f.2.cull
    facing := o.remap (some f.1)
    positions := (winding f.1).map corners.get
    uvs := sampled.1.turned f.2.rotation
    playback := sampled.2
    tint := f.2.tint }

/-- All faces of a model at one orientation, element by element. -/
def Model.faceQuads (m : Model α) (o : Orientation) (atlas : Atlas α) : List (FaceQuad α) :=
  m.elements.flatMap fun e => e.faces.map (m.faceQuad o atlas (e.corners o))

/-- The geometry of a model at one orientation. -/
def compile (m : Model α) (o : Orientation) (atlas : Atlas α) : Geometry α :=
  Geometry.ofFaces (m.faceQuads o atlas)

end VoxelBake
