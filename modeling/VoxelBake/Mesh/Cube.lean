/-
Full cubes with one texture.

Many blocks are plain cubes with the same texture on every side.  They are drawn without a model:
the visible sides of the unit cube, in one given colour.

* `cubeVertexCount` — how many vertices the visible sides have;
* `cubeVertices`, `emitCube` — the vertices, and the cube written into a buffer.
-/
import VoxelBake.Mesh.Buffer
import VoxelBake.Mesh.Compile

set_option relaxedAutoImplicit false
set_option autoImplicit false

namespace VoxelBake

/-- How many vertices the visible sides of a cube have: four for each of the six sides whose bit is
set. -/
def cubeVertexCount (flags : SideFlags) : Nat :=
  4 * ((List.range 6).countP fun i => flags.getLsbD i)

section Cube

variable {α : Type} [Scalar α]

/-- The vertices of one side of a cube. -/
def cubeSide (uvs : Quad (Vec3 α)) (playback : Playback α) (offset colour : Vec3 α)
    (d : Direction) : Array (Vertex α) :=
  let corners : Vector (Vec3 α) 8 :=
    boxCorners (Vec3.uniform (0 : Nat)) (Vec3.uniform (16 : Nat))
  let vertex (i : Fin 8) (uv : Vec3 α) : Vertex α :=
    ⟨corners.get i + offset, uv, playback, colour, (0 : Nat)⟩
  (Quad.zipWith vertex (winding d) uvs).toList.toArray

/-- The vertices of the visible sides of a cube with one texture. -/
def cubeVertices (atlas : Atlas α) (texture : Identifier) (offset : Vec3 α) (flags : SideFlags)
    (colour : Vec3 α) : Array (Vertex α) :=
  let sampled := atlas.uvs texture ⟨(0 : Nat), (0 : Nat), (16 : Nat), (16 : Nat)⟩ 0
  flags.drawn.toArray.flatMap fun c =>
    match c with
    | none => #[]
    | some d => cubeSide sampled.1 sampled.2 offset colour d

/-- Draws a cube: the buffer afterwards, and the number past the last vertex written. -/
def emitCube (atlas : Atlas α) (texture : Identifier) (offset : Vec3 α) (flags : SideFlags)
    (colour : Vec3 α) (buffer : VertexBuffer α) (start : Nat) : VertexBuffer α × Nat :=
  let vs := cubeVertices atlas texture offset flags colour
  (buffer.write start vs, start + vs.size)

end Cube

end VoxelBake
