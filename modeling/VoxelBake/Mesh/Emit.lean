/-
Drawing compiled geometry.

A block is drawn by writing the corners of its visible faces into a vertex buffer, first those
that are never hidden and then one side after another.  Each corner is moved to its place in the
world, coloured by its tint, darkened by its surroundings and given its light.

* `EmitContext` — where, in what light and between which neighbours a block is drawn;
* `shadeCorner` — the vertex of a corner;
* `bucketVertices`, `blockVertices` — the vertices of one side, and of a whole block;
* `emit` — a block written into a buffer;
* `emitCollider`, `emitWithCollider` — only the places, and both at once.
-/
import VoxelBake.Mesh.Buffer
import VoxelBake.Mesh.Geometry
import VoxelBake.Mesh.Light

set_option relaxedAutoImplicit false
set_option autoImplicit false

namespace VoxelBake

/-- Where, in what light and between which neighbours a block is drawn. -/
structure EmitContext (α : Type) where
  /-- The place of the block. -/
  offset : Vec3 α
  /-- The sides that can be seen. -/
  sides : SideFlags
  /-- The occupied cells around the block. -/
  mask : NeighbourMask
  /-- How much an occupied cell darkens a corner. -/
  intensity : α
  /-- The light. -/
  lights : LightSamples α
  /-- The colour of tinted faces. -/
  tint : Vec3 α
  /-- What the vertices carry beside their colour. -/
  format : ExtraFormat

section Emission

variable {α : Type} [Scalar α]

/-- White. -/
def white : Vec3 α := Vec3.uniform (1 : Nat)

/-- A block at the origin in full light, every side seen, without neighbours and tint. -/
def EmitContext.plain : EmitContext α where
  offset := Vec3.zero
  sides := SideFlags.everySide
  mask := 0
  intensity := (0 : Nat)
  lights := LightSamples.uniform (15 : Nat)
  tint := white
  format := .light

/-! ### Vertices -/

/-- How much light a corner keeps between its neighbours: all of it if they do not darken. -/
def keptLight (ctx : EmitContext α) (facing : CullSide) (corners : Quad α) (p : Vec3 α)
    (light : α) : α :=
  if (0 : Nat) < ctx.intensity then occlusionAt facing corners p light else (1 : Nat)

/-- What a vertex carries beside its colour. -/
def extraOf (ctx : EmitContext α) (p : Vec3 α) (light : α) : α :=
  match ctx.format with
  | .light => light
  | .openSides => packExtra light (openSides p ctx.mask)
  | .everySide => packExtra light everySideBits

/-- The colour of a corner before light: that of the tint if it has one, white otherwise. -/
def tintColour (ctx : EmitContext α) (tint : Int) : Vec3 α := if 0 ≤ tint then ctx.tint else white

variable [Gamma α]

/-- The vertex of a corner of a face that looks to `facing` and is lit from `lightSide`, the
corners of that face keeping the given light. -/
def shadeCorner (ctx : EmitContext α) (facing lightSide : CullSide) (kept : Quad α)
    (c : Corner α) : Vertex α :=
  let light := ctx.lights.at lightSide c.position
  let factor := keptLight ctx facing kept c.position light
  { position := c.position + ctx.offset
    uv := c.uv
    playback := c.playback
    colour := (tintColour ctx c.tint).map fun a => Gamma.decode a * factor
    extra := extraOf ctx c.position light }

/-- The vertices of the faces that are never hidden: four corners for each remembered side. -/
def unculledVertices (g : Geometry α) (ctx : EmitContext α) : Array (Vertex α) :=
  g.facings.zipIdx.flatMap fun f =>
    let kept := innerCorners f.1 ctx.mask ctx.intensity
    ((g.bucket none).extract (4 * f.2) (4 * f.2 + 4)).map (shadeCorner ctx f.1 none kept)

/-- The vertices of the faces of one bucket. -/
def bucketVertices (g : Geometry α) (ctx : EmitContext α) : CullSide → Array (Vertex α)
  | none => unculledVertices g ctx
  | some d =>
      let kept := outerCorners (some d) ctx.mask ctx.intensity
      (g.bucket (some d)).map (shadeCorner ctx (some d) (some d) kept)

/-- The vertices of a block. -/
def blockVertices (g : Geometry α) (ctx : EmitContext α) : Array (Vertex α) :=
  ctx.sides.drawn.toArray.flatMap (bucketVertices g ctx)

/-- Draws a block: the buffer afterwards, and the number past the last vertex written. -/
def emit (g : Geometry α) (ctx : EmitContext α) (buffer : VertexBuffer α) (start : Nat) :
    VertexBuffer α × Nat :=
  let vs := blockVertices g ctx
  (buffer.write start vs, start + vs.size)

/-! ### Colliders -/

/-- The places of the corners of a block, at an offset. -/
def blockPositions (g : Geometry α) (offset : Vec3 α) (flags : SideFlags) : Array (Vec3 α) :=
  flags.drawn.toArray.flatMap fun c => (g.bucket c).map fun k => k.position + offset

/-- Writes only the places of the corners of a block: the collider afterwards, and the number past
the last place written. -/
def emitCollider (g : Geometry α) (offset : Vec3 α) (flags : SideFlags)
    (collider : Array (Vec3 α)) (start : Nat) : Array (Vec3 α) × Nat :=
  let ps := blockPositions g offset flags
  (writeAt Vec3.zero collider start ps, start + ps.size)

/-- Draws a block and copies the places of the vertices written into a collider. -/
def emitWithCollider (g : Geometry α) (ctx : EmitContext α) (buffer : VertexBuffer α)
    (start : Nat) (collider : Array (Vec3 α)) (colliderStart : Nat) :
    (VertexBuffer α × Nat) × (Array (Vec3 α) × Nat) :=
  let (buffer, stop) := emit g ctx buffer start
  let ps := (buffer.extract start stop).map Vertex.position
  ((buffer, stop), (writeAt Vec3.zero collider colliderStart ps, colliderStart + ps.size))

end Emission

end VoxelBake
