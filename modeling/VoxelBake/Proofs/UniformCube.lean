/-
**The short way to draw a cube is the long way.**

A full cube with one texture is drawn without a model: the visible sides of the unit cube are
written one after another.  The same cube can be written as a model with one box, compiled and drawn
like any other block.  Both ways fill the same places of a buffer with the same vertices, apart from
their colour and what they carry beside it: the sides come in the same order, so do the corners of a
side, and the texture coordinates are those of the whole texture.  Nothing is assumed of the
arithmetic.

Main definitions:

* `Model.IsUniformCube` — a model of one unturned box over the whole block, whose six faces show one
  whole texture;
* `Vertex.placed` — where a vertex stands and what it shows;
* `emitCubeStepwise` — a cube drawn vertex by vertex.

Main results:

* `emitCubeStepwise_eq` — drawing a cube vertex by vertex is one write of all vertices;
* `placed_bucketVertices` — one side of the compiled cube is one side of the short way;
* `emitCube_placed` — **both ways write the same**.
-/
import VoxelBake.Mesh.Cube
import VoxelBake.Proofs.Emission
import VoxelBake.Proofs.TurnedGeometry

set_option relaxedAutoImplicit false
set_option autoImplicit false

namespace VoxelBake

/-! ### Cubes as models -/

section Cubes

variable {α : Type} [Scalar α]

/-- A face that shows a whole texture, untouched, and is hidden by the neighbour on its own side. -/
def wholeFace (d : Direction) (texture : TextureRef) (tint : Int) : Face α :=
  ⟨⟨(0 : Nat), (0 : Nat), (16 : Nat), (16 : Nat)⟩, texture, some d, 0, tint⟩

/-- A box over the whole block with such a face on each side. -/
def wholeBlock (shade : Bool) (texture : Direction → TextureRef) (tint : Direction → Int) :
    Element α :=
  { low := Vec3.uniform (0 : Nat)
    high := Vec3.uniform (16 : Nat)
    rotation := none
    shade := shade
    faces := Direction.all.map fun d => (d, wholeFace d (texture d) (tint d)) }

/-- A model of one box over the whole block, whose six faces stand for the same texture. -/
def Model.IsUniformCube (m : Model α) (texture : Identifier) : Prop :=
  ∃ shade refs tints, m.elements = [wholeBlock shade refs tints] ∧
    ∀ d, m.resolve (refs d) = texture

end Cubes

/-- Where a vertex stands and what it shows: its place, its texture coordinates, and how its texture
is played. -/
def Vertex.placed {α : Type} (v : Vertex α) : Vec3 α × Vec3 α × Playback α :=
  (v.position, v.uv, v.playback)

/-! ### One side -/

section Sides

variable {α : Type} [Scalar α] [Trig α] (m : Model α) (atlas : Atlas α) (shade : Bool)
  (refs : Direction → TextureRef) (tints : Direction → Int)

/-- One side of the cube, compiled. -/
def cubeQuad (d : Direction) : FaceQuad α :=
  m.faceQuad .identity atlas ((wholeBlock shade refs tints).corners .identity)
    (d, wholeFace d (refs d) (tints d))

/-- Every side of the cube is hidden by its own neighbour. -/
theorem cull_cubeQuad (d : Direction) : (cubeQuad m atlas shade refs tints d).cull = some d := rfl

theorem Model.faceQuads_wholeBlock (h : m.elements = [wholeBlock shade refs tints]) :
    m.faceQuads .identity atlas = Direction.all.map (cubeQuad m atlas shade refs tints) := by
  rw [Model.faceQuads, h, List.flatMap_singleton, wholeBlock, List.map_map]
  rfl

theorem filter_cubeQuads (d : Direction) :
    (Direction.all.map (cubeQuad m atlas shade refs tints)).filter (·.cull = some d)
      = [cubeQuad m atlas shade refs tints d] := by
  rw [List.filter_map]
  simp only [Function.comp_def, cull_cubeQuad, Option.some.injEq]
  cases d <;> rfl

/-- No side of the cube is drawn whatever its neighbours are. -/
theorem filter_cubeQuads_none :
    (Direction.all.map (cubeQuad m atlas shade refs tints)).filter (·.cull = none) = [] := by
  rw [List.filter_map]
  simp [Function.comp_def, cull_cubeQuad]

theorem get_corners_wholeBlock (i : Fin 8) :
    ((wholeBlock shade refs tints : Element α).corners .identity).get i
      = (boxCorners (Vec3.uniform ((0 : Nat) : α)) (Vec3.uniform ((16 : Nat) : α))).get i := by
  rw [Element.get_corners_of_unturned rfl, Orientation.rotatePoint_identity]
  rfl

variable [Gamma α]

omit [Trig α] in
theorem placed_shade (ctx : EmitContext α) (f : FaceQuad α) (c : Corner α) :
    (f.shade ctx c).placed = (c.position + ctx.offset, c.uv, c.playback) := by
  rw [FaceQuad.shade]
  cases f.cull <;> rfl

/-- **One side of the compiled cube is one side of the short way**, apart from light and colour. -/
theorem placed_bucketVertices (h : m.elements = [wholeBlock shade refs tints])
    {texture : Identifier} (hrefs : ∀ d, m.resolve (refs d) = texture) (ctx : EmitContext α)
    (colour : Vec3 α) (d : Direction) :
    let sampled := atlas.uvs texture ⟨(0 : Nat), (0 : Nat), (16 : Nat), (16 : Nat)⟩ 0
    (bucketVertices (compile m .identity atlas) ctx (some d)).map Vertex.placed
      = (cubeSide sampled.1 sampled.2 ctx.offset colour d).map Vertex.placed := by
  intro sampled
  -- the faces of this side are one face, whose corners are those of the unit cube
  have hcorners : (cubeQuad m atlas shade refs tints d).corners
      = (Quad.zipWith (fun i uv => (⟨(boxCorners (Vec3.uniform ((0 : Nat) : α))
          (Vec3.uniform ((16 : Nat) : α))).get i, uv, sampled.2, tints d⟩ : Corner α))
        (winding d) sampled.1).toList := by
    simp only [cubeQuad, Model.faceQuad, wholeFace, hrefs, FaceQuad.corners, Quad.map,
      get_corners_wholeBlock]
    rfl
  have hside : (bucketVertices (compile m .identity atlas) ctx (some d)).toList
      = (cubeQuad m atlas shade refs tints d).corners.map
        ((cubeQuad m atlas shade refs tints d).shade ctx) := by
    rw [compile, toList_bucketVertices, m.faceQuads_wholeBlock atlas shade refs tints h,
      filter_cubeQuads, List.flatMap_singleton]
  apply Array.toList_inj.1
  rw [Array.toList_map, Array.toList_map, hside, hcorners, List.map_map]
  simp only [Function.comp_def, placed_shade]
  rfl

end Sides

/-! ### The short way, vertex by vertex -/

section Stepwise

variable {α : Type} [Scalar α]

/-- A side of the cube, if it is drawn. -/
def Filling.putCubeSide (sampled : Quad (Vec3 α) × Playback α) (offset : Vec3 α)
    (flags : SideFlags) (colour : Vec3 α) (s : Filling α) (d : Direction) : Filling α :=
  if flags.getLsbD d.bit then
    (cubeSide sampled.1 sampled.2 offset colour d).toList.foldl Filling.put s
  else s

/-- A cube drawn vertex by vertex into a buffer that was made long enough. -/
def emitCubeStepwise (atlas : Atlas α) (texture : Identifier) (offset : Vec3 α)
    (flags : SideFlags) (colour : Vec3 α) (buffer : VertexBuffer α) (start : Nat) :
    VertexBuffer α × Nat :=
  let sampled := atlas.uvs texture ⟨(0 : Nat), (0 : Nat), (16 : Nat), (16 : Nat)⟩ 0
  let drawn := sideOrder.foldl (Filling.putCubeSide sampled offset flags colour)
    ⟨buffer.ensure (start + cubeVertexCount flags), start⟩
  (drawn.buffer, drawn.cursor)

variable (atlas : Atlas α) (texture : Identifier) (offset : Vec3 α) (flags : SideFlags)
  (colour : Vec3 α)

theorem cubeVertices_eq :
    let sampled := atlas.uvs texture ⟨(0 : Nat), (0 : Nat), (16 : Nat), (16 : Nat)⟩ 0
    cubeVertices atlas texture offset flags colour
      = (sideOrder.filter fun d => flags.getLsbD d.bit).toArray.flatMap
        (cubeSide sampled.1 sampled.2 offset colour) := by
  intro sampled
  apply Array.toList_inj.1
  rw [cubeVertices, drawn_eq]
  simp only [Array.toList_flatMap, List.flatMap_cons, List.flatMap_map, List.nil_append]
  rfl

/-- As many vertices are drawn as are counted. -/
theorem size_cubeVertices :
    (cubeVertices atlas texture offset flags colour).size = cubeVertexCount flags := by
  have hside : ∀ uvs playback d, (cubeSide (α := α) uvs playback offset colour d).size = 4 :=
    fun _ _ _ => rfl
  have hfours : ∀ n : Nat, (List.replicate n 4).foldr (· + ·) 0 = 4 * n := by
    intro n
    exact (List.sum_replicate_nat ..).trans (Nat.mul_comm n 4)
  have hbits : List.range 6 = sideOrder.map Direction.bit := rfl
  rw [cubeVertices_eq, size_flatMap_toArray, cubeVertexCount, hbits, List.countP_map,
    List.countP_eq_length_filter]
  simp only [hside, List.map_const', hfours]
  rfl

/-- **Drawing a cube vertex by vertex is one write of all vertices.** -/
theorem emitCubeStepwise_eq (buffer : VertexBuffer α) (start : Nat) :
    emitCubeStepwise atlas texture offset flags colour buffer start
      = emitCube atlas texture offset flags colour buffer start := by
  obtain ⟨sampled, hsampled⟩ : ∃ sampled,
      sampled = atlas.uvs texture ⟨(0 : Nat), (0 : Nat), (16 : Nat), (16 : Nat)⟩ 0 := ⟨_, rfl⟩
  obtain ⟨sized, hsized⟩ : ∃ sized : VertexBuffer α,
      sized = buffer.ensure (start + cubeVertexCount flags) := ⟨_, rfl⟩
  have hstep : ∀ vs d, Filling.putCubeSide sampled offset flags colour (.after sized start vs) d
      = .after sized start
        (vs ++ if flags.getLsbD d.bit then cubeSide sampled.1 sampled.2 offset colour d
          else #[]) := by
    intro vs d
    cases hd : flags.getLsbD d.bit with
    | true =>
        simp only [Filling.putCubeSide, hd, if_true]
        exact (Filling.foldl_put sized start vs id _).trans (by simp)
    | false => simp [Filling.putCubeSide, hd]
  have hblocks : sideOrder.toArray.flatMap (fun d =>
      if flags.getLsbD d.bit then cubeSide sampled.1 sampled.2 offset colour d else #[])
        = cubeVertices atlas texture offset flags colour := by
    rw [flatMap_ite_eq_filter, cubeVertices_eq, hsampled]
  have hdrawn : sideOrder.foldl (Filling.putCubeSide sampled offset flags colour) ⟨sized, start⟩
      = .after buffer start (cubeVertices atlas texture offset flags colour) := by
    rw [hsized, Filling.ready_eq_after _ _ (Nat.le_add_right ..), ← hsized,
      Filling.foldl_after sized start _ hstep, Array.empty_append, hblocks, hsized,
      Filling.after_ensure _ _ _ (Nat.le_of_eq (by rw [size_cubeVertices]))]
  rw [emitCubeStepwise, ← hsampled, ← hsized, hdrawn]
  rfl

end Stepwise

/-! ### Both ways -/

theorem map_padTo {β γ : Type} (f : β → γ) (filler : β) (length : Nat) (a : Array β) :
    (padTo filler length a).map f = padTo (f filler) length (a.map f) := by
  simp [padTo]

theorem map_writeAt {β γ : Type} (f : β → γ) (filler : β) (a : Array β) (start : Nat)
    (new : Array β) :
    (writeAt filler a start new).map f = writeAt (f filler) (a.map f) start (new.map f) := by
  simp only [writeAt, Array.map_append, Array.map_extract, map_padTo, Array.size_map, size_padTo]

section Both

variable {α : Type} [Scalar α] [Trig α] [Gamma α]

/-- The vertices of a cube, apart from light and colour, are those of its model. -/
theorem placed_blockVertices {m : Model α} {texture : Identifier} (h : m.IsUniformCube texture)
    (atlas : Atlas α) (ctx : EmitContext α) (colour : Vec3 α) :
    (blockVertices (compile m .identity atlas) ctx).map Vertex.placed
      = (cubeVertices atlas texture ctx.offset ctx.sides colour).map Vertex.placed := by
  obtain ⟨shade, refs, tints, hone, hrefs⟩ := h
  have hnone : bucketVertices (compile m .identity atlas) ctx none = #[] := by
    apply Array.toList_inj.1
    rw [compile, toList_bucketVertices, m.faceQuads_wholeBlock atlas shade refs tints hone,
      filter_cubeQuads_none]
    rfl
  rw [blockVertices_eq, hnone, Array.empty_append, cubeVertices_eq, Array.map_flatMap,
    Array.map_flatMap]
  congr 1
  funext d
  exact placed_bucketVertices m atlas shade refs tints hone hrefs ctx colour d

/-- **Both ways of drawing a cube write the same.**  For a model that is a full cube with one
texture, the short way and the long way end at the same place, which is the one that was counted
beforehand; the buffer has the same length afterwards, and at every place of it the same position,
texture coordinates and playback, whatever was there before. -/
theorem emitCube_placed {m : Model α} {texture : Identifier} (h : m.IsUniformCube texture)
    (atlas : Atlas α) (offset : Vec3 α) (flags : SideFlags) (colour : Vec3 α)
    (ctx : EmitContext α) (buffer : VertexBuffer α) (start : Nat) :
    let g := compile m .identity atlas
    let short := emitCube atlas texture offset flags colour buffer start
    let long := emit g { ctx with offset := offset, sides := flags } buffer start
    short = emitCubeStepwise atlas texture offset flags colour buffer start ∧
    cubeVertexCount flags = g.vertexCount flags ∧
    short.2 = start + cubeVertexCount flags ∧
    short.2 = long.2 ∧
    short.1.size = long.1.size ∧
    short.1.map Vertex.placed = long.1.map Vertex.placed := by
  intro g short long
  have hplaced := placed_blockVertices h atlas { ctx with offset := offset, sides := flags } colour
  have hsize : (cubeVertices atlas texture offset flags colour).size
      = (blockVertices g { ctx with offset := offset, sides := flags }).size := by
    rw [← Array.size_map (f := Vertex.placed), ← hplaced, Array.size_map]
  have hstop : short.2 = start + cubeVertexCount flags := by
    rw [← size_cubeVertices atlas texture offset flags colour]
    rfl
  have hmap : short.1.map Vertex.placed = long.1.map Vertex.placed := by
    change (writeAt _ _ _ _).map _ = (writeAt _ _ _ _).map _
    rw [map_writeAt, map_writeAt, ← hplaced]
  refine ⟨(emitCubeStepwise_eq ..).symm, ?_, hstop, ?_, ?_, hmap⟩
  · rw [← size_cubeVertices atlas texture offset flags colour, hsize]
    exact size_blockVertices _ _
  · exact congrArg (start + ·) hsize
  · rw [← Array.size_map (f := Vertex.placed), hmap, Array.size_map]

end Both

/-- A cube of bricks, whose faces name their texture through a slot. -/
def brickModel : Model Float32 where
  textures := Table.ofList [("all", .slot "side"), ("side", .texture ⟨"minecraft", "block/bricks"⟩)]
  elements := [wholeBlock true (fun _ => .slot "all") fun _ => -1]
  display := ∅

/-- A second page of which the bricks fill a part, two frames of which are played in turn. -/
def brickAtlas : Atlas Float32 where
  size := 64
  pages := []
  entries := Table.ofList
    [(⟨"minecraft", "block/bricks"⟩,
      { page := 1
        bounds := ⟨(1 : Nat) / (4 : Nat), (1 : Nat) / (2 : Nat), (1 : Nat) / (2 : Nat),
          (1 : Nat) / (4 : Nat)⟩
        animation := some ⟨2, 2, (1 : Nat), false⟩ })]

/-- The upper, the southern and the western side of the bricks, drawn behind a gap. -/
theorem emitCube_placed_bricks :
    brickModel.IsUniformCube ⟨"minecraft", "block/bricks"⟩ ∧
    let offset : Vec3 Float32 := Vec3.uniform (8 : Nat)
    let flags : SideFlags := 0b100101
    let short := emitCube brickAtlas ⟨"minecraft", "block/bricks"⟩ offset flags white
      (VertexBuffer.ofLength 3) 5
    let long := emit (compile brickModel .identity brickAtlas)
      { EmitContext.plain with offset := offset, sides := flags } (VertexBuffer.ofLength 3) 5
    short.2 = 17 ∧ long.2 = 17 ∧ short.1.map Vertex.placed = long.1.map Vertex.placed := by
  have hcube : brickModel.IsUniformCube ⟨"minecraft", "block/bricks"⟩ :=
    ⟨true, _, _, rfl, fun _ => by decide⟩
  refine ⟨hcube, ?_⟩
  intro offset flags short long
  obtain ⟨-, -, hstop, hsame, -, hplaced⟩ := emitCube_placed hcube brickAtlas offset flags white
    EmitContext.plain (VertexBuffer.ofLength 3) 5
  have hcount : 5 + cubeVertexCount flags = 17 := by decide
  rw [hcount] at hstop
  exact ⟨hstop, hsame.symm.trans hstop, hplaced⟩

end VoxelBake
