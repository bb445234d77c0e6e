/-
**Drawing a block writes its own range of a buffer and nothing else.**

A block is drawn vertex by vertex: the buffer is made long enough for the vertices that were
counted beforehand, then the faces that are never hidden are written, and after them the faces of
one side after another, each vertex at the place behind the one before.  That this comes to one
write of all vertices, that their number is the number that was counted, and that the vertices of a
side do not depend on the other sides, is shown here.

Main definitions:

* `Filling`, `Filling.put` — a buffer that is being filled, and one more vertex in it;
* `emitStepwise` — a block drawn vertex by vertex.

Main results:

* `toList_bucketVertices` — the vertices of a side: the corners of its faces in order;
* `emitStepwise_ofFaces` — drawing vertex by vertex is one write of all vertices;
* `emit_range` — **what a block changes in a buffer**.
-/
import Mathlib.Data.List.Basic
import VoxelBake.Mesh.Emit

set_option relaxedAutoImplicit false
set_option autoImplicit false

namespace VoxelBake

/-! ### The corners of a face in its bucket -/

/-- Blocks behind each other have the lengths of all blocks together. -/
theorem size_flatMap_toArray {β γ : Type} (block : β → Array γ) (bs : List β) :
    (bs.toArray.flatMap block).size = (bs.map fun b => (block b).size).foldr (· + ·) 0 := by
  rw [← Array.length_toList, Array.toList_flatMap, List.length_flatMap]
  rfl

theorem length_flatMap_corners {α : Type} (fs : List (FaceQuad α)) :
    (fs.flatMap FaceQuad.corners).length = 4 * fs.length := by
  induction fs with
  | nil => rfl
  | cons f fs ih =>
      rw [List.flatMap_cons, List.length_append, ih, FaceQuad.length_corners, List.length_cons]
      omega

/-- A face has the four corners that come after those of the faces before it. -/
theorem take_drop_corners {α : Type} (before : List (FaceQuad α)) (f : FaceQuad α)
    (after : List (FaceQuad α)) :
    (((before ++ f :: after).flatMap FaceQuad.corners).drop (4 * before.length)).take 4
      = f.corners := by
  rw [List.flatMap_append, List.flatMap_cons, List.drop_left' (length_flatMap_corners before),
    List.take_left' (FaceQuad.length_corners f)]

variable {α : Type} [Scalar α] [Gamma α]

/-! ### The vertices of a side -/

/-- The vertex of a corner of a face. -/
def FaceQuad.shade (ctx : EmitContext α) (f : FaceQuad α) : Corner α → Vertex α :=
  match f.cull with
  | none => shadeCorner ctx f.facing none (innerCorners f.facing ctx.mask ctx.intensity)
  | some d => shadeCorner ctx (some d) (some d) (outerCorners (some d) ctx.mask ctx.intensity)

/-- The faces that are never hidden are read back from their bucket, four corners for each. -/
theorem flatMap_facings (ctx : EmitContext α) (before fs : List (FaceQuad α)) :
    ((fs.map FaceQuad.facing).zipIdx before.length).flatMap (fun f =>
        ((((before ++ fs).flatMap FaceQuad.corners).drop (4 * f.2)).take 4).map
          (shadeCorner ctx f.1 none (innerCorners f.1 ctx.mask ctx.intensity)))
      = fs.flatMap fun f => f.corners.map
          (shadeCorner ctx f.facing none (innerCorners f.facing ctx.mask ctx.intensity)) := by
  induction fs generalizing before with
  | nil => rfl
  | cons f fs ih =>
      have hrest := ih (before ++ [f])
      rw [List.append_assoc, List.singleton_append, List.length_append, List.length_singleton]
        at hrest
      rw [List.map_cons, List.zipIdx_cons, List.flatMap_cons, List.flatMap_cons, hrest,
        take_drop_corners]

/-- **The vertices of a side**: the corners of the faces that it hides, in order. -/
theorem toList_bucketVertices (fs : List (FaceQuad α)) (ctx : EmitContext α) (c : CullSide) :
    (bucketVertices (.ofFaces fs) ctx c).toList
      = (fs.filter (·.cull = c)).flatMap fun f => f.corners.map (f.shade ctx) := by
  cases c with
  | none =>
      have hshade : ∀ f ∈ fs.filter (·.cull = none), f.corners.map (f.shade ctx) = f.corners.map
          (shadeCorner ctx f.facing none (innerCorners f.facing ctx.mask ctx.intensity)) := by
        intro f hf
        have hcull : f.cull = none := by simpa using (List.mem_filter.1 hf).2
        rw [FaceQuad.shade, hcull]
      rw [List.flatMap_congr hshade, ← flatMap_facings ctx [] (fs.filter (·.cull = none))]
      simp only [bucketVertices, unculledVertices, Array.toList_flatMap, Array.toList_zipIdx,
        Array.toList_map, Array.toList_extract, List.extract_eq_take_drop,
        Geometry.facings_ofFaces, Nat.add_sub_cancel_left]
      rw [Geometry.bucket_ofFaces]
      rfl
  | some d =>
      have hshade : ∀ f ∈ fs.filter (·.cull = some d), f.corners.map (f.shade ctx) = f.corners.map
          (shadeCorner ctx (some d) (some d) (outerCorners (some d) ctx.mask ctx.intensity)) := by
        intro f hf
        have hcull : f.cull = some d := by simpa using (List.mem_filter.1 hf).2
        rw [FaceQuad.shade, hcull]
      rw [List.flatMap_congr hshade, ← List.map_flatMap]
      simp only [bucketVertices, Array.toList_map, Geometry.bucket_ofFaces]

/-- What is seen of the vertices of a side, if light and neighbours have no say in it, is seen of
its corners. -/
theorem map_bucketVertices {β : Type} {view : Vertex α → β} {seen : Corner α → β}
    (fs : List (FaceQuad α)) (ctx : EmitContext α)
    (h : ∀ (f : FaceQuad α) (k : Corner α), view (f.shade ctx k) = seen k) (c : CullSide) :
    (bucketVertices (.ofFaces fs) ctx c).map view
      = ((Geometry.ofFaces fs).bucket c).map seen := by
  apply Array.toList_inj.1
  rw [Array.toList_map, toList_bucketVertices, Array.toList_map, Geometry.bucket_ofFaces,
    List.map_flatMap, List.map_flatMap]
  simp only [List.map_map, Function.comp_def, h]

/-- What is seen of the vertices of a block in this way is seen of the corners of its drawn
sides. -/
theorem map_blockVertices {β : Type} {view : Vertex α → β} {seen : Corner α → β}
    (fs : List (FaceQuad α)) (ctx : EmitContext α)
    (h : ∀ (f : FaceQuad α) (k : Corner α), view (f.shade ctx k) = seen k) :
    (blockVertices (.ofFaces fs) ctx).map view
      = ctx.sides.drawn.toArray.flatMap fun c => ((Geometry.ofFaces fs).bucket c).map seen := by
  rw [blockVertices, Array.map_flatMap]
  congr 1
  funext c
  exact map_bucketVertices fs ctx h c

/-- Each vertex of a block is the vertex of one of its corners, lit from the side it belongs to. -/
theorem exists_of_mem_blockVertices {g : Geometry α} {ctx : EmitContext α} {v : Vertex α}
    (h : v ∈ blockVertices g ctx) :
    ∃ facing side kept, ∃ k ∈ g.bucket side, v = shadeCorner ctx facing side kept k := by
  obtain ⟨side, -, hv⟩ := Array.mem_flatMap.1 h
  cases side with
  | none =>
      obtain ⟨f, -, hv⟩ := Array.mem_flatMap.1 hv
      obtain ⟨k, hk, rfl⟩ := Array.mem_map.1 hv
      obtain ⟨i, -, rfl⟩ := Array.mem_extract_iff_getElem.1 hk
      exact ⟨f.1, none, _, _, Array.getElem_mem _, rfl⟩
  | some d =>
      obtain ⟨k, hk, rfl⟩ := Array.mem_map.1 hv
      exact ⟨some d, some d, _, k, hk, rfl⟩

/-- A side has as many vertices as corners. -/
theorem size_bucketVertices (fs : List (FaceQuad α)) (ctx : EmitContext α) (c : CullSide) :
    (bucketVertices (.ofFaces fs) ctx c).size = ((Geometry.ofFaces fs).bucket c).size := by
  rw [← Array.size_map (f := fun _ => ()), map_bucketVertices fs ctx (fun _ _ => rfl),
    Array.size_map]

/-- The vertices of a side do not depend on which sides are drawn. -/
theorem bucketVertices_sides (g : Geometry α) (ctx : EmitContext α) (flags : SideFlags) :
    bucketVertices g { ctx with sides := flags } = bucketVertices g ctx := by
  funext c
  cases c with
  | none => rfl
  | some d => rfl

/-- As many vertices are drawn as are counted. -/
theorem size_blockVertices (fs : List (FaceQuad α)) (ctx : EmitContext α) :
    (blockVertices (.ofFaces fs) ctx).size = (Geometry.ofFaces fs).vertexCount ctx.sides := by
  rw [blockVertices, size_flatMap_toArray]
  simp only [size_bucketVertices]
  rfl

/-! ### The sides that are drawn -/

/-- The sides in the order in which they are drawn. -/
def sideOrder : List Direction := [.up, .down, .south, .north, .east, .west]

omit [Scalar α] [Gamma α] in
theorem drawn_eq (flags : SideFlags) :
    flags.drawn = none :: (sideOrder.filter fun d => flags.getLsbD d.bit).map some := by
  have hall : CullSide.all = none :: sideOrder.map some := rfl
  rw [SideFlags.drawn, hall, List.filter_cons_of_pos rfl, List.filter_map]
  rfl

omit [Scalar α] [Gamma α] in
/-- The two highest bits mean nothing. -/
theorem drawn_and (flags : SideFlags) : (flags &&& 0b111111 : SideFlags).drawn = flags.drawn := by
  have hbit : ∀ d : Direction,
      (flags &&& 0b111111 : SideFlags).getLsbD d.bit = flags.getLsbD d.bit := by
    intro d
    rw [BitVec.getLsbD_and]
    cases d <;> exact Bool.and_true _
  simp only [drawn_eq, hbit]

/-- The vertices of a block: those that are always drawn, then one side after another. -/
theorem blockVertices_eq (g : Geometry α) (ctx : EmitContext α) :
    blockVertices g ctx = bucketVertices g ctx none ++
      ((sideOrder.filter fun d => ctx.sides.getLsbD d.bit).toArray.flatMap fun d =>
        bucketVertices g ctx (some d)) := by
  apply Array.toList_inj.1
  rw [blockVertices, drawn_eq]
  simp [List.flatMap_map]

omit [Scalar α] [Gamma α] in
/-- Leaving the sides out that are not drawn is the same as drawing nothing for them. -/
theorem flatMap_ite_eq_filter {β : Type} (p : Direction → Bool) (block : Direction → Array β)
    (ds : List Direction) :
    ds.toArray.flatMap (fun d => if p d then block d else #[])
      = (ds.filter p).toArray.flatMap block := by
  induction ds with
  | nil => rfl
  | cons d ds ih =>
      rw [List.flatMap_toArray_cons, ih, List.filter_cons]
      split
      · rw [List.flatMap_toArray_cons]
      · rw [Array.empty_append]

/-! ### Drawing vertex by vertex -/

/-- A buffer that is being filled, and the place of the next vertex. -/
structure Filling (α : Type) where
  /-- The buffer. -/
  buffer : VertexBuffer α
  /-- Where the next vertex goes. -/
  cursor : Nat

namespace Filling

section Put

variable (buffer : VertexBuffer α) (start : Nat) (vs : Array (Vertex α))

omit [Gamma α]

/-- One more vertex. -/
def put (s : Filling α) (v : Vertex α) : Filling α :=
  ⟨s.buffer.write s.cursor #[v], s.cursor + 1⟩

/-- A buffer after some vertices were written in one piece. -/
def after : Filling α := ⟨buffer.write start vs, start + vs.size⟩

theorem put_after (v : Vertex α) :
    (after buffer start vs).put v = after buffer start (vs.push v) := by
  simp only [put, after, VertexBuffer.write, writeAt_writeAt, Array.size_push, Nat.add_assoc]
  rfl

/-- If every step writes a block behind the others, all steps write all blocks. -/
theorem foldl_after {β : Type} {step : Filling α → β → Filling α} {block : β → Array (Vertex α)}
    (hstep : ∀ vs b, step (after buffer start vs) b = after buffer start (vs ++ block b))
    (bs : List β) :
    bs.foldl step (after buffer start vs)
      = after buffer start (vs ++ bs.toArray.flatMap block) := by
  induction bs generalizing vs with
  | nil => simp
  | cons b bs ih =>
      rw [List.foldl_cons, hstep, ih, List.flatMap_toArray_cons, Array.append_assoc]

/-- Vertices put one after another are written in one piece. -/
theorem foldl_put {β : Type} (f : β → Vertex α) (bs : List β) :
    bs.foldl (fun s b => s.put (f b)) (after buffer start vs)
      = after buffer start (vs ++ bs.toArray.map f) := by
  have hstep : ∀ vs b, (after buffer start vs).put (f b) = after buffer start (vs ++ #[f b]) := by
    intro vs b
    rw [put_after]
    rfl
  rw [foldl_after buffer start vs hstep, ← Array.map_eq_flatMap]

omit vs in
/-- A buffer that reaches to the first place is ready for the first vertex. -/
theorem ready_eq_after {length : Nat} (h : start ≤ length) :
    (⟨buffer.ensure length, start⟩ : Filling α) = after (buffer.ensure length) start #[] := by
  have hlen : start ≤ (buffer.ensure length).size := by
    rw [VertexBuffer.ensure, size_padTo]
    omega
  rw [after, VertexBuffer.write, writeAt_empty _ hlen]
  rfl

/-- It makes no difference that the buffer was made long enough before. -/
theorem after_ensure {length : Nat} (h : length ≤ start + vs.size) :
    after (buffer.ensure length) start vs = after buffer start vs := by
  rw [after, after, VertexBuffer.write, VertexBuffer.ensure, writeAt_padTo _ _ h]
  rfl

end Put

/-- The faces that are never hidden, one after another. -/
def putUnculled (g : Geometry α) (ctx : EmitContext α) (s : Filling α) : Filling α :=
  g.facings.zipIdx.toList.foldl (fun s f =>
    let kept := innerCorners f.1 ctx.mask ctx.intensity
    ((g.bucket none).extract (4 * f.2) (4 * f.2 + 4)).toList.foldl
      (fun s c => s.put (shadeCorner ctx f.1 none kept c)) s) s

/-- The faces of a side, if it is drawn. -/
def putSide (g : Geometry α) (ctx : EmitContext α) (s : Filling α) (d : Direction) : Filling α :=
  if ctx.sides.getLsbD d.bit then
    let kept := outerCorners (some d) ctx.mask ctx.intensity
    (g.bucket (some d)).toList.foldl
      (fun s c => s.put (shadeCorner ctx (some d) (some d) kept c)) s
  else s

variable (g : Geometry α) (ctx : EmitContext α) (buffer : VertexBuffer α) (start : Nat)
  (vs : Array (Vertex α))

theorem putUnculled_after : putUnculled g ctx (after buffer start vs)
    = after buffer start (vs ++ bucketVertices g ctx none) := by
  have hstep : ∀ (vs : Array (Vertex α)) (f : CullSide × Nat),
      ((g.bucket none).extract (4 * f.2) (4 * f.2 + 4)).toList.foldl (fun s c => s.put
          (shadeCorner ctx f.1 none (innerCorners f.1 ctx.mask ctx.intensity) c))
          (after buffer start vs)
        = after buffer start (vs ++ ((g.bucket none).extract (4 * f.2) (4 * f.2 + 4)).map
          (shadeCorner ctx f.1 none (innerCorners f.1 ctx.mask ctx.intensity))) := by
    intro vs f
    rw [foldl_put, Array.toArray_toList]
  exact (foldl_after buffer start vs hstep _).trans (by rw [Array.toArray_toList]; rfl)

theorem putSide_after (d : Direction) : putSide g ctx (after buffer start vs) d
    = after buffer start
      (vs ++ if ctx.sides.getLsbD d.bit then bucketVertices g ctx (some d) else #[]) := by
  cases hd : ctx.sides.getLsbD d.bit with
  | true =>
      simp only [putSide, hd, if_true]
      rw [foldl_put, Array.toArray_toList]
      rfl
  | false => simp [putSide, hd]

end Filling

/-- A block drawn vertex by vertex into a buffer that was made long enough. -/
def emitStepwise (g : Geometry α) (ctx : EmitContext α) (buffer : VertexBuffer α) (start : Nat) :
    VertexBuffer α × Nat :=
  let sized : Filling α := ⟨buffer.ensure (start + g.vertexCount ctx.sides), start⟩
  let drawn := sideOrder.foldl (Filling.putSide g ctx) (Filling.putUnculled g ctx sized)
  (drawn.buffer, drawn.cursor)

/-- **Drawing vertex by vertex is one write of all vertices.** -/
theorem emitStepwise_ofFaces (fs : List (FaceQuad α)) (ctx : EmitContext α)
    (buffer : VertexBuffer α) (start : Nat) :
    emitStepwise (.ofFaces fs) ctx buffer start = emit (.ofFaces fs) ctx buffer start := by
  have hcount := size_blockVertices fs ctx
  have hblocks : bucketVertices (.ofFaces fs) ctx none ++ sideOrder.toArray.flatMap (fun d =>
      if ctx.sides.getLsbD d.bit then bucketVertices (.ofFaces fs) ctx (some d) else #[])
      = blockVertices (.ofFaces fs) ctx := by
    rw [blockVertices_eq, flatMap_ite_eq_filter]
  have hdrawn : sideOrder.foldl (Filling.putSide (.ofFaces fs) ctx)
      (Filling.putUnculled (.ofFaces fs) ctx
        ⟨buffer.ensure (start + (Geometry.ofFaces fs).vertexCount ctx.sides), start⟩)
        = .after buffer start (blockVertices (.ofFaces fs) ctx) := by
    rw [Filling.ready_eq_after _ _ (Nat.le_add_right ..), Filling.putUnculled_after,
      Filling.foldl_after _ start _ (Filling.putSide_after (.ofFaces fs) ctx _ start),
      Array.empty_append, hblocks, Filling.after_ensure _ _ _ (Nat.le_of_eq (by rw [hcount]))]
  rw [emitStepwise, hdrawn]
  rfl

/-- **What a block changes in a buffer.**  It takes as many places as there are vertices counted for
its sides, the buffer grows if these reach past its end, and all other places stay as they were.
In its places stand the vertices that are always drawn and then those of each side that is drawn,
which are the same whatever other sides are drawn. -/
theorem emit_range (fs : List (FaceQuad α)) (ctx : EmitContext α) (buffer : VertexBuffer α)
    (start : Nat) (flags : SideFlags) :
    let g := Geometry.ofFaces fs
    let out := emit g { ctx with sides := flags } buffer start
    out = emitStepwise g { ctx with sides := flags } buffer start ∧
    out.2 = start + g.vertexCount flags ∧
    out.1.size = max buffer.size out.2 ∧
    (∀ i, ¬ (start ≤ i ∧ i < out.2) →
      out.1[i]? = if i < buffer.size then buffer[i]?
        else if i < start then some Vertex.blank else none) ∧
    out.1.extract start out.2 = bucketVertices g ctx none ++
      ((sideOrder.filter fun d => flags.getLsbD d.bit).toArray.flatMap fun d =>
        bucketVertices g ctx (some d)) ∧
    emit g { ctx with sides := flags &&& 0b111111 } buffer start = out := by
  intro g out
  have hstop : out.2 = start + (blockVertices g { ctx with sides := flags }).size := rfl
  have hblocks : blockVertices g { ctx with sides := flags } = bucketVertices g ctx none ++
      ((sideOrder.filter fun d => flags.getLsbD d.bit).toArray.flatMap fun d =>
        bucketVertices g ctx (some d)) := by
    rw [blockVertices_eq, bucketVertices_sides]
  refine ⟨(emitStepwise_ofFaces fs _ buffer start).symm, ?_, ?_, ?_, ?_, ?_⟩
  · rw [hstop, size_blockVertices]
  · rw [hstop]
    exact size_writeAt ..
  · intro i hi
    rw [hstop] at hi
    exact (getElem?_writeAt ..).trans (if_neg hi)
  · rw [← hblocks, hstop]
    exact extract_writeAt ..
  · have hsame : blockVertices g { ctx with sides := flags &&& 0b111111 }
        = blockVertices g { ctx with sides := flags } := by
      simp only [blockVertices, drawn_and, bucketVertices_sides]
    simp only [out, emit, hsame]

end VoxelBake
