/-
**Items are drawn as blocks are.**

An item is compiled like a block that is not turned.  Its buckets are then laid behind each other,
so that there is one list of vertices, kept as four columns, and drawing goes through the rows of
these columns without asking for sides or directions.  A block with every side drawn goes through
its buckets, the faces that are never hidden by the list of their directions.  Both write the same
places, texture coordinates and playbacks at the same numbers and end at the same number; only
colours differ, as items are not lit.  Nothing is assumed of the arithmetic.

Main definitions:

* `Columns.append`, `Tabulated.flattened` — columns below others, and all columns of compiled
  geometry one below the other;
* `Columns.row?`, `Columns.draw?` — a row of columns, and an item drawn row by row.

Main results:

* `Tabulated.flattened_tabulated` — the columns are those of the corners of the item;
* `Columns.draw?_ofBucket` — drawing row by row never fails and is one write of all vertices;
* `placed_item_vertices` — the vertices of an item are those of a block, apart from light and
  colour;
* `item_follows_block` — **both ways agree**.
-/
import VoxelBake.Mesh.Item
import VoxelBake.Proofs.CompiledFaces
import VoxelBake.Proofs.UniformCube

set_option relaxedAutoImplicit false
set_option autoImplicit false

namespace VoxelBake

/-! ### Columns one below the other -/

section Flattening

variable {α : Type}

/-- Columns with other columns below them. -/
def Columns.append (t u : Columns α) : Columns α where
  positions := t.positions ++ u.positions
  uvs := t.uvs ++ u.uvs
  playbacks := t.playbacks ++ u.playbacks
  tints := t.tints ++ u.tints

theorem Columns.ofBucket_append (a b : Bucket α) :
    Columns.ofBucket (a ++ b) = (Columns.ofBucket a).append (Columns.ofBucket b) := by
  simp [Columns.ofBucket, Columns.append]

/-- The columns of all buckets, one below the other. -/
def Tabulated.flattened (t : Tabulated α) : Columns α :=
  CullSide.all.foldl (fun rows c => rows.append (t.columns.get c)) .empty

/-- A column of all buckets is the columns of the buckets behind each other. -/
theorem Tabulated.toList_flattened {β : Type} {column : Columns α → Array β}
    (hempty : column .empty = #[]) (happend : ∀ t u, column (t.append u) = column t ++ column u)
    (t : Tabulated α) :
    (column t.flattened).toList
      = CullSide.all.flatMap fun c => (column (t.columns.get c)).toList := by
  have hfold : ∀ (cs : List CullSide) (rows : Columns α),
      (column (cs.foldl (fun rows c => rows.append (t.columns.get c)) rows)).toList
        = (column rows).toList ++ cs.flatMap fun c => (column (t.columns.get c)).toList := by
    intro cs
    induction cs with
    | nil => intro rows; simp
    | cons c cs ih =>
        intro rows
        rw [List.foldl_cons, ih, happend, Array.toList_append, List.append_assoc,
          List.flatMap_cons]
  rw [Tabulated.flattened, hfold, hempty, Array.toList_empty, List.nil_append]

/-- The columns of all buckets are those of the corners of all buckets. -/
theorem Tabulated.flattened_tabulated (g : Geometry α) :
    g.tabulated.flattened = .ofBucket (CullSide.all.toArray.flatMap g.bucket) := by
  have hfold : ∀ (cs : List CullSide) (b : Bucket α),
      cs.foldl (fun rows c => rows.append (g.tabulated.columns.get c)) (.ofBucket b)
        = Columns.ofBucket (b ++ cs.toArray.flatMap g.bucket) := by
    intro cs
    induction cs with
    | nil => intro b; simp
    | cons c cs ih =>
        intro b
        rw [List.foldl_cons, g.get_tabulated, ← Columns.ofBucket_append, ih,
          List.flatMap_toArray_cons, Array.append_assoc]
  have hempty : (Columns.empty : Columns α) = .ofBucket #[] := by
    simp [Columns.ofBucket, Columns.empty]
  rw [Tabulated.flattened, hempty, hfold, Array.empty_append]

end Flattening

/-! ### Drawing row by row -/

section Rows

variable {α : Type}

/-- A row of columns; nothing if one of them is too short. -/
def Columns.row? (t : Columns α) (i : Nat) : Option (Corner α) := do
  some ⟨← t.positions[i]?, ← t.uvs[i]?, ← t.playbacks[i]?, ← t.tints[i]?⟩

theorem Columns.row?_ofBucket (b : Bucket α) (i : Nat) : (Columns.ofBucket b).row? i = b[i]? := by
  simp only [Columns.row?, Columns.ofBucket, Array.getElem?_map]
  cases b[i]? with
  | none => rfl
  | some k => rfl

variable [Scalar α]

/-- The vertex of a corner of an item. -/
def Corner.itemVertex (offset : Vec3 α) (palette : Array (Vec3 α)) (k : Corner α) : Vertex α where
  position := k.position + offset
  uv := k.uv
  playback := k.playback
  colour := ItemGeometry.tintColour palette k.tint
  extra := (1 : Nat)

/-- An item drawn row by row into a buffer that was made long enough; nothing if a row is
missing. -/
def Columns.draw? (t : Columns α) (offset : Vec3 α) (palette : Array (Vec3 α))
    (buffer : VertexBuffer α) (start : Nat) : Option (VertexBuffer α × Nat) := do
  let stop := start + t.positions.size
  let drawn ← (List.range t.positions.size).foldlM (fun (b : VertexBuffer α) i => do
    let k ← t.row? i
    some (b.write (start + i) #[k.itemVertex offset palette])) (buffer.ensure stop)
  some (drawn, stop)

/-- Rows written at their numbers are written in one piece. -/
theorem foldlM_writeRow {buffer : VertexBuffer α} {start : Nat} (hstart : start ≤ buffer.size)
    {rows : Array (Vertex α)} {step : VertexBuffer α → Nat → Option (VertexBuffer α)}
    (hstep : ∀ b i v, rows[i]? = some v → step b i = some (b.write (start + i) #[v])) (n : Nat)
    (hn : n ≤ rows.size) :
    (List.range n).foldlM step buffer = some (buffer.write start (rows.extract 0 n)) := by
  induction n with
  | zero =>
      have hnone : rows.extract 0 0 = #[] := by simp
      rw [hnone, VertexBuffer.write, writeAt_empty _ hstart]
      rfl
  | succ n ih =>
      have hlast : rows[n]? = some rows[n] := Array.getElem?_eq_getElem hn
      have hsize : (rows.extract 0 n).size = n := by
        rw [Array.size_extract]
        omega
      have hrows : rows.extract 0 n ++ #[rows[n]] = rows.extract 0 (n + 1) := by
        simp
      rw [List.range_succ, List.foldlM_append, ih (by omega)]
      change (step _ n).bind some = _
      rw [hstep _ n _ hlast, Option.bind_some, ← hrows]
      have hjoin := writeAt_writeAt Vertex.blank buffer start (rows.extract 0 n) #[rows[n]]
      rw [hsize] at hjoin
      exact congrArg some hjoin

/-- **Drawing row by row never fails and is one write of all vertices.** -/
theorem Columns.draw?_ofBucket (b : Bucket α) (offset : Vec3 α) (palette : Array (Vec3 α))
    (buffer : VertexBuffer α) (start : Nat) :
    (Columns.ofBucket b).draw? offset palette buffer start
      = some (buffer.write start (b.map (Corner.itemVertex offset palette)), start + b.size) := by
  have hstart : start ≤ (buffer.ensure (start + b.size)).size := by
    rw [VertexBuffer.ensure, size_padTo]
    omega
  have hstep : ∀ (drawn : VertexBuffer α) (i : Nat) (v : Vertex α),
      (b.map (Corner.itemVertex offset palette))[i]? = some v →
      (do
        let k ← (Columns.ofBucket b).row? i
        some (VertexBuffer.write drawn (start + i) #[k.itemVertex offset palette]))
        = some (VertexBuffer.write drawn (start + i) #[v]) := by
    intro drawn i v hv
    rw [Array.getElem?_map, Option.map_eq_some_iff] at hv
    obtain ⟨k, hk, rfl⟩ := hv
    rw [Columns.row?_ofBucket, hk]
    rfl
  have hrows : (b.map (Corner.itemVertex offset palette)).extract 0 b.size
      = b.map (Corner.itemVertex offset palette) := by
    simp
  have hpad : start + b.size ≤ start + (b.map (Corner.itemVertex offset palette)).size := by
    rw [Array.size_map]
  simp only [Columns.draw?, Columns.size_positions_ofBucket]
  rw [foldlM_writeRow hstart hstep b.size (by rw [Array.size_map]), hrows]
  simp only [VertexBuffer.write, VertexBuffer.ensure, writeAt_padTo _ _ hpad]
  rfl

end Rows

/-! ### Items and blocks -/

/-- A set with all six sides draws every bucket. -/
theorem drawn_or_everySide (flags : SideFlags) :
    (flags ||| .everySide : SideFlags).drawn = CullSide.all := by
  rw [SideFlags.drawn, List.filter_eq_self]
  intro c _
  cases c with
  | none => rfl
  | some d =>
      have hside : SideFlags.everySide.getLsbD d.bit = true := by cases d <;> rfl
      rw [SideFlags.allows, BitVec.getLsbD_or, hside, Bool.or_true]

section Both

variable {α : Type} [Scalar α] [Trig α] [Gamma α]

/-- **The vertices of an item are those of a block with every side drawn**, apart from light and
colour. -/
theorem placed_item_vertices (m : Model α) (atlas : Atlas α) (palette : Array (Vec3 α))
    (ctx : EmitContext α) (hall : ctx.sides.drawn = CullSide.all) :
    ((ItemGeometry.ofModel m atlas).vertices ctx.offset palette).map Vertex.placed
      = (blockVertices (compile m .identity atlas) ctx).map Vertex.placed := by
  have hblock := map_blockVertices (m.faceQuads .identity atlas) ctx (placed_shade ctx)
  rw [hall] at hblock
  refine Eq.trans ?_ hblock.symm
  rw [← Array.map_flatMap]
  exact Array.map_map ..

/-- **Items are drawn as blocks are.**  The columns of an item are the columns of all buckets of its
model, compiled as it stands, one below the other; they have the same length, four rows for each
face of the model.  Drawing them row by row never fails.  Whatever the palette and whatever the
light and the neighbours, the item and the block with every side drawn end at the same number, leave
buffers of the same length, and these have the same place, texture coordinates and playback at every
number. -/
theorem item_follows_block (m : Model α) (atlas : Atlas α) (palette : Array (Vec3 α))
    (ctx : EmitContext α) (flags : SideFlags) (buffer : VertexBuffer α) (start : Nat) :
    let g := compile m .identity atlas
    let bucket (c : CullSide) := g.tabulated.columns.get c
    let item := ItemGeometry.ofModel m atlas
    let t := (compileStepwise m .identity atlas).flattened
    let count := 4 * (m.elements.map fun e => e.faces.length).sum
    let short := item.emit ctx.offset palette buffer start
    let long := emit g { ctx with sides := flags ||| .everySide } buffer start
    t = .ofBucket item.corners ∧
    (t.positions.size = count ∧ t.uvs.size = count ∧ t.playbacks.size = count ∧
      t.tints.size = count) ∧
    (t.positions.toList = CullSide.all.flatMap (fun c => (bucket c).positions.toList) ∧
      t.uvs.toList = CullSide.all.flatMap (fun c => (bucket c).uvs.toList) ∧
      t.playbacks.toList = CullSide.all.flatMap (fun c => (bucket c).playbacks.toList) ∧
      t.tints.toList = CullSide.all.flatMap fun c => (bucket c).tints.toList) ∧
    t.draw? ctx.offset palette buffer start = some short ∧
    short.2 = start + count ∧ short.2 = long.2 ∧ short.1.size = long.1.size ∧
    short.1.map Vertex.placed = long.1.map Vertex.placed := by
  intro g bucket item t count short long
  have htabulated : t = g.tabulated.flattened := by
    rw [← compileStepwise_eq]
  have ht : t = .ofBucket item.corners := htabulated.trans (Tabulated.flattened_tabulated g)
  obtain ⟨seen, hseen⟩ : ∃ seen : EmitContext α,
      seen = { ctx with sides := flags ||| .everySide } := ⟨_, rfl⟩
  have hall : seen.sides.drawn = CullSide.all := by
    rw [hseen]
    exact drawn_or_everySide flags
  have hoffset : seen.offset = ctx.offset := by rw [hseen]
  have hlong : long = emit g seen buffer start := by rw [hseen]
  have hplaced : (item.vertices ctx.offset palette).map Vertex.placed
      = (blockVertices g seen).map Vertex.placed :=
    hoffset ▸ placed_item_vertices m atlas palette seen hall
  have hsame : item.corners.size = (blockVertices g seen).size := by
    have hsizes := congrArg Array.size hplaced
    rw [Array.size_map, Array.size_map] at hsizes
    exact (Array.size_map ..).symm.trans hsizes
  have hdrawn : (blockVertices g seen).size = g.vertexCount seen.sides :=
    size_blockVertices (m.faceQuads .identity atlas) _
  have hcount : item.corners.size = count := by
    calc item.corners.size
        = g.vertexCount seen.sides := hsame.trans hdrawn
      _ = g.totalVertices := by rw [Geometry.vertexCount, hall, Geometry.totalVertices]
      _ = count := totalVertices_compile m .identity atlas
  have hshort : short
      = (buffer.write start (item.vertices ctx.offset palette), start + item.corners.size) := by
    change (_, start + (item.vertices ctx.offset palette).size) = _
    rw [ItemGeometry.vertices, Array.size_map]
  have hmap : short.1.map Vertex.placed = long.1.map Vertex.placed := by
    rw [hlong]
    change (writeAt _ _ _ _).map _ = (writeAt _ _ _ _).map _
    rw [map_writeAt, map_writeAt, hplaced]
  refine ⟨ht, ?_, ⟨?_, ?_, ?_, ?_⟩, ?_, ?_, ?_, ?_, hmap⟩
  · simp only [ht, Columns.ofBucket, Array.size_map, hcount, and_self]
  · rw [htabulated]
    exact g.tabulated.toList_flattened rfl fun _ _ => rfl
  · rw [htabulated]
    exact g.tabulated.toList_flattened rfl fun _ _ => rfl
  · rw [htabulated]
    exact g.tabulated.toList_flattened rfl fun _ _ => rfl
  · rw [htabulated]
    exact g.tabulated.toList_flattened rfl fun _ _ => rfl
  · rw [ht, Columns.draw?_ofBucket, hshort]
    rfl
  · rw [hshort, hcount]
  · rw [hshort, hlong, hsame]
    rfl
  · rw [← Array.size_map (f := Vertex.placed), hmap, Array.size_map]

end Both

end VoxelBake
