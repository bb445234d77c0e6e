/-
**A vertex buffer of four columns.**

A program that draws keeps its vertices in four arrays, one for each thing that a vertex holds.  If
they have to grow only the places are asked how long they are, and all four are then brought to one
length; a vertex is written by assigning the same place of each of them, which fails where one of
them is too short.  It never fails for columns that are equally long, and these stay so, whatever is
reserved, written or drawn: they are the columns of the one array of vertices that drawing is
described by elsewhere.  The faces that are drawn are read from columns as well, row by row.

Main definitions:

* `resize`, `assign?` — an array brought to a length, and one of its places assigned;
* `VertexColumns`, `VertexColumns.ensure`, `VertexColumns.write?` — the columns, made long enough,
  and one vertex written;
* `VertexColumns.ofBuffer`, `VertexColumns.Aligned` — the columns of an array of vertices, and
  columns that are equally long;
* `Tabulated.emit?`, `Drawing.drawColumns?` — drawing from columns into columns;
* `BufferStep` — what a program may do to a buffer.

Main results:

* `VertexColumns.isSome_write?_iff` — when a vertex can be written;
* `VertexColumns.aligned_iff` — columns that are equally long are those of an array of vertices;
* `VertexColumns.write?_ofBuffer` — writing into the columns is writing into the array;
* `Drawing.drawColumns?_ofBuffer`, `Tabulated.emitWithCollider?_ofBuffer` — so is drawing;
* `BufferStep.run_ofBuffer`, `BufferStep.exists_aligned_run` — **no program brings the columns out
  of step**.
-/
import VoxelBake.Proofs.Colliders
import VoxelBake.Proofs.DisjointDrawing

set_option relaxedAutoImplicit false
set_option autoImplicit false

namespace VoxelBake

/-! ### Columns -/

section Arrays

variable {β γ : Type}

/-- The array cut or filled up to a length. -/
def resize (filler : β) (length : Nat) (a : Array β) : Array β :=
  padTo filler length (a.extract 0 length)

@[simp] theorem size_resize (filler : β) (length : Nat) (a : Array β) :
    (resize filler length a).size = length := by
  rw [resize, size_padTo, Array.size_extract]
  omega

/-- One place of an array assigned; nothing if there is no such place. -/
def assign? (a : Array β) (i : Nat) (b : β) : Option (Array β) :=
  if i < a.size then some (a.setIfInBounds i b) else none

/-- A column of an array that is made longer. -/
theorem resize_map (f : β → γ) (filler : β) {length : Nat} {a : Array β} (h : a.size ≤ length) :
    resize (f filler) length (a.map f) = (padTo filler length a).map f := by
  have hall : (a.map f).extract 0 length = a.map f :=
    Array.extract_eq_self_of_le (by rwa [Array.size_map])
  rw [resize, hall, map_padTo]

/-- A column of an array of which one place is assigned. -/
theorem assign?_map (f : β → γ) (filler : β) {a : Array β} {i : Nat} (h : i < a.size) (b : β) :
    assign? (a.map f) i (f b) = some ((writeAt filler a i #[b]).map f) := by
  have hi : i < (a.map f).size := by rwa [Array.size_map]
  rw [assign?, if_pos hi, Assigning.setIfInBounds_eq_writeAt (f filler) hi, map_writeAt,
    Array.map_singleton]

/-- Steps that are seen as other steps, one after another. -/
theorem foldlM_view {σ τ : Type} {view : σ → τ} {step : σ → β → Option σ} {seen : τ → β → Option τ}
    (h : ∀ s b, seen (view s) b = (step s b).map view) (bs : List β) (s : σ) :
    bs.foldlM seen (view s) = (bs.foldlM step s).map view := by
  induction bs generalizing s with
  | nil => rfl
  | cons b bs ih =>
      rw [List.foldlM_cons, List.foldlM_cons, h]
      cases step s b with
      | none => rfl
      | some s' => exact ih s'

/-- If none of the steps fails, none of those they are seen as does. -/
theorem foldlM_view_of_total {σ τ : Type} {view : σ → τ} {step : σ → β → σ}
    {seen : τ → β → Option τ} (h : ∀ s b, seen (view s) b = some (view (step s b)))
    (bs : List β) (s : σ) : bs.foldlM seen (view s) = some (view (bs.foldl step s)) := by
  calc bs.foldlM seen (view s)
      = (bs.foldlM (fun s b => some (step s b)) s).map view := foldlM_view h bs s
    _ = some (view (bs.foldl step s)) := congrArg (Option.map view) List.foldlM_pure

end Arrays

/-- A vertex buffer, one column for each thing that a vertex holds. -/
structure VertexColumns (α : Type) where
  /-- Where the vertices are. -/
  positions : Array (Vec3 α)
  /-- Their texture coordinates. -/
  uvs : Array (Vec3 α)
  /-- How their textures are played. -/
  playbacks : Array (Playback α)
  /-- Their colours and what they carry beside them. -/
  colours : Array (Vec3 α × α)

namespace VertexColumns

variable {α : Type}

/-- The columns of an array of vertices. -/
def ofBuffer (b : VertexBuffer α) : VertexColumns α :=
  ⟨b.map Vertex.position, b.map Vertex.uv, b.map Vertex.playback,
    b.map fun v => (v.colour, v.extra)⟩

/-- Columns that are equally long. -/
structure Aligned (t : VertexColumns α) : Prop where
  uvs_size : t.uvs.size = t.positions.size
  playbacks_size : t.playbacks.size = t.positions.size
  colours_size : t.colours.size = t.positions.size

theorem aligned_ofBuffer (b : VertexBuffer α) : (ofBuffer b).Aligned := by
  constructor <;> simp only [ofBuffer, Array.size_map]

/-- **Columns that are equally long are those of an array of vertices.** -/
theorem aligned_iff {t : VertexColumns α} : t.Aligned ↔ ∃ b, ofBuffer b = t := by
  constructor
  · rintro ⟨huvs, hplaybacks, hcolours⟩
    refine ⟨Array.ofFn fun i : Fin t.positions.size =>
      ⟨t.positions[i], t.uvs[i], t.playbacks[i], t.colours[i].1, t.colours[i].2⟩, ?_⟩
    obtain ⟨positions, uvs, playbacks, colours⟩ := t
    simp only [ofBuffer, mk.injEq]
    refine ⟨?_, ?_, ?_, ?_⟩ <;>
      exact Array.ext (by simp [*]) fun i _ _ => by simp
  · rintro ⟨b, rfl⟩
    exact aligned_ofBuffer b

variable [Scalar α]

/-- The columns made long enough: if there are too few places, all columns are brought to the given
length. -/
def ensure (t : VertexColumns α) (length : Nat) : VertexColumns α :=
  if t.positions.size < length then
    ⟨resize Vec3.zero length t.positions, resize Vec3.zero length t.uvs,
      resize Playback.still length t.playbacks, resize (Vec3.zero, (0 : Nat)) length t.colours⟩
  else t

/-- One vertex written at its place; nothing if a column has no such place. -/
def write? (t : VertexColumns α) (i : Nat) (v : Vertex α) : Option (VertexColumns α) := do
  let sized := t.ensure (i + 1)
  some ⟨← assign? sized.positions i v.position, ← assign? sized.uvs i v.uv,
    ← assign? sized.playbacks i v.playback, ← assign? sized.colours i (v.colour, v.extra)⟩

/-- Columns that are made longer are equally long, whatever they were before. -/
theorem aligned_ensure_of_lt {t : VertexColumns α} {length : Nat} (h : t.positions.size < length) :
    (t.ensure length).Aligned := by
  rw [ensure, if_pos h]
  constructor <;> simp only [size_resize]

/-- **When a vertex can be written**: if there are too few places, so that all columns grow, or if
no other column is too short. -/
theorem isSome_write?_iff {t : VertexColumns α} {i : Nat} {v : Vertex α} :
    (t.write? i v).isSome ↔ t.positions.size ≤ i ∨
      (i < t.uvs.size ∧ i < t.playbacks.size ∧ i < t.colours.size) := by
  have hsized : (t.write? i v).isSome ↔ i < (t.ensure (i + 1)).positions.size ∧
      i < (t.ensure (i + 1)).uvs.size ∧ i < (t.ensure (i + 1)).playbacks.size ∧
      i < (t.ensure (i + 1)).colours.size := by
    simp only [write?, assign?]
    split_ifs <;> simp [*]
  rw [hsized, ensure]
  split
  next hlt =>
    simp only [size_resize]
    omega
  next hlt => omega

/-- A column that is too short is not made longer as long as there are enough places. -/
example : ((⟨#[Vec3.zero, Vec3.zero], #[Vec3.zero], #[], #[]⟩ : VertexColumns Rat).write? 1
    Vertex.blank).isSome = false := rfl

theorem ensure_ofBuffer (b : VertexBuffer α) (length : Nat) :
    (ofBuffer b).ensure length = ofBuffer (b.ensure length) := by
  have hsize : (ofBuffer b).positions.size = b.size := Array.size_map ..
  rw [ensure, hsize]
  split
  next hlt =>
    have hle : b.size ≤ length := hlt.le
    simp only [ofBuffer, mk.injEq]
    exact ⟨resize_map Vertex.position Vertex.blank hle, resize_map Vertex.uv Vertex.blank hle,
      resize_map Vertex.playback Vertex.blank hle,
      resize_map (fun v => (v.colour, v.extra)) Vertex.blank hle⟩
  next hlt =>
    have hnone : length - b.size = 0 := by omega
    have hsame : b.ensure length = b := by
      rw [VertexBuffer.ensure, padTo, hnone, Array.replicate_zero, Array.append_empty]
    rw [hsame]

/-- **Writing into the columns is writing into the array**, and never fails. -/
theorem write?_ofBuffer (b : VertexBuffer α) (i : Nat) (v : Vertex α) :
    (ofBuffer b).write? i v = some (ofBuffer (b.write i #[v])) := by
  have hlt : i < (b.ensure (i + 1)).size := by
    rw [VertexBuffer.ensure, size_padTo]
    omega
  have hwrite : writeAt Vertex.blank (b.ensure (i + 1)) i #[v] = b.write i #[v] :=
    writeAt_padTo _ _ (Nat.le_refl _)
  have hcolumn : ∀ {β : Type} (f : Vertex α → β),
      assign? ((b.ensure (i + 1)).map f) i (f v) = some ((b.write i #[v]).map f) := by
    intro β f
    rw [assign?_map f Vertex.blank hlt, hwrite]
  rw [write?, ensure_ofBuffer]
  simp only [ofBuffer, hcolumn Vertex.position, hcolumn Vertex.uv, hcolumn Vertex.playback,
    hcolumn fun v => (v.colour, v.extra)]
  rfl

end VertexColumns

/-! ### Filling columns -/

/-- Columns that are being filled, and the place of the next vertex. -/
structure ColumnFilling (α : Type) where
  /-- The columns. -/
  columns : VertexColumns α
  /-- Where the next vertex goes. -/
  cursor : Nat

namespace ColumnFilling

variable {α : Type}

/-- The columns of a buffer that is being filled. -/
def ofFilling (s : Filling α) : ColumnFilling α := ⟨.ofBuffer s.buffer, s.cursor⟩

variable [Scalar α]

/-- One more vertex; nothing if a column has no place for it. -/
def put? (s : ColumnFilling α) (v : Vertex α) : Option (ColumnFilling α) :=
  (s.columns.write? s.cursor v).map fun t => ⟨t, s.cursor + 1⟩

theorem put?_ofFilling (s : Filling α) (v : Vertex α) :
    (ofFilling s).put? v = some (ofFilling (s.put v)) := by
  rw [put?, ofFilling, VertexColumns.write?_ofBuffer]
  rfl

/-- The vertices of the rows from one number up to another; nothing if there is no such row, or no
place. -/
def putRows? (vertex : Corner α → Vertex α) (rows : Columns α) (first stop : Nat)
    (s : ColumnFilling α) : Option (ColumnFilling α) :=
  (List.range' first (stop - first)).foldlM (fun s i => do s.put? (vertex (← rows.row? i))) s

omit [Scalar α] in
/-- The corners of a bucket are read row by row. -/
theorem map_row?_ofBucket (b : Bucket α) {first stop : Nat} (h : stop ≤ b.size) :
    (List.range' first (stop - first)).map (Columns.ofBucket b).row?
      = (b.extract first stop).toList.map some := by
  refine List.ext_getElem? fun i => ?_
  have hcorner : (b.extract first stop).toList[i]?
      = if i < stop - first then b[first + i]? else none := by
    rw [Array.getElem?_toList, Array.getElem?_extract, Nat.min_eq_left h]
  rw [List.getElem?_map, List.getElem?_map, hcorner]
  by_cases hi : i < stop - first
  · have hlt : first + i < b.size := by omega
    rw [List.getElem?_range' hi, if_pos hi, Option.map_some, Columns.row?_ofBucket, Nat.one_mul,
      Array.getElem?_eq_getElem hlt, Option.map_some]
  · rw [if_neg hi, List.getElem?_eq_none (by simpa using hi)]
    rfl

theorem putRows?_ofBucket (vertex : Corner α → Vertex α) (b : Bucket α) {first stop : Nat}
    (h : stop ≤ b.size) (s : Filling α) :
    putRows? vertex (.ofBucket b) first stop (ofFilling s)
      = some (ofFilling ((b.extract first stop).toList.foldl (fun s k => s.put (vertex k)) s)) := by
  have hrows : putRows? vertex (.ofBucket b) first stop (ofFilling s)
      = ((List.range' first (stop - first)).map (Columns.ofBucket b).row?).foldlM
        (fun s k => do put? s (vertex (← k))) (ofFilling s) := by
    rw [List.foldlM_map]
    rfl
  rw [hrows, map_row?_ofBucket b h, List.foldlM_map]
  exact foldlM_view_of_total (fun s k => put?_ofFilling s (vertex k)) _ _

end ColumnFilling

/-! ### Drawing from columns into columns -/

section Drawing

variable {α : Type}

/-- How many rows are drawn for a set of sides. -/
def Tabulated.vertexCount (t : Tabulated α) (flags : SideFlags) : Nat :=
  (flags.drawn.map fun c => (t.columns.get c).positions.size).foldr (· + ·) 0

theorem Tabulated.vertexCount_tabulated (g : Geometry α) (flags : SideFlags) :
    g.tabulated.vertexCount flags = g.vertexCount flags := by
  simp only [vertexCount, Geometry.get_tabulated, Columns.size_positions_ofBucket]
  rfl

variable [Scalar α] [Gamma α]

namespace ColumnFilling

/-- The faces that are never hidden, one after another; nothing if a row or a place is missing. -/
def putUnculled? (t : Tabulated α) (ctx : EmitContext α) (s : ColumnFilling α) :
    Option (ColumnFilling α) :=
  let rows := t.columns.get none
  t.facings.zipIdx.toList.foldlM (fun s f =>
    putRows? (shadeCorner ctx f.1 none (innerCorners f.1 ctx.mask ctx.intensity)) rows
      (4 * f.2) (min (4 * f.2 + 4) rows.positions.size) s) s

/-- The faces of a side, if it is drawn; nothing if a row or a place is missing. -/
def putSide? (t : Tabulated α) (ctx : EmitContext α) (s : ColumnFilling α) (d : Direction) :
    Option (ColumnFilling α) :=
  let rows := t.columns.get (some d)
  if ctx.sides.getLsbD d.bit then
    putRows? (shadeCorner ctx (some d) (some d) (outerCorners (some d) ctx.mask ctx.intensity))
      rows 0 rows.positions.size s
  else some s

variable (g : Geometry α) (ctx : EmitContext α) (s : Filling α)

theorem putUnculled?_ofFilling :
    putUnculled? g.tabulated ctx (ofFilling s) = some (ofFilling (.putUnculled g ctx s)) := by
  have hextract : ∀ i, (g.bucket none).extract i (min (i + 4) (g.bucket none).size)
      = (g.bucket none).extract i (i + 4) := by
    intro i
    refine Array.ext_getElem? fun j => ?_
    simp [Array.getElem?_extract]
  refine foldlM_view_of_total (fun s f => ?_) _ _
  rw [g.get_tabulated, Columns.size_positions_ofBucket,
    putRows?_ofBucket _ _ (Nat.min_le_right ..), hextract]

theorem putSide?_ofFilling (d : Direction) :
    putSide? g.tabulated ctx (ofFilling s) d = some (ofFilling (.putSide g ctx s d)) := by
  simp only [putSide?, Filling.putSide, g.get_tabulated, Columns.size_positions_ofBucket]
  split
  · rw [putRows?_ofBucket _ _ (Nat.le_refl _), Array.extract_size]
  · rfl

end ColumnFilling

/-- A block drawn from columns into columns that are made long enough; nothing if a row or a place
is missing. -/
def Tabulated.emit? (t : Tabulated α) (ctx : EmitContext α) (c : VertexColumns α) (start : Nat) :
    Option (VertexColumns α × Nat) := do
  let sized : ColumnFilling α := ⟨c.ensure (start + t.vertexCount ctx.sides), start⟩
  let unculled ← sized.putUnculled? t ctx
  let drawn ← sideOrder.foldlM (ColumnFilling.putSide? t ctx) unculled
  some (drawn.columns, drawn.cursor)

theorem Tabulated.emit?_ofBuffer (fs : List (FaceQuad α)) (ctx : EmitContext α)
    (buffer : VertexBuffer α) (start : Nat) :
    (Geometry.ofFaces fs).tabulated.emit? ctx (.ofBuffer buffer) start
      = some ((emit (.ofFaces fs) ctx buffer start).map .ofBuffer id) := by
  have hsides := foldlM_view_of_total (ColumnFilling.putSide?_ofFilling (.ofFaces fs) ctx) sideOrder
  have hunculled := ColumnFilling.putUnculled?_ofFilling (.ofFaces fs) ctx
    ⟨buffer.ensure (start + (Geometry.ofFaces fs).vertexCount ctx.sides), start⟩
  rw [ColumnFilling.ofFilling] at hunculled
  rw [← emitStepwise_ofFaces, emit?, vertexCount_tabulated, VertexColumns.ensure_ofBuffer,
    hunculled]
  simp only [Option.bind_eq_bind, Option.bind_some, hsides]
  rfl

/-- A side of a cube, if it is drawn; nothing if a place is missing. -/
def ColumnFilling.putCubeSide? (sampled : Quad (Vec3 α) × Playback α) (offset : Vec3 α)
    (flags : SideFlags) (colour : Vec3 α) (s : ColumnFilling α) (d : Direction) :
    Option (ColumnFilling α) :=
  if flags.getLsbD d.bit then (cubeSide sampled.1 sampled.2 offset colour d).toList.foldlM put? s
  else some s

omit [Gamma α] in
theorem ColumnFilling.putCubeSide?_ofFilling (sampled : Quad (Vec3 α) × Playback α)
    (offset : Vec3 α) (flags : SideFlags) (colour : Vec3 α) (s : Filling α) (d : Direction) :
    putCubeSide? sampled offset flags colour (ofFilling s) d
      = some (ofFilling (s.putCubeSide sampled offset flags colour d)) := by
  rw [putCubeSide?, Filling.putCubeSide]
  split
  · exact foldlM_view_of_total put?_ofFilling _ s
  · rfl

/-- A cube drawn into columns that are made long enough; nothing if a place is missing. -/
def VertexColumns.emitCube? (atlas : Atlas α) (texture : Identifier) (offset : Vec3 α)
    (flags : SideFlags) (colour : Vec3 α) (c : VertexColumns α) (start : Nat) :
    Option (VertexColumns α × Nat) := do
  let sampled := atlas.uvs texture ⟨(0 : Nat), (0 : Nat), (16 : Nat), (16 : Nat)⟩ 0
  let drawn ← sideOrder.foldlM (ColumnFilling.putCubeSide? sampled offset flags colour)
    ⟨c.ensure (start + cubeVertexCount flags), start⟩
  some (drawn.columns, drawn.cursor)

omit [Gamma α] in
theorem VertexColumns.emitCube?_ofBuffer (atlas : Atlas α) (texture : Identifier)
    (offset : Vec3 α) (flags : SideFlags) (colour : Vec3 α) (buffer : VertexBuffer α)
    (start : Nat) :
    emitCube? atlas texture offset flags colour (.ofBuffer buffer) start
      = some ((emitCube atlas texture offset flags colour buffer start).map .ofBuffer id) := by
  have hsides := foldlM_view_of_total (ColumnFilling.putCubeSide?_ofFilling
    (atlas.uvs texture ⟨(0 : Nat), (0 : Nat), (16 : Nat), (16 : Nat)⟩ 0) offset flags colour)
    sideOrder ⟨buffer.ensure (start + cubeVertexCount flags), start⟩
  rw [ColumnFilling.ofFilling] at hsides
  rw [← emitCubeStepwise_eq, emitCube?, ensure_ofBuffer, hsides]
  rfl

/-- An item drawn row by row into columns that are made long enough; nothing if a row or a place is
missing. -/
def Columns.drawColumns? (t : Columns α) (offset : Vec3 α) (palette : Array (Vec3 α))
    (c : VertexColumns α) (start : Nat) : Option (VertexColumns α × Nat) := do
  let stop := start + t.positions.size
  let drawn ← (List.range t.positions.size).foldlM (fun (c : VertexColumns α) i => do
    let k ← t.row? i
    c.write? (start + i) (k.itemVertex offset palette)) (c.ensure stop)
  some (drawn, stop)

omit [Gamma α] in
theorem Columns.drawColumns?_ofBuffer (t : Columns α) (offset : Vec3 α)
    (palette : Array (Vec3 α)) (buffer : VertexBuffer α) (start : Nat) :
    t.drawColumns? offset palette (.ofBuffer buffer) start
      = (t.draw? offset palette buffer start).map (Prod.map .ofBuffer id) := by
  have hrow : ∀ (b : VertexBuffer α) (i : Nat),
      (do
        let k ← t.row? i
        (VertexColumns.ofBuffer b).write? (start + i) (k.itemVertex offset palette))
      = (do
        let k ← t.row? i
        some (b.write (start + i) #[k.itemVertex offset palette])).map VertexColumns.ofBuffer := by
    intro b i
    cases t.row? i with
    | none => rfl
    | some k => exact VertexColumns.write?_ofBuffer b (start + i) (k.itemVertex offset palette)
  rw [drawColumns?, draw?, VertexColumns.ensure_ofBuffer]
  simp only [Option.bind_eq_bind] at hrow ⊢
  rw [foldlM_view hrow, Option.bind_map, Option.map_bind]
  rfl

/-- One more part of a state, drawn behind the others. -/
def Drawing.drawPart? (ctx : EmitContext α) (s : VertexColumns α × Nat)
    (faces : List (FaceQuad α)) : Option (VertexColumns α × Nat) :=
  (Geometry.ofFaces faces).tabulated.emit? ctx s.1 s.2

/-- Something drawn into columns; nothing if a row or a place is missing. -/
def Drawing.drawColumns? (d : Drawing α) (c : VertexColumns α) (start : Nat) :
    Option (VertexColumns α × Nat) :=
  match d with
  | block faces ctx => (Geometry.ofFaces faces).tabulated.emit? ctx c start
  | state parts _ ctx => parts.foldlM (drawPart? ctx) (c, start)
  | cube atlas texture offset sides colour =>
      VertexColumns.emitCube? atlas texture offset sides colour c start
  | item g offset palette => (Columns.ofBucket g.corners).drawColumns? offset palette c start

/-- **Drawing into the columns is drawing into the array**, and never fails. -/
theorem Drawing.drawColumns?_ofBuffer (d : Drawing α) (buffer : VertexBuffer α) (start : Nat) :
    d.drawColumns? (.ofBuffer buffer) start
      = some ((d.draw buffer start).map .ofBuffer id) := by
  cases d with
  | block faces ctx => exact Tabulated.emit?_ofBuffer faces ctx buffer start
  | state parts weight ctx =>
      have hpart : ∀ (s : VertexBuffer α × Nat) (faces : List (FaceQuad α)),
          drawPart? ctx (s.map .ofBuffer id) faces
            = some ((emit (.ofFaces faces) ctx s.1 s.2).map .ofBuffer id) :=
        fun s faces => Tabulated.emit?_ofBuffer faces ctx s.1 s.2
      refine (foldlM_view_of_total hpart parts (buffer, start)).trans ?_
      rw [draw, StateGeometry.emit, StateGeometry.ofFaces, List.foldl_map]
  | cube atlas texture offset sides colour => exact VertexColumns.emitCube?_ofBuffer ..
  | item g offset palette =>
      rw [drawColumns?, Columns.drawColumns?_ofBuffer, Columns.draw?_ofBucket, draw,
        ItemGeometry.emit, ItemGeometry.vertices, Array.size_map]
      rfl

/-- A block drawn into columns, and the column of its places copied into a collider that was made
long enough. -/
def Tabulated.emitWithCollider? (t : Tabulated α) (ctx : EmitContext α) (c : VertexColumns α)
    (start : Nat) (collider : Array (Vec3 α)) (place : Nat) :
    Option ((VertexColumns α × Nat) × (Array (Vec3 α) × Nat)) := do
  let drawn ← t.emit? ctx c start
  let count := drawn.2 - start
  let sized := padTo Vec3.zero (place + count) collider
  let copied ← copyWindow? drawn.1.positions start drawn.2 sized place (place + count)
  some (drawn, (copied, place + count))

/-- **Drawing with a collider** from columns is drawing with a collider. -/
theorem Tabulated.emitWithCollider?_ofBuffer (fs : List (FaceQuad α)) (ctx : EmitContext α)
    (buffer : VertexBuffer α) (start : Nat) (collider : Array (Vec3 α)) (place : Nat) :
    (Geometry.ofFaces fs).tabulated.emitWithCollider? ctx (.ofBuffer buffer) start collider place
      = some ((emitWithCollider (.ofFaces fs) ctx buffer start collider place).map
        (Prod.map .ofBuffer id) id) := by
  have hboth := emitWithColliderStepwise_eq fs ctx buffer start collider place
  rw [emitWithColliderStepwise, emitStepwise_ofFaces] at hboth
  obtain ⟨copied, hcopied, hout⟩ := Option.map_eq_some_iff.1 hboth
  rw [emitWithCollider?, emit?_ofBuffer, ← hout]
  change (copyWindow? _ _ _ _ _ _).bind _ = _
  exact (congrArg (Option.bind · _) hcopied).trans rfl

end Drawing

/-! ### Whole programs -/

section Steps

variable {α : Type}

/-- What a program may do to a vertex buffer. -/
inductive BufferStep (α : Type)
  /-- The buffer is made long enough. -/
  | reserve (length : Nat)
  /-- One vertex is written. -/
  | place (i : Nat) (v : Vertex α)
  /-- Something is drawn. -/
  | draw (d : Drawing α) (start : Nat)

variable [Scalar α] [Gamma α]

namespace BufferStep

/-- A step on an array of vertices. -/
def onBuffer (b : VertexBuffer α) : BufferStep α → VertexBuffer α
  | reserve length => b.ensure length
  | place i v => b.write i #[v]
  | draw d start => (d.draw b start).1

/-- A step on columns; nothing if a row or a place is missing. -/
def onColumns? (t : VertexColumns α) : BufferStep α → Option (VertexColumns α)
  | reserve length => some (t.ensure length)
  | place i v => t.write? i v
  | draw d start => (d.drawColumns? t start).map Prod.fst

theorem onColumns?_ofBuffer (b : VertexBuffer α) (step : BufferStep α) :
    step.onColumns? (.ofBuffer b) = some (.ofBuffer (step.onBuffer b)) := by
  cases step with
  | reserve length => exact congrArg some (VertexColumns.ensure_ofBuffer b length)
  | place i v => exact VertexColumns.write?_ofBuffer b i v
  | draw d start =>
      rw [onColumns?, Drawing.drawColumns?_ofBuffer]
      rfl

/-- **What a program does to the columns it does to the array.** -/
theorem run_ofBuffer (b : VertexBuffer α) (steps : List (BufferStep α)) :
    steps.foldlM onColumns? (.ofBuffer b)
      = some (VertexColumns.ofBuffer (steps.foldl onBuffer b)) :=
  foldlM_view_of_total onColumns?_ofBuffer steps b

/-- **No program brings the columns out of step**: none of its steps fails on columns that are
equally long, and they are so afterwards. -/
theorem exists_aligned_run {t : VertexColumns α} (h : t.Aligned) (steps : List (BufferStep α)) :
    ∃ t', steps.foldlM onColumns? t = some t' ∧ t'.Aligned := by
  obtain ⟨b, rfl⟩ := VertexColumns.aligned_iff.1 h
  exact ⟨_, run_ofBuffer b steps, VertexColumns.aligned_ofBuffer _⟩

end BufferStep

end Steps

end VoxelBake
