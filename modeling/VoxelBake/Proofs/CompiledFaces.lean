/-
**Compiled geometry holds every face of a model, once, four rows in each column.**

A program that draws keeps a bucket as four columns of the same length: places, texture coordinates,
playbacks and tints.  Faces are put there one after another, element by element, and the faces that
are never hidden leave their direction in a further list.  That the columns stay in step, that no
face is lost or entered twice, and that the number of vertices of a set of sides is a sum over its
sides, is shown here.

Main definitions:

* `Columns`, `Columns.push`, `Tabulated`, `Tabulated.push` — a bucket as columns, geometry of such
  buckets, and one more face in them;
* `compileStepwise` — a model compiled face by face into columns;
* `Columns.Holds` — columns with the rows of some faces and nothing else.

Main results:

* `compileStepwise_eq` — the columns are those of compiled geometry;
* `Geometry.totalVertices_ofFaces`, `Geometry.vertexCount_or` — how vertices are counted;
* `compile_keeps_faces` — **compilation loses and duplicates nothing**.
-/
import Mathlib.Algebra.BigOperators.Group.List.Basic
import Mathlib.Algebra.BigOperators.Ring.List
import Mathlib.Algebra.Ring.Nat
import VoxelBake.Proofs.Emission
import VoxelBake.Proofs.TurnedGeometry

set_option relaxedAutoImplicit false
set_option autoImplicit false

namespace VoxelBake

/-! ### Buckets as columns -/

/-- The thing for each side replaced by its image under a function. -/
def PerSide.map {β γ : Type} (f : β → γ) (s : PerSide β) : PerSide γ :=
  ⟨f s.unculled, f s.up, f s.down, f s.south, f s.north, f s.east, f s.west⟩

@[simp] theorem PerSide.get_map {β γ : Type} (f : β → γ) (s : PerSide β) (c : CullSide) :
    (s.map f).get c = f (s.get c) := by
  cases c with
  | none => rfl
  | some d => cases d <;> rfl

/-- The vertices of a bucket, one column for each thing that they hold. -/
structure Columns (α : Type) where
  /-- Where the vertices are. -/
  positions : Array (Vec3 α)
  /-- Their texture coordinates. -/
  uvs : Array (Vec3 α)
  /-- How their textures are played. -/
  playbacks : Array (Playback α)
  /-- Which tints colour them. -/
  tints : Array Int

variable {α : Type}

namespace Columns

/-- Columns without rows. -/
def empty : Columns α := ⟨#[], #[], #[], #[]⟩

/-- Four more rows, those of a face. -/
def push (t : Columns α) (f : FaceQuad α) : Columns α where
  positions := t.positions ++ f.positions.toList
  uvs := t.uvs ++ f.uvs.toList
  playbacks := t.playbacks ++ List.replicate 4 f.playback
  tints := t.tints ++ List.replicate 4 f.tint

/-- The columns of the corners of a bucket. -/
def ofBucket (b : Bucket α) : Columns α :=
  ⟨b.map Corner.position, b.map Corner.uv, b.map Corner.playback, b.map Corner.tint⟩

theorem size_positions_ofBucket (b : Bucket α) : (ofBucket b).positions.size = b.size :=
  Array.size_map ..

theorem ofBucket_append_corners (b : Bucket α) (f : FaceQuad α) :
    ofBucket (b ++ f.corners) = (ofBucket b).push f := by
  simp [ofBucket, push, FaceQuad.corners, Quad.zipWith, Quad.toList, List.replicate]

/-- The columns have the rows of some faces and nothing else: the corners of the faces in their
order, and four times the same playback and tint for each face. -/
structure Holds (t : Columns α) (fs : List (FaceQuad α)) : Prop where
  positions_eq : t.positions.toList = fs.flatMap fun f => f.positions.toList
  uvs_eq : t.uvs.toList = fs.flatMap fun f => f.uvs.toList
  playbacks_eq : t.playbacks.toList = fs.flatMap fun f => List.replicate 4 f.playback
  tints_eq : t.tints.toList = fs.flatMap fun f => List.replicate 4 f.tint

theorem Holds.ofBucket {b : Bucket α} {fs : List (FaceQuad α)}
    (h : b.toList = fs.flatMap FaceQuad.corners) : (Columns.ofBucket b).Holds fs := by
  constructor <;>
    simp only [Columns.ofBucket, Array.toList_map, h, List.map_flatMap] <;>
    rfl

theorem length_rows {β : Type} {rows : FaceQuad α → List β} (h : ∀ f, (rows f).length = 4)
    (fs : List (FaceQuad α)) : (fs.flatMap rows).length = 4 * fs.length := by
  induction fs with
  | nil => rfl
  | cons f fs ih =>
      rw [List.flatMap_cons, List.length_append, h, ih, List.length_cons]
      omega

/-- Each column has four rows for each face. -/
theorem Holds.size {t : Columns α} {fs : List (FaceQuad α)} (h : t.Holds fs) :
    t.positions.size = 4 * fs.length ∧ t.uvs.size = 4 * fs.length ∧
      t.playbacks.size = 4 * fs.length ∧ t.tints.size = 4 * fs.length := by
  simp only [← Array.length_toList, h.positions_eq, h.uvs_eq, h.playbacks_eq, h.tints_eq]
  exact ⟨length_rows (fun _ => rfl) fs, length_rows (fun _ => rfl) fs,
    length_rows (fun _ => rfl) fs, length_rows (fun _ => rfl) fs⟩

end Columns

/-- Geometry whose buckets are kept as columns. -/
structure Tabulated (α : Type) where
  /-- The columns for each cull side. -/
  columns : PerSide (Columns α)
  /-- Where each of the faces that are never hidden looks to. -/
  facings : Array CullSide

namespace Tabulated

/-- Columns without rows for every side. -/
def empty : Tabulated α := ⟨PerSide.uniform .empty, #[]⟩

/-- One more face. -/
def push (t : Tabulated α) (f : FaceQuad α) : Tabulated α where
  columns := t.columns.modify f.cull (·.push f)
  facings := if f.cull = none then t.facings.push f.facing else t.facings

end Tabulated

/-- Geometry with its buckets as columns. -/
def Geometry.tabulated (g : Geometry α) : Tabulated α := ⟨g.buckets.map .ofBucket, g.facings⟩

theorem Geometry.get_tabulated (g : Geometry α) (c : CullSide) :
    g.tabulated.columns.get c = .ofBucket (g.bucket c) :=
  PerSide.get_map _ _ _

theorem Geometry.tabulated_empty : (empty : Geometry α).tabulated = .empty := by
  simp [tabulated, empty, PerSide.uniform, PerSide.map, Columns.ofBucket, Tabulated.empty,
    Columns.empty]

theorem Geometry.tabulated_push (g : Geometry α) (f : FaceQuad α) :
    (g.push f).tabulated = g.tabulated.push f := by
  have hcolumns : (g.push f).tabulated.columns = (g.tabulated.push f).columns := by
    refine PerSide.ext_get fun c => ?_
    simp only [Geometry.tabulated, Geometry.push, Tabulated.push, PerSide.get_map,
      PerSide.get_modify, ← Columns.ofBucket_append_corners]
    split <;> rfl
  simp only [Geometry.tabulated, Tabulated.push] at hcolumns ⊢
  rw [hcolumns]
  rfl

/-! ### A model compiled face by face -/

section Stepwise

variable [Scalar α] [Trig α]

/-- One more element: its corners are turned once, and then its faces are entered in order. -/
def Model.putElement (m : Model α) (o : Orientation) (atlas : Atlas α) (t : Tabulated α)
    (e : Element α) : Tabulated α :=
  let corners := e.corners o
  e.faces.foldl (fun t f => t.push (m.faceQuad o atlas corners f)) t

/-- A model compiled element by element and face by face. -/
def compileStepwise (m : Model α) (o : Orientation) (atlas : Atlas α) : Tabulated α :=
  m.elements.foldl (m.putElement o atlas) .empty

/-- **Compiling face by face gives the columns of compiled geometry.** -/
theorem compileStepwise_eq (m : Model α) (o : Orientation) (atlas : Atlas α) :
    compileStepwise m o atlas = (compile m o atlas).tabulated := by
  calc compileStepwise m o atlas
      = (m.faceQuads o atlas).foldl Tabulated.push .empty := by
        simp only [compileStepwise, Model.faceQuads, List.foldl_flatMap, List.foldl_map]
        rfl
    _ = ((m.faceQuads o atlas).foldl Geometry.push .empty).tabulated := by
        rw [← Geometry.tabulated_empty]
        exact List.foldl_hom Geometry.tabulated fun g f => (g.tabulated_push f).symm

end Stepwise

/-! ### How vertices are counted -/

/-- Every face counts for one side, and only for this one. -/
theorem sum_length_filter_cull (fs : List (FaceQuad α)) :
    (CullSide.all.map fun c => (fs.filter (·.cull = c)).length).sum = fs.length := by
  induction fs with
  | nil => rfl
  | cons f fs ih =>
      have hone : (CullSide.all.map fun c => if f.cull = c then 1 else 0).sum = 1 := by
        cases f.cull with
        | none => rfl
        | some d => cases d <;> rfl
      have hcons : ∀ c, ((f :: fs).filter (·.cull = c)).length
          = (fs.filter (·.cull = c)).length + if f.cull = c then 1 else 0 := by
        intro c
        by_cases hc : f.cull = c <;> simp [hc]
      simp only [hcons, List.sum_map_add, ih, hone, List.length_cons]

namespace Geometry

theorem size_bucket_ofFaces (fs : List (FaceQuad α)) (c : CullSide) :
    ((ofFaces fs).bucket c).size = 4 * (fs.filter (·.cull = c)).length := by
  rw [← Array.length_toList, bucket_ofFaces, length_flatMap_corners]

/-- There are four vertices for each face. -/
theorem totalVertices_ofFaces (fs : List (FaceQuad α)) :
    (ofFaces fs).totalVertices = 4 * fs.length := by
  have hsum : (ofFaces fs).totalVertices
      = (CullSide.all.map fun c => 4 * (fs.filter (·.cull = c)).length).sum := by
    simp only [totalVertices, size_bucket_ofFaces, List.sum]
  rw [hsum, List.sum_map_mul_left, sum_length_filter_cull]

/-- The number of vertices of a set of sides: those that are always drawn, and those of each side of
the set. -/
theorem vertexCount_eq (g : Geometry α) (flags : SideFlags) :
    g.vertexCount flags = (g.bucket none).size +
      (sideOrder.map fun d =>
        if flags.getLsbD d.bit then (g.bucket (some d)).size else 0).sum := by
  have hfilter : ∀ ds : List Direction,
      (((ds.filter fun d => flags.getLsbD d.bit).map some).map fun c => (g.bucket c).size).sum
        = (ds.map fun d => if flags.getLsbD d.bit then (g.bucket (some d)).size else 0).sum := by
    intro ds
    induction ds with
    | nil => rfl
    | cons d ds ih => by_cases hd : flags.getLsbD d.bit = true <;> simp [hd, ← ih]
  rw [← hfilter, vertexCount, drawn_eq]
  rfl

/-- Two sets of sides without a common one are counted one by one; what is always drawn is then
counted twice. -/
theorem vertexCount_or (g : Geometry α) {flags flags' : SideFlags} (h : flags &&& flags' = 0) :
    g.vertexCount (flags ||| flags') + g.vertexCount 0
      = g.vertexCount flags + g.vertexCount flags' := by
  have hside : ∀ d : Direction,
      (if (flags ||| flags').getLsbD d.bit then (g.bucket (some d)).size else 0)
        = (if flags.getLsbD d.bit then (g.bucket (some d)).size else 0)
          + if flags'.getLsbD d.bit then (g.bucket (some d)).size else 0 := by
    intro d
    have hboth : (flags.getLsbD d.bit && flags'.getLsbD d.bit) = false := by
      rw [← BitVec.getLsbD_and, h]
      exact BitVec.getLsbD_zero
    rw [BitVec.getLsbD_or]
    cases hd : flags.getLsbD d.bit <;> cases hd' : flags'.getLsbD d.bit <;> simp_all
  simp only [vertexCount_eq, hside, List.sum_map_add]
  simp
  omega

end Geometry

/-! ### Whole models -/

section Compiled

variable [Scalar α] [Trig α]

/-- The faces of a model that end up under a side when it is compiled. -/
def Model.quadsUnder (m : Model α) (o : Orientation) (atlas : Atlas α) (c : CullSide) :
    List (FaceQuad α) :=
  (m.sites.filter (o.remap ·.2.2.cull = c)).map (m.siteQuad o atlas)

theorem Model.filter_faceQuads (m : Model α) (o : Orientation) (atlas : Atlas α) (c : CullSide) :
    (m.faceQuads o atlas).filter (·.cull = c) = m.quadsUnder o atlas c := by
  rw [m.faceQuads_eq_map, List.filter_map]
  rfl

/-- There are four vertices for each face of a model. -/
theorem totalVertices_compile (m : Model α) (o : Orientation) (atlas : Atlas α) :
    (compile m o atlas).totalVertices = 4 * (m.elements.map fun e => e.faces.length).sum := by
  have hfaces : (m.faceQuads o atlas).length = (m.elements.map fun e => e.faces.length).sum := by
    simp [Model.faceQuads, List.length_flatMap]
  rw [← hfaces]
  exact Geometry.totalVertices_ofFaces _

/-- **Compilation loses and duplicates nothing.**  Compiling face by face gives the columns of
compiled geometry.  The columns of a side hold the faces whose turned side it is, in the order of
elements and of their faces, and nothing else, so all four have the same length, four rows a face.
There are four vertices for each face of the model.  The directions of the faces that are never
hidden are remembered in the same order, one for each, and all of them are directions.  The vertices
of two sets of sides without a common one add up. -/
theorem compile_keeps_faces (m : Model α) (o : Orientation) (atlas : Atlas α) :
    let g := compile m o atlas
    let t := compileStepwise m o atlas
    t = g.tabulated ∧
    (∀ c, (t.columns.get c).Holds (m.quadsUnder o atlas c) ∧
      (t.columns.get c).positions.size = (g.bucket c).size ∧
      (t.columns.get c).uvs.size = (g.bucket c).size ∧
      (t.columns.get c).playbacks.size = (g.bucket c).size ∧
      (t.columns.get c).tints.size = (g.bucket c).size ∧
      (g.bucket c).size = 4 * (m.quadsUnder o atlas c).length) ∧
    g.totalVertices = 4 * (m.elements.map fun e => e.faces.length).sum ∧
    t.facings.toList = (m.sites.filter (o.remap ·.2.2.cull = none)).map (fun s =>
      some (o.rotateDirection s.2.1)) ∧
    4 * t.facings.size = (g.bucket none).size ∧ none ∉ t.facings ∧
    ∀ flags flags' : SideFlags, flags &&& flags' = 0 →
      g.vertexCount (flags ||| flags') + g.vertexCount 0
        = g.vertexCount flags + g.vertexCount flags' := by
  intro g t
  have ht : t = g.tabulated := compileStepwise_eq m o atlas
  have hsize : ∀ c, (g.bucket c).size = 4 * (m.quadsUnder o atlas c).length := by
    intro c
    rw [← m.filter_faceQuads]
    exact Geometry.size_bucket_ofFaces _ c
  have hfacings : t.facings.toList = (m.sites.filter (o.remap ·.2.2.cull = none)).map (fun s =>
      some (o.rotateDirection s.2.1)) := by
    rw [ht]
    have hquads := Geometry.facings_ofFaces (m.faceQuads o atlas)
    rw [m.filter_faceQuads, Model.quadsUnder, List.map_map] at hquads
    exact hquads
  refine ⟨ht, fun c => ?_, ?_, hfacings, ?_, ?_, fun _ _ => g.vertexCount_or⟩
  · have hholds : (t.columns.get c).Holds (m.quadsUnder o atlas c) := by
      rw [ht, Geometry.tabulated, PerSide.get_map, ← m.filter_faceQuads]
      exact .ofBucket (Geometry.bucket_ofFaces _ c)
    obtain ⟨hpositions, huvs, hplaybacks, htints⟩ := hholds.size
    rw [hsize c]
    exact ⟨hholds, hpositions, huvs, hplaybacks, htints, rfl⟩
  · exact totalVertices_compile m o atlas
  · rw [hsize none, ← Array.length_toList, hfacings, Model.quadsUnder, List.length_map,
      List.length_map]
  · rw [← Array.mem_toList_iff, hfacings]
    simp

end Compiled

/-- A step of stone: two boxes, each with a face to one side that is never hidden. -/
def stepModel : Model Float32 :=
  let whole : UvRect Float32 := ⟨(0 : Nat), (0 : Nat), (16 : Nat), (16 : Nat)⟩
  let face (cull : CullSide) : Face Float32 := ⟨whole, .slot "stone", cull, 0, -1⟩
  { textures := Table.ofList [("stone", .texture ⟨"minecraft", "block/stone"⟩)]
    elements :=
      [⟨Vec3.uniform (0 : Nat), ⟨(16 : Nat), (8 : Nat), (16 : Nat)⟩, none, true,
          [(.down, face (some .down)), (.west, face none)]⟩,
        ⟨⟨(8 : Nat), (8 : Nat), (0 : Nat)⟩, Vec3.uniform (16 : Nat), none, true,
          [(.up, face (some .up)), (.east, face none)]⟩]
    display := ∅ }

/-- After a quarter turn the two faces look to the north and to the south. -/
theorem compile_keeps_faces_step :
    (0b000001 : SideFlags) &&& 0b000010 = 0 ∧
    let g := compile stepModel ⟨0, 1, false⟩ ⟨16, [], ∅⟩
    let t := compileStepwise stepModel ⟨0, 1, false⟩ ⟨16, [], ∅⟩
    t = g.tabulated ∧ t.facings.toList = [some .north, some .south] ∧ g.totalVertices = 16 ∧
      g.vertexCount 0b000011 + g.vertexCount 0
        = g.vertexCount 0b000001 + g.vertexCount 0b000010 := by
  have hmasks : (0b000001 : SideFlags) &&& 0b000010 = 0 := by decide
  obtain ⟨htabulated, -, htotal, hfacings, -, -, hcount⟩ :=
    compile_keeps_faces stepModel ⟨0, 1, false⟩ ⟨16, [], ∅⟩
  exact ⟨hmasks, htabulated, hfacings, htotal, hcount _ _ hmasks⟩

end VoxelBake
