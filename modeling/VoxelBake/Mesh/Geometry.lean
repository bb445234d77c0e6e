/-
Compiled geometry.

Compiled geometry is a list of corners for each side that hides faces, and one for the faces that
are never hidden.  Four corners make a face.  For the faces that are never hidden the side they
look to is remembered as well, because light and occlusion depend on it.

* `Corner`, `Bucket` — one corner of a face, and the corners of many faces;
* `PerSide`, `PerSide.get`, `PerSide.modify` — one thing for each cull side;
* `Geometry`, `Geometry.push` — compiled geometry, and one more face in it;
* `FaceQuad`, `Geometry.ofFaces` — a face ready to be pushed, and the geometry of many faces;
* `Geometry.vertexCount` — how many corners are drawn for a set of sides;
* `Geometry.bucket_ofFaces`, `Geometry.facings_ofFaces` — what the buckets hold.
-/
import VoxelBake.Atlas.Basic

set_option relaxedAutoImplicit false
set_option autoImplicit false

namespace VoxelBake

/-! ### One thing for each side -/

/-- One thing for each cull side. -/
structure PerSide (β : Type) where
  /-- For faces that are never hidden. -/
  unculled : β
  /-- For the upper side. -/
  up : β
  /-- For the lower side. -/
  down : β
  /-- For the south side. -/
  south : β
  /-- For the north side. -/
  north : β
  /-- For the east side. -/
  east : β
  /-- For the west side. -/
  west : β
deriving BEq

namespace PerSide

variable {β : Type}

/-- The same thing for every side. -/
def uniform (b : β) : PerSide β := ⟨b, b, b, b, b, b, b⟩

/-- The thing for one side. -/
def get (s : PerSide β) : CullSide → β
  | none => s.unculled
  | some .up => s.up
  | some .down => s.down
  | some .south => s.south
  | some .north => s.north
  | some .east => s.east
  | some .west => s.west

/-- The thing for one side replaced by its image under a function. -/
def modify (s : PerSide β) (c : CullSide) (f : β → β) : PerSide β :=
  match c with
  | none => { s with unculled := f s.unculled }
  | some .up => { s with up := f s.up }
  | some .down => { s with down := f s.down }
  | some .south => { s with south := f s.south }
  | some .north => { s with north := f s.north }
  | some .east => { s with east := f s.east }
  | some .west => { s with west := f s.west }

@[simp] theorem get_uniform (b : β) (c : CullSide) : (uniform b).get c = b := by
  cases c with
  | none => rfl
  | some d => cases d <;> rfl

theorem get_modify (s : PerSide β) (c d : CullSide) (f : β → β) :
    (s.modify c f).get d = if d = c then f (s.get d) else s.get d := by
  cases c with
  | none =>
      cases d with
      | none => rfl
      | some d => cases d <;> rfl
  | some c =>
      cases d with
      | none => cases c <;> rfl
      | some d => cases c <;> cases d <;> rfl

/-- Two such collections with the same thing for every side are the same. -/
theorem ext_get {s t : PerSide β} (h : ∀ c, s.get c = t.get c) : s = t := by
  obtain ⟨u, a, b, c, d, e, f⟩ := s
  obtain ⟨u', a', b', c', d', e', f'⟩ := t
  have h0 : u = u' := h none
  have h1 : a = a' := h (some .up)
  have h2 : b = b' := h (some .down)
  have h3 : c = c' := h (some .south)
  have h4 : d = d' := h (some .north)
  have h5 : e = e' := h (some .east)
  have h6 : f = f' := h (some .west)
  simp [h0, h1, h2, h3, h4, h5, h6]

end PerSide

/-! ### Geometry -/

/-- A corner of a compiled face. -/
structure Corner (α : Type) where
  /-- The place in the unit cube. -/
  position : Vec3 α
  /-- The texture coordinates and the page. -/
  uv : Vec3 α
  /-- How the texture is played. -/
  playback : Playback α
  /-- Which tint colours the corner; a negative number for none. -/
  tint : Int
deriving BEq, DecidableEq

/-- The corners of some faces, four of them for each. -/
abbrev Bucket (α : Type) := Array (Corner α)

/-- Compiled geometry. -/
structure Geometry (α : Type) where
  /-- The corners for each cull side. -/
  buckets : PerSide (Bucket α)
  /-- Where each of the faces that are never hidden looks to. -/
  facings : Array CullSide
deriving BEq

/-- A face of compiled geometry. -/
structure FaceQuad (α : Type) where
  /-- The side that hides the face. -/
  cull : CullSide
  /-- Where the face looks to. -/
  facing : CullSide
  /-- The places of its corners. -/
  positions : Quad (Vec3 α)
  /-- The texture coordinates of its corners. -/
  uvs : Quad (Vec3 α)
  /-- How its texture is played. -/
  playback : Playback α
  /-- Which tint colours it. -/
  tint : Int

namespace FaceQuad

variable {α : Type}

/-- The corners of a face. -/
def corners (f : FaceQuad α) : List (Corner α) :=
  (Quad.zipWith (fun p uv => (⟨p, uv, f.playback, f.tint⟩ : Corner α)) f.positions f.uvs).toList

@[simp] theorem length_corners (f : FaceQuad α) : f.corners.length = 4 := rfl

end FaceQuad

namespace Geometry

variable {α : Type}

/-- Geometry without faces. -/
def empty : Geometry α := ⟨PerSide.uniform #[], #[]⟩

instance : Inhabited (Geometry α) := ⟨empty⟩

/-- The corners for one cull side. -/
def bucket (g : Geometry α) (c : CullSide) : Bucket α := g.buckets.get c

/-- Geometry with one more face. -/
def push (g : Geometry α) (f : FaceQuad α) : Geometry α where
  buckets := g.buckets.modify f.cull (· ++ f.corners)
  facings := if f.cull = none then g.facings.push f.facing else g.facings

/-- The geometry of some faces. -/
def ofFaces (fs : List (FaceQuad α)) : Geometry α := fs.foldl push empty

/-- How many corners are drawn for a set of sides. -/
def vertexCount (g : Geometry α) (flags : SideFlags) : Nat :=
  (flags.drawn.map fun c => (g.bucket c).size).foldr (· + ·) 0

/-- How many corners there are. -/
def totalVertices (g : Geometry α) : Nat :=
  (CullSide.all.map fun c => (g.bucket c).size).foldr (· + ·) 0

/-- Whether there are no faces. -/
def isEmpty (g : Geometry α) : Bool := CullSide.all.all fun c => (g.bucket c).isEmpty

/-! ### What the buckets hold -/

@[simp] theorem bucket_empty (c : CullSide) : (empty : Geometry α).bucket c = #[] := by
  simp [empty, bucket]

theorem bucket_push (g : Geometry α) (f : FaceQuad α) (c : CullSide) :
    (g.push f).bucket c = if c = f.cull then g.bucket c ++ f.corners else g.bucket c := by
  simp only [bucket, push, PerSide.get_modify]

private theorem foldl_push (fs : List (FaceQuad α)) (g : Geometry α) (c : CullSide) :
    ((fs.foldl push g).bucket c).toList
        = (g.bucket c).toList ++ (fs.filter (·.cull = c)).flatMap FaceQuad.corners
      ∧ (fs.foldl push g).facings.toList
        = g.facings.toList ++ (fs.filter (·.cull = none)).map FaceQuad.facing := by
  induction fs generalizing g with
  | nil => simp
  | cons f fs ih =>
      obtain ⟨hb, hf⟩ := ih (g.push f)
      refine ⟨?_, ?_⟩
      · rw [List.foldl_cons, hb, bucket_push]
        by_cases h : f.cull = c
        · simp [h]
        · have h' : ¬ c = f.cull := fun e => h e.symm
          simp [h, h']
      · rw [List.foldl_cons, hf]
        by_cases h : f.cull = none <;> simp [push, h]

/-- The bucket of a side holds the corners of the faces that this side hides, in order. -/
theorem bucket_ofFaces (fs : List (FaceQuad α)) (c : CullSide) :
    ((ofFaces fs).bucket c).toList = (fs.filter (·.cull = c)).flatMap FaceQuad.corners := by
  simpa [ofFaces] using (foldl_push fs empty c).1

/-- The remembered sides are those of the faces that are never hidden, in order. -/
theorem facings_ofFaces (fs : List (FaceQuad α)) :
    (ofFaces fs).facings.toList = (fs.filter (·.cull = none)).map FaceQuad.facing := by
  simpa [ofFaces, empty] using (foldl_push fs empty none).2

end Geometry

end VoxelBake
