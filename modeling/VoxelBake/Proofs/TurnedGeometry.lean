/-
**Turning a model turns its compiled geometry.**

An orientation reaches the compiled faces of a model in three places: the corners of the boxes are
carried by `Orientation.rotatePoint`, the sides by `Orientation.remap`, and, if textures are locked,
texture areas are turned back.  Since `remap` keeps sides apart, faces of one side end up together
and in their old order, so that every bucket of a turned model is a bucket of the model as it stands
with its corners carried along.  Nothing is assumed of the arithmetic: the statements hold for
rounding numbers as they do for exact ones.

Main definitions:

* `Model.sites`, `Model.siteQuad` — the faces of a model with their boxes, and what one of them
  compiles to;
* `Corner.turned`, `Corner.unsampled` — a corner carried along, and what it holds apart from its
  texture coordinates.

Main results:

* `bucket_compile`, `facings_compile` — what the buckets of a turned model hold;
* `compile_turned` — **the geometry of a turned model is the turned geometry of the model**.
-/
import VoxelBake.Mesh.Compile

set_option relaxedAutoImplicit false
set_option autoImplicit false

namespace VoxelBake

/-! ### Sides -/

theorem Direction.exists_quarterX (d : Direction) : ∃ e, Direction.quarterX e = d := by
  cases d with
  | down => exact ⟨north, rfl⟩
  | up => exact ⟨south, rfl⟩
  | north => exact ⟨up, rfl⟩
  | south => exact ⟨down, rfl⟩
  | west => exact ⟨west, rfl⟩
  | east => exact ⟨east, rfl⟩

theorem Direction.exists_quarterY (d : Direction) : ∃ e, Direction.quarterY e = d := by
  cases d with
  | down => exact ⟨down, rfl⟩
  | up => exact ⟨up, rfl⟩
  | north => exact ⟨west, rfl⟩
  | south => exact ⟨east, rfl⟩
  | west => exact ⟨south, rfl⟩
  | east => exact ⟨north, rfl⟩

namespace Orientation

theorem remap_eq_remap_iff (o : Orientation) {c d : CullSide} : o.remap c = o.remap d ↔ c = d :=
  ⟨o.remap_injective, fun h => h ▸ rfl⟩

theorem remap_eq_none_iff (o : Orientation) {c : CullSide} : o.remap c = none ↔ c = none := by
  rw [← o.remap_none, remap_eq_remap_iff, o.remap_none]

private theorem repeat_surjective {β : Type} {f : β → β} (hf : ∀ b, ∃ a, f a = b) (n : Nat) :
    ∀ b, ∃ a, Nat.repeat f n a = b := by
  induction n with
  | zero => intro b; exact ⟨b, rfl⟩
  | succ n ih =>
      intro b
      obtain ⟨a, ha⟩ := hf b
      obtain ⟨a', ha'⟩ := ih a
      refine ⟨a', ?_⟩
      rw [← ha, ← ha']
      rfl

/-- Every direction is taken by some direction. -/
theorem rotateDirection_surjective (o : Orientation) (d : Direction) :
    ∃ e, o.rotateDirection e = d := by
  obtain ⟨d', hd'⟩ := repeat_surjective Direction.exists_quarterY o.yaw d
  obtain ⟨e, he⟩ := repeat_surjective Direction.exists_quarterX o.pitch d'
  refine ⟨e, ?_⟩
  rw [rotateDirection, he, hd']

/-- Every side is taken by some side. -/
theorem remap_surjective (o : Orientation) (c : CullSide) : ∃ d, o.remap d = c := by
  cases c with
  | none => exact ⟨none, rfl⟩
  | some d =>
      obtain ⟨e, he⟩ := o.rotateDirection_surjective d
      exact ⟨some e, by rw [remap_some, he]⟩

theorem remap_of_isIdentity {o : Orientation} (h : o.isIdentity = true) (c : CullSide) :
    o.remap c = c := by
  obtain ⟨hp, hy⟩ : o.pitch = 0 ∧ o.yaw = 0 := by simpa [isIdentity] using h
  cases c with
  | none => rfl
  | some d => simp [rotateDirection, hp, hy, Nat.repeat]

theorem lockTurns_of_isIdentity {o : Orientation} (h : o.isIdentity = true) (d : Direction) :
    o.lockTurns d = 0 := by
  simp [lockTurns, h]

theorem lockTurns_of_unlocked {o : Orientation} (h : o.lockTextures = false) (d : Direction) :
    o.lockTurns d = 0 := by
  simp [lockTurns, h]

end Orientation

/-! ### The faces of a model, one by one -/

variable {α : Type}

/-- The faces of a model with their boxes, in the order in which they are compiled. -/
def Model.sites (m : Model α) : List (Element α × Direction × Face α) :=
  m.elements.flatMap fun e => e.faces.map fun f => (e, f)

variable [Scalar α] [Trig α]

/-- What one face of a model compiles to. -/
def Model.siteQuad (m : Model α) (o : Orientation) (atlas : Atlas α)
    (s : Element α × Direction × Face α) : FaceQuad α :=
  m.faceQuad o atlas (s.1.corners o) s.2

section Sites

variable (m : Model α) (o : Orientation) (atlas : Atlas α)

theorem Model.faceQuads_eq_map : m.faceQuads o atlas = m.sites.map (m.siteQuad o atlas) := by
  simp only [Model.faceQuads, Model.sites, List.map_flatMap, List.map_map]
  rfl

/-- The bucket of a turned side holds the faces of that side before the turn, in their order. -/
theorem bucket_compile (c : CullSide) :
    ((compile m o atlas).bucket (o.remap c)).toList
      = (m.sites.filter (·.2.2.cull = c)).flatMap fun s => (m.siteQuad o atlas s).corners := by
  have hside : ∀ s : Element α × Direction × Face α,
      ((m.siteQuad o atlas s).cull = o.remap c) = (s.2.2.cull = c) :=
    fun s => propext o.remap_eq_remap_iff
  rw [compile, Geometry.bucket_ofFaces, m.faceQuads_eq_map, List.filter_map, List.flatMap_map]
  simp only [Function.comp_def, hside]

/-- The faces that are never hidden keep their order, and their directions are turned. -/
theorem facings_compile :
    (compile m o atlas).facings.toList
      = (m.sites.filter (·.2.2.cull = none)).map fun s => o.remap (some s.2.1) := by
  have hside : ∀ s : Element α × Direction × Face α,
      ((m.siteQuad o atlas s).cull = none) = (s.2.2.cull = none) :=
    fun s => propext o.remap_eq_none_iff
  rw [compile, Geometry.facings_ofFaces, m.faceQuads_eq_map, List.filter_map, List.map_map]
  simp only [Function.comp_def, hside]
  rfl

end Sites

/-! ### Corners carried along -/

/-- A corner carried by the turns of an orientation. -/
def Corner.turned (o : Orientation) (c : Corner α) : Corner α :=
  { c with position := o.rotatePoint c.position }

/-- What a corner holds apart from its texture coordinates. -/
def Corner.unsampled (c : Corner α) : Vec3 α × Playback α × Int := (c.position, c.playback, c.tint)

section Turning

variable (m : Model α) (atlas : Atlas α) (s : Element α × Direction × Face α)

theorem Element.get_corners (e : Element α) (o : Orientation) (i : Fin 8) :
    (e.corners o).get i = o.rotatePoint ((e.corners .identity).get i) := by
  change (e.corners o)[i.val] = o.rotatePoint (e.corners .identity)[i.val]
  simp only [Element.corners, Vector.getElem_map]
  rfl

/-- A box without turns of its own is turned with its model only. -/
theorem Element.get_corners_of_unturned {e : Element α} (h : e.rotation = none) (o : Orientation)
    (i : Fin 8) : (e.corners o).get i = o.rotatePoint ((boxCorners e.low e.high).get i) := by
  change (e.corners o)[i.val] = o.rotatePoint (boxCorners e.low e.high)[i.val]
  rw [Element.corners, Vector.getElem_map, Element.place, h]

/-- The corners of a face in the order of the four winding slots. -/
theorem Model.positions_siteQuad (o : Orientation) :
    (m.siteQuad o atlas s).positions
      = (m.siteQuad .identity atlas s).positions.map o.rotatePoint := by
  simp [Model.siteQuad, Model.faceQuad, Quad.map, Element.get_corners s.1 o]

/-- Whatever the texture coordinates, the rest of every corner of a face is carried along. -/
theorem Model.unsampled_siteQuad (o : Orientation) :
    (m.siteQuad o atlas s).corners.map Corner.unsampled
      = (m.siteQuad .identity atlas s).corners.map fun c => (c.turned o).unsampled := by
  simp only [FaceQuad.corners, m.positions_siteQuad atlas s o]
  rfl

/-- Without a lock the corners of a face are carried along as a whole. -/
theorem Model.corners_siteQuad {o : Orientation} (h : o.lockTextures = false) :
    (m.siteQuad o atlas s).corners
      = (m.siteQuad .identity atlas s).corners.map (Corner.turned o) := by
  have huv : (m.siteQuad o atlas s).uvs = (m.siteQuad .identity atlas s).uvs := by
    simp only [Model.siteQuad, Model.faceQuad, Orientation.lockTurns_of_unlocked h]
    rfl
  simp only [FaceQuad.corners, m.positions_siteQuad atlas s o, huv]
  rfl

/-- An orientation without turns compiles every face as it stands. -/
theorem Model.siteQuad_of_isIdentity {o : Orientation} (h : o.isIdentity = true) :
    m.siteQuad o atlas s = m.siteQuad .identity atlas s := by
  have hcorners : ∀ i, (s.1.corners o).get i = (s.1.corners .identity).get i := by
    intro i
    rw [Element.get_corners, Orientation.rotatePoint_of_isIdentity h]
  have hid : Orientation.identity.isIdentity = true := rfl
  simp only [Model.siteQuad, Model.faceQuad, Orientation.lockTurns_of_isIdentity h,
    Orientation.lockTurns_of_isIdentity hid, Orientation.remap_of_isIdentity h,
    Orientation.remap_of_isIdentity hid, Quad.map, hcorners]

end Turning

/-! ### Whole models -/

/-- **The geometry of a turned model is the turned geometry of the model.**  Without a lock every
bucket is carried along as it is; with a lock only texture coordinates may differ; the directions of
the faces that are never hidden are turned; and without turns nothing changes.  Every bucket of the
turned model is the image of a bucket. -/
theorem compile_turned (m : Model α) (o : Orientation) (atlas : Atlas α) :
    (o.lockTextures = false → ∀ d, (compile m o atlas).bucket (o.remap d)
      = ((compile m .identity atlas).bucket d).map (Corner.turned o)) ∧
    (∀ d, ((compile m o atlas).bucket (o.remap d)).map Corner.unsampled
      = ((compile m .identity atlas).bucket d).map fun c => (c.turned o).unsampled) ∧
    (compile m o atlas).facings = (compile m .identity atlas).facings.map o.remap ∧
    (o.isIdentity = true → compile m o atlas = compile m .identity atlas) ∧
    ∀ c, ∃ d, o.remap d = c := by
  have hid : Orientation.identity.isIdentity = true := rfl
  have hbucket : ∀ d, ((compile m .identity atlas).bucket d).toList
      = (m.sites.filter (·.2.2.cull = d)).flatMap
        fun s => (m.siteQuad .identity atlas s).corners := by
    intro d
    rw [← bucket_compile m .identity atlas d, Orientation.remap_of_isIdentity hid]
  refine ⟨?_, ?_, ?_, ?_, o.remap_surjective⟩
  · intro ho d
    apply Array.toList_inj.1
    rw [bucket_compile, Array.toList_map, hbucket, List.map_flatMap]
    simp only [m.corners_siteQuad atlas _ ho]
  · intro d
    apply Array.toList_inj.1
    rw [Array.toList_map, bucket_compile, Array.toList_map, hbucket, List.map_flatMap,
      List.map_flatMap]
    simp only [m.unsampled_siteQuad atlas _ o]
  · apply Array.toList_inj.1
    rw [facings_compile, Array.toList_map, facings_compile, List.map_map]
    simp only [Function.comp_def, Orientation.remap_of_isIdentity hid]
  · intro ho
    have hquads : m.siteQuad o atlas = m.siteQuad .identity atlas :=
      funext fun s => m.siteQuad_of_isIdentity atlas s ho
    rw [compile, compile, m.faceQuads_eq_map, m.faceQuads_eq_map, hquads]

end VoxelBake
