/-
**Locked textures stay still in the world.**

A face without written texture coordinates shows the outline of its box.  If textures are locked,
what a point of the turned face shows depends on where the point lies in the world and on the side
that the face looks to, and on nothing else: neither on the box nor on the face that was turned
there.  The coordinates are read as exact rationals.

The proof goes quarter turn by quarter turn.  On each side the world has texture coordinates of its
own; a quarter turn of the model carries those of one side to those of another after some quarter
turns of the texture (`Direction.turnsX`, `Direction.turnsY`); and `Orientation.textureTurn` counts
all of them together.

Main definitions:

* `worldUv` — the texture coordinates of a point of the world on a side;
* `quarterArea` — a quarter turn of texture coordinates;
* `Orientation.carriedTurns` — the quarter turns of the texture that an orientation brings along;
* `Atlas.sample` — a point of a texture in the atlas.

Main results:

* `worldUv_rotate` — how an orientation carries the texture coordinates of the world;
* `Orientation.lockTurns_eq` — the lock undoes exactly these turns;
* `winding_worldUv` — a face shows the outline of its box;
* `locked_texture_still` — **a locked texture shows the coordinates of the world**.
-/
import VoxelBake.Model.Document
import VoxelBake.Proofs.TurnedGeometry

set_option relaxedAutoImplicit false
set_option autoImplicit false

namespace VoxelBake

/-! ### Quarter turns -/

section Repeating

variable {β : Type} {f : β → β}

theorem repeat_add (f : β → β) (m n : Nat) (b : β) :
    Nat.repeat f (m + n) b = Nat.repeat f m (Nat.repeat f n b) := by
  induction m with
  | zero => rw [Nat.zero_add]; rfl
  | succ m ih =>
      rw [Nat.succ_add]
      exact congrArg f ih

/-- Whole circles change nothing. -/
theorem repeat_mod_four (h : ∀ b, f (f (f (f b))) = b) (n : Nat) (b : β) :
    Nat.repeat f (n % 4) b = Nat.repeat f n b := by
  have circles : ∀ q r, Nat.repeat f (r + 4 * q) b = Nat.repeat f r b := by
    intro q
    induction q with
    | zero => intro r; rfl
    | succ q ih =>
        intro r
        have he : r + 4 * (q + 1) = 4 + (r + 4 * q) := by omega
        rw [he, repeat_add, ih]
        exact h _
  have hn : n = n % 4 + 4 * (n / 4) := (Nat.mod_add_div n 4).symm
  exact ((congrArg (fun k => Nat.repeat f k b) hn).trans (circles (n / 4) (n % 4))).symm

end Repeating

section Coordinates

variable {α : Type} [Scalar α]

/-- The texture coordinates of a point of the world on a side. -/
def worldUv (side : Direction) (p : Vec3 α) : α × α :=
  let flip (a : α) : α := (1 : Nat) - a
  match side with
  | .up => (p.x, p.z)
  | .down => (p.x, flip p.z)
  | .north => (flip p.x, flip p.y)
  | .south => (p.x, flip p.y)
  | .west => (p.z, flip p.y)
  | .east => (flip p.z, flip p.y)

/-- Texture coordinates after a quarter turn of the area. -/
def quarterArea (uv : α × α) : α × α := (uv.2, (1 : Nat) - uv.1)

theorem rotateArea_eq (uv : α × α) (turns : Nat) :
    rotateArea uv.1 uv.2 turns = Nat.repeat quarterArea (turns % 4) uv := rfl

end Coordinates

/-- The quarter turns of a texture when its face is turned about the east-west axis. -/
def Direction.turnsX : Direction → Nat
  | up => 2
  | north => 2
  | down => 0
  | south => 0
  | east => 3
  | west => 1

/-- The quarter turns of a texture when its face is turned about the vertical axis. -/
def Direction.turnsY : Direction → Nat
  | up => 3
  | down => 1
  | _ => 0

theorem quarterArea_four (uv : Rat × Rat) :
    quarterArea (quarterArea (quarterArea (quarterArea uv))) = uv := by
  obtain ⟨u, v⟩ := uv
  simp only [quarterArea, Prod.mk.injEq]
  grind

theorem worldUv_quarterX (d : Direction) (p : Vec3 Rat) :
    worldUv d.quarterX (Orientation.quarterX p)
      = Nat.repeat quarterArea d.turnsX (worldUv d p) := by
  cases d <;>
    simp only [Direction.quarterX, Direction.turnsX, Orientation.quarterX, worldUv, quarterArea,
      Nat.repeat, Prod.mk.injEq] <;>
    grind

theorem worldUv_quarterY (d : Direction) (p : Vec3 Rat) :
    worldUv d.quarterY (Orientation.quarterY p)
      = Nat.repeat quarterArea d.turnsY (worldUv d p) := by
  cases d <;>
    simp only [Direction.quarterY, Direction.turnsY, Orientation.quarterY, worldUv, quarterArea,
      Nat.repeat, Prod.mk.injEq] <;>
    grind

/-! ### All turns of an orientation -/

/-- The quarter turns of a texture over some quarter turns of its face, each of which brings along
`turns` of the direction that the face has then. -/
def carriedOver (turns : Direction → Nat) (quarter : Direction → Direction) : Nat → Direction → Nat
  | 0, _ => 0
  | n + 1, d => turns (Nat.repeat quarter n d) + carriedOver turns quarter n d

theorem worldUv_repeat {turns : Direction → Nat} {quarter : Direction → Direction}
    {move : Vec3 Rat → Vec3 Rat}
    (h : ∀ d p, worldUv (quarter d) (move p) = Nat.repeat quarterArea (turns d) (worldUv d p))
    (n : Nat) (d : Direction) (p : Vec3 Rat) :
    worldUv (Nat.repeat quarter n d) (Nat.repeat move n p)
      = Nat.repeat quarterArea (carriedOver turns quarter n d) (worldUv d p) := by
  induction n with
  | zero => rfl
  | succ n ih =>
      change worldUv (quarter (Nat.repeat quarter n d)) (move (Nat.repeat move n p)) = _
      rw [h, ih, carriedOver, repeat_add]

namespace Orientation

/-- The quarter turns of the texture of a face that an orientation brings along. -/
def carriedTurns (o : Orientation) (d : Direction) : Nat :=
  carriedOver Direction.turnsY Direction.quarterY o.yaw (Nat.repeat Direction.quarterX o.pitch d)
    + carriedOver Direction.turnsX Direction.quarterX o.pitch d

/-- An orientation with whole circles removed. -/
def reduced (o : Orientation) : Orientation := ofTurns o.pitch o.yaw o.lockTextures

theorem rotateDirection_reduced (o : Orientation) (d : Direction) :
    o.reduced.rotateDirection d = o.rotateDirection d := by
  have quarterX : ∀ d : Direction, d.quarterX.quarterX.quarterX.quarterX = d := by
    intro d
    cases d <;> rfl
  have quarterY : ∀ d : Direction, d.quarterY.quarterY.quarterY.quarterY = d := by
    intro d
    cases d <;> rfl
  simp only [reduced, ofTurns, rotateDirection, repeat_mod_four quarterX, repeat_mod_four quarterY]

theorem rotatePoint_reduced (o : Orientation) (p : Vec3 Rat) :
    o.reduced.rotatePoint p = o.rotatePoint p := by
  have circleX : ∀ p : Vec3 Rat, quarterX (quarterX (quarterX (quarterX p))) = p := by
    rintro ⟨x, y, z⟩
    simp only [quarterX, Vec3.mk.injEq]
    grind
  have circleY : ∀ p : Vec3 Rat, quarterY (quarterY (quarterY (quarterY p))) = p := by
    rintro ⟨x, y, z⟩
    simp only [quarterY, Vec3.mk.injEq]
    grind
  simp only [reduced, ofTurns, rotatePoint, repeat_mod_four circleX, repeat_mod_four circleY]

theorem lockTurns_of_locked {o : Orientation} (hl : o.lockTextures = true) (d : Direction) :
    o.lockTurns d = ((-textureTurn (o.pitch % 4) (o.yaw % 4) d) % 4).toNat := by
  by_cases ho : o.isIdentity = true
  · obtain ⟨hp, hy⟩ : o.pitch = 0 ∧ o.yaw = 0 := by simpa [isIdentity] using ho
    rw [lockTurns_of_isIdentity ho, hp, hy]
    cases d <;> rfl
  · simp [lockTurns, hl, ho]

/-- **The lock undoes exactly the turns that the orientation brings along.**  For each of the
sixteen orientations this compares the table of texture turns with the sum over the quarter
turns. -/
theorem lockTurns_eq {o : Orientation} (hl : o.lockTextures = true) (d : Direction) :
    o.lockTurns d = o.reduced.carriedTurns d % 4 := by
  have table : ∀ pitch yaw : Fin 4, ∀ d ∈ Direction.all,
      ((-textureTurn pitch yaw d) % 4).toNat
        = carriedTurns ⟨pitch, yaw, o.lockTextures⟩ d % 4 := by
    rw [hl]
    decide
  rw [lockTurns_of_locked hl]
  exact table ⟨o.pitch % 4, Nat.mod_lt _ (by decide)⟩ ⟨o.yaw % 4, Nat.mod_lt _ (by decide)⟩ d
    d.mem_all

end Orientation

/-- How an orientation carries the texture coordinates of the world. -/
theorem worldUv_rotate (o : Orientation) (d : Direction) (p : Vec3 Rat) :
    worldUv (o.rotateDirection d) (o.rotatePoint p)
      = Nat.repeat quarterArea (o.carriedTurns d) (worldUv d p) := by
  rw [Orientation.rotateDirection, Orientation.rotatePoint, worldUv_repeat worldUv_quarterY,
    worldUv_repeat worldUv_quarterX, Orientation.carriedTurns, repeat_add]

/-- Turned back by the lock, the coordinates of a point before the turn are those after it. -/
theorem rotateArea_worldUv {o : Orientation} (hl : o.lockTextures = true) (d : Direction)
    (p : Vec3 Rat) :
    rotateArea (worldUv d p).1 (worldUv d p).2 (o.lockTurns d)
      = worldUv (o.rotateDirection d) (o.rotatePoint p) := by
  rw [← o.rotateDirection_reduced, ← o.rotatePoint_reduced, worldUv_rotate, rotateArea_eq,
    Orientation.lockTurns_eq hl, Nat.mod_mod, repeat_mod_four quarterArea_four]

/-! ### Faces that show the outline of their box -/

/-- The corners of a part of a texture, in units of the whole texture. -/
def UvRect.corners {α : Type} [Scalar α] (r : UvRect α) : Quad (α × α) :=
  ⟨(inBlocks r.u1, inBlocks r.v1), (inBlocks r.u2, inBlocks r.v1), (inBlocks r.u1, inBlocks r.v2),
    (inBlocks r.u2, inBlocks r.v2)⟩

theorem get_boxCorners {α : Type} [Scalar α] (low high : Vec3 α) (i : Fin 8) :
    (boxCorners low high).get i
      = { x := inBlocks (if i.val.testBit 2 then high.x else low.x)
          y := inBlocks (if i.val.testBit 1 then high.y else low.y)
          z := inBlocks (if i.val.testBit 0 then high.z else low.z) } := by
  change (boxCorners low high)[i.val] = _
  simp [boxCorners]

/-- The four corners of a face of a box, as seen from outside. -/
theorem winding_boxCorners {α : Type} [Scalar α] (d : Direction) (low high : Vec3 α) :
    (winding d).map (boxCorners low high).get =
      let l := low.map inBlocks
      let h := high.map inBlocks
      match d with
      | .up => ⟨⟨l.x, h.y, l.z⟩, ⟨h.x, h.y, l.z⟩, ⟨l.x, h.y, h.z⟩, ⟨h.x, h.y, h.z⟩⟩
      | .down => ⟨⟨l.x, l.y, h.z⟩, ⟨h.x, l.y, h.z⟩, ⟨l.x, l.y, l.z⟩, ⟨h.x, l.y, l.z⟩⟩
      | .south => ⟨⟨l.x, h.y, h.z⟩, ⟨h.x, h.y, h.z⟩, ⟨l.x, l.y, h.z⟩, ⟨h.x, l.y, h.z⟩⟩
      | .north => ⟨⟨h.x, h.y, l.z⟩, ⟨l.x, h.y, l.z⟩, ⟨h.x, l.y, l.z⟩, ⟨l.x, l.y, l.z⟩⟩
      | .east => ⟨⟨h.x, h.y, h.z⟩, ⟨h.x, h.y, l.z⟩, ⟨h.x, l.y, h.z⟩, ⟨h.x, l.y, l.z⟩⟩
      | .west => ⟨⟨l.x, h.y, l.z⟩, ⟨l.x, h.y, h.z⟩, ⟨l.x, l.y, l.z⟩, ⟨l.x, l.y, h.z⟩⟩ := by
  cases d <;> simp only [winding, Quad.map, get_boxCorners] <;> rfl

theorem inBlocks_flip (a : Rat) :
    inBlocks (((16 : Nat) : Rat) - a) = ((1 : Nat) : Rat) - inBlocks a := by
  simp only [inBlocks]
  grind

/-- **A face shows the outline of its box**: at each corner of the face the default part of the
texture has the coordinates of the world. -/
theorem winding_worldUv (d : Direction) (low high : Vec3 Rat) :
    (defaultUv d low high).corners
      = ((winding d).map (boxCorners low high).get).map (worldUv d) := by
  rw [winding_boxCorners]
  cases d <;>
    simp only [defaultUv, UvRect.corners, Quad.map, Vec3.map, worldUv, inBlocks_flip]

/-! ### Compiled faces -/

section Sampling

variable {α : Type}

/-- If every texture coordinate is a function of the position, this holds at every corner. -/
theorem FaceQuad.uv_of_mem_corners {q : FaceQuad α} {g : Vec3 α → Vec3 α}
    (h : q.uvs = q.positions.map g) {c : Corner α} (hc : c ∈ q.corners) : c.uv = g c.position := by
  simp only [FaceQuad.corners, h, Quad.zipWith, Quad.map, Quad.toList, List.mem_cons,
    List.not_mem_nil, or_false] at hc
  rcases hc with rfl | rfl | rfl | rfl <;> rfl

variable [Scalar α]

/-- A point of a texture in the atlas, with its page; animated textures show their first frame. -/
def Atlas.sample (a : Atlas α) (id : Identifier) (uv : α × α) : Vec3 α :=
  let placed := (a.entry id).firstFrame.locate uv.1 uv.2
  ⟨placed.1, placed.2, ((a.entry id).page : α)⟩

theorem Atlas.fst_uvs (a : Atlas α) (id : Identifier) (part : UvRect α) (turns : Nat) :
    (a.uvs id part turns).1
      = part.corners.map fun c => a.sample id (rotateArea c.1 c.2 turns) := rfl

/-- A face that is written is a face of the box. -/
theorem Element.mem_faces_ofDocument {e : ElementDocument α} {d : Direction} {f : FaceDocument α}
    (hf : e.faces.get? d = some f) :
    (d, Face.ofDocument (Element.ofDocument e).low (Element.ofDocument e).high d f)
      ∈ (Element.ofDocument e).faces := by
  refine List.mem_filterMap.2 ⟨d, d.mem_all, ?_⟩
  rw [hf]
  rfl

variable [Trig α]

/-- The four corners of every face stand next to each other under the side that hides the face. -/
theorem Model.corners_siteQuad_infix (m : Model α) (o : Orientation) (atlas : Atlas α)
    {s : Element α × Direction × Face α} (hs : s ∈ m.sites) :
    (m.siteQuad o atlas s).corners
      <:+: ((compile m o atlas).bucket (o.remap s.2.2.cull)).toList := by
  have hmem : s ∈ m.sites.filter (·.2.2.cull = s.2.2.cull) := by simpa using hs
  obtain ⟨before, after, hsplit⟩ := List.append_of_mem hmem
  refine ⟨before.flatMap fun s => (m.siteQuad o atlas s).corners,
    after.flatMap fun s => (m.siteQuad o atlas s).corners, ?_⟩
  rw [bucket_compile, hsplit, List.flatMap_append, List.flatMap_cons, List.append_assoc]

end Sampling

section Locked

variable [Trig Rat]

/-- A locked face that shows the outline of its box shows the coordinates of the world. -/
theorem Model.uvs_siteQuad (m : Model Rat) (atlas : Atlas Rat) {o : Orientation}
    (hl : o.lockTextures = true) {s : Element Rat × Direction × Face Rat}
    (hr : s.1.rotation = none) (hu : s.2.2.uv = defaultUv s.2.1 s.1.low s.1.high)
    (ht : s.2.2.rotation = 0) :
    (m.siteQuad o atlas s).uvs = (m.siteQuad o atlas s).positions.map
      fun p => atlas.sample (m.resolve s.2.2.texture) (worldUv (o.rotateDirection s.2.1) p) := by
  have hshown : (m.siteQuad o atlas s).uvs
      = ((((winding s.2.1).map (boxCorners s.1.low s.1.high).get).map (worldUv s.2.1)).map
        fun c => atlas.sample (m.resolve s.2.2.texture)
          (rotateArea c.1 c.2 (o.lockTurns s.2.1))) := by
    rw [← winding_worldUv, ← Atlas.fst_uvs, ← hu, Model.siteQuad, Model.faceQuad, ht,
      Quad.turned_zero]
  rw [hshown]
  simp only [Model.siteQuad, Model.faceQuad, Quad.map, Element.get_corners_of_unturned hr,
    rotateArea_worldUv hl]

/-- **A locked texture shows the coordinates of the world.**  Take a box without turns of its own
and a face of it whose part of the texture is not written and whose texture is not turned.  Its four
corners stand together in the compiled model, the face looks to the turned side, and each corner has
the texture coordinates that the world gives to its position on this side. -/
theorem locked_texture_still (m : Model Rat) (atlas : Atlas Rat) {o : Orientation}
    (hl : o.lockTextures = true) {e : ElementDocument Rat} (he : Element.ofDocument e ∈ m.elements)
    (hr : (Element.ofDocument e).rotation = none) {d : Direction} {f : FaceDocument Rat}
    (hf : e.faces.get? d = some f) (hu : f.uv = none) (ht : faceTurns f.rotation = 0) :
    let box := Element.ofDocument e
    let face := Face.ofDocument box.low box.high d f
    let quad := m.faceQuad o atlas (box.corners o) (d, face)
    quad.corners <:+: ((compile m o atlas).bucket (o.remap face.cull)).toList ∧
    ∃ side, o.remap (some d) = some side ∧ quad.facing = some side ∧
      ∀ c ∈ quad.corners,
        c.uv = atlas.sample (m.resolve face.texture) (worldUv side c.position) := by
  intro box face quad
  have hquad : quad = m.siteQuad o atlas (box, d, face) := rfl
  have hsite : (box, d, face) ∈ m.sites := by
    refine List.mem_flatMap.2 ⟨box, he, List.mem_map.2 ⟨(d, face), ?_, rfl⟩⟩
    exact Element.mem_faces_ofDocument hf
  have hpart : face.uv = defaultUv d box.low box.high := by
    change f.uv.getD (defaultUv d box.low box.high) = _
    rw [hu, Option.getD_none]
  refine ⟨?_, o.rotateDirection d, o.remap_some d, o.remap_some d, ?_⟩
  · rw [hquad]
    exact m.corners_siteQuad_infix o atlas hsite
  · intro c hc
    rw [hquad] at hc
    exact FaceQuad.uv_of_mem_corners (m.uvs_siteQuad atlas hl hr hpart ht) hc

end Locked

/-- Sine and cosine of no turn at all. -/
@[reducible]
def noTurn : Trig Rat := ⟨fun _ => 0, fun _ => 1, 1⟩

/-- The lid of a crate, without a part of its texture. -/
def crateLid : FaceDocument Rat := ⟨none, "block/crate", none, 0, -1⟩

/-- A box that is not centred, with a lid. -/
def crateBox : ElementDocument Rat where
  corner := ⟨1, 3, 6⟩
  opposite := ⟨10, 14, 15⟩
  rotation := none
  shade := true
  faces := Table.ofList [(.up, crateLid)]

/-- A page of which the crate fills a part. -/
def crateAtlas : Atlas Rat where
  size := 64
  pages := []
  entries := Table.ofList
    [(⟨"minecraft", "block/crate"⟩,
      { page := 0
        bounds := { x := 1 / 4, y := 1 / 2, width := 1 / 4, height := 1 / 8 }
        animation := none })]

theorem locked_texture_still_crate :
    letI := noTurn
    let o : Orientation := ⟨1, 3, true⟩
    let m : Model Rat := ⟨∅, [Element.ofDocument crateBox], ∅⟩
    let box := Element.ofDocument crateBox
    let face := Face.ofDocument box.low box.high .up crateLid
    let quad := m.faceQuad o crateAtlas (box.corners o) (.up, face)
    quad.corners <:+: ((compile m o crateAtlas).bucket (some .west)).toList ∧
    ∀ c ∈ quad.corners,
      c.uv = crateAtlas.sample (m.resolve face.texture) (worldUv .west c.position) := by
  let _ := noTurn
  intro o m box face quad
  obtain ⟨hin, side, hside, -, huv⟩ := locked_texture_still (o := o) (e := crateBox) (d := .up)
    (f := crateLid) m crateAtlas rfl (List.mem_singleton.2 rfl) rfl rfl rfl rfl
  have hwest : side = .west := (Option.some.inj hside).symm
  rw [hwest] at huv
  exact ⟨hin, huv⟩

end VoxelBake
