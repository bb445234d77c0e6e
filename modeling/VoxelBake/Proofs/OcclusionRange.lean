/-
**The occlusion factor of a vertex stays between nothing and all exactly as long as the vertex lies
inside the block.**

Corners of a face and samples of light are bounded, but neither of the interpolations between them
is: both take the coordinates of a vertex as they are.  Inside the block that makes means of bounded
values.  Outside, a row of light samples that rises from zero to fifteen along an axis, on a face
whose corners are all dark, gives a factor equal to the coordinate on that axis
(`FaceQuad.factor_ramp`), so that it leaves the range with the coordinate.  Since turns keep the
block in place, a model without turned elements is safe exactly if its faces, as they are written,
lie inside the block.  Numbers are read as exact rationals.

Main definitions:

* `LightSamples.InScale` — samples between zero and fifteen;
* `FaceQuad.factor` — **what the colour of a vertex is multiplied with**;
* `FaceQuad.Dimmed` — a vertex whose factor is in range whatever surrounds the block.

Main results:

* `LightSamples.at_mem` — inside the block, light stays between zero and fifteen;
* `FaceQuad.dimmed_iff` — a vertex is in range whatever surrounds it exactly inside the block;
* `factors_in_range_iff` — **the factors that drawing a model multiplies with**;
* `pillar_out_of_range` — a face twice as high as the block, lighter and darker than it can be.
-/
import VoxelBake.Proofs.Emission
import VoxelBake.Proofs.MipVisibility
import VoxelBake.Proofs.OcclusionOrder
import VoxelBake.Proofs.OutwardFaces

set_option relaxedAutoImplicit false
set_option autoImplicit false

namespace VoxelBake

/-! ### Light inside the block -/

/-- Between two values there is nothing beyond their bounds. -/
theorem Scalar.lerp_mem {low high a b t : Rat} (ha : low ≤ a ∧ a ≤ high)
    (hb : low ≤ b ∧ b ≤ high) (ht : 0 ≤ t ∧ t ≤ 1) : low ≤ lerp a b t ∧ lerp a b t ≤ high := by
  have ht' : 0 ≤ 1 - t := sub_nonneg.2 ht.2
  have hmean : lerp a b t = (1 - t) * a + t * b := by
    rw [lerp_eq]
    ring
  rw [hmean]
  constructor
  · calc low = (1 - t) * low + t * low := by ring
      _ ≤ (1 - t) * a + t * b := add_le_add (mul_le_mul_of_nonneg_left ha.1 ht')
          (mul_le_mul_of_nonneg_left hb.1 ht.1)
  · calc (1 - t) * a + t * b ≤ (1 - t) * high + t * high :=
          add_le_add (mul_le_mul_of_nonneg_left ha.2 ht') (mul_le_mul_of_nonneg_left hb.2 ht.1)
      _ = high := by ring

namespace LightSamples

/-- Whether all samples lie between zero and fifteen. -/
def InScale : LightSamples Rat → Prop
  | .corners samples => ∀ (n : Nat) (h : n < 8), 0 ≤ samples[n] ∧ samples[n] ≤ 15
  | .neighbours n =>
      ∀ l ∈ [n.up, n.down, n.north, n.south, n.east, n.west, n.own], 0 ≤ l ∧ l ≤ 15

/-- **Inside the block, light stays between zero and fifteen.** -/
theorem at_mem {s : LightSamples Rat} (hs : s.InScale) (facing : CullSide) {p : Vec3 Rat}
    (hp : p.InBlock) : 0 ≤ s.at facing p ∧ s.at facing p ≤ 15 := by
  obtain ⟨hx, hy, hz⟩ := hp
  cases s with
  | corners samples =>
      have hupward : ∀ low : Fin 4, 0 ≤ Scalar.lerp samples[low.val] samples[low.val + 4] p.y ∧
          Scalar.lerp samples[low.val] samples[low.val + 4] p.y ≤ 15 := fun low =>
        Scalar.lerp_mem (hs _ _) (hs _ _) hy
      exact Scalar.lerp_mem (Scalar.lerp_mem (hupward 0) (hupward 1) hx)
        (Scalar.lerp_mem (hupward 2) (hupward 3) hx) hz
  | neighbours n =>
      simp only [InScale, List.forall_mem_cons] at hs
      obtain ⟨hup, hdown, hnorth, hsouth, heast, hwest, hown, -⟩ := hs
      have hbrighter : ∀ l, 0 ≤ l ∧ l ≤ 15 →
          0 ≤ Scalar.greatest l n.own ∧ Scalar.greatest l n.own ≤ 15 := by
        intro l hl
        rw [Scalar.greatest_eq_max]
        exact ⟨hl.1.trans (le_max_left ..), max_le hl.2 hown.2⟩
      rcases facing with - | d
      · exact hbrighter _ hown
      · cases d <;> exact hbrighter _ ‹_›

/-- Light that rises along an axis, from zero on one side of the block to fifteen on the other. -/
def ramp : Axis → LightSamples Rat
  | .x => .corners #v[0, 15, 0, 15, 0, 15, 0, 15]
  | .y => .corners #v[0, 0, 0, 0, 15, 15, 15, 15]
  | .z => .corners #v[0, 0, 15, 15, 0, 0, 15, 15]

theorem inScale_ramp (axis : Axis) : (ramp axis).InScale := by
  cases axis <;> simp only [ramp, InScale] <;> decide +kernel

end LightSamples

/-- The coordinate on an axis. -/
def Vec3.along (p : Vec3 Rat) : Axis → Rat
  | .x => p.x
  | .y => p.y
  | .z => p.z

theorem Vec3.inBlock_iff_along (p : Vec3 Rat) :
    p.InBlock ↔ ∀ axis, 0 ≤ p.along axis ∧ p.along axis ≤ 1 := by
  constructor
  · rintro ⟨hx, hy, hz⟩ axis
    cases axis
    · exact hx
    · exact hy
    · exact hz
  · intro h
    exact ⟨h .x, h .y, h .z⟩

/-- Such light goes on outside of the block. -/
theorem LightSamples.at_ramp (axis : Axis) (facing : CullSide) (p : Vec3 Rat) :
    (ramp axis).at facing p = 15 * p.along axis := by
  have hlight : ∀ a b c d e f g h : Rat, cornerLightAt #v[a, b, c, d, e, f, g, h] p
      = Scalar.lerp (Scalar.lerp (Scalar.lerp a e p.y) (Scalar.lerp b f p.y) p.x)
        (Scalar.lerp (Scalar.lerp c g p.y) (Scalar.lerp d h p.y) p.x) p.z :=
    fun _ _ _ _ _ _ _ _ => rfl
  cases axis <;> simp only [ramp, LightSamples.at, hlight, Scalar.lerp_eq, Vec3.along] <;> ring

/-! ### The factor of a vertex -/

namespace FaceQuad

/-- The side whose cells darken a face: the one that hides it, or else the one it looks to. -/
def shadedSide (f : FaceQuad Rat) : CullSide := f.cull.or f.facing

/-- The cells that darken a face: those in front of the block if a neighbour hides it, otherwise
those in its layer. -/
def shadingRing (f : FaceQuad Rat) : Direction → Ring :=
  match f.cull with
  | none => innerRing
  | some _ => outerRing

/-- What the colour of a vertex of a face is multiplied with. -/
def factor (ctx : EmitContext Rat) (f : FaceQuad Rat) (p : Vec3 Rat) : Rat :=
  keptLight ctx f.shadedSide (ringCorners f.shadingRing f.shadedSide ctx.mask ctx.intensity) p
    (ctx.lights.at f.cull p)

/-- The colour of a vertex is its tint, multiplied with the factor. -/
theorem colour_shade [Gamma Rat] (ctx : EmitContext Rat) (f : FaceQuad Rat) (k : Corner Rat) :
    (f.shade ctx k).colour
      = (tintColour ctx k.tint).map fun a => Gamma.decode a * f.factor ctx k.position := by
  rw [shade, factor, shadedSide, shadingRing]
  cases f.cull with
  | none =>
      rw [← innerCorners_eq]
      rfl
  | some d =>
      rw [← outerCorners_eq]
      rfl

/-- Inside the block the factor is in range. -/
theorem factor_mem {ctx : EmitContext Rat} (hi : 0 ≤ ctx.intensity) (hl : ctx.lights.InScale)
    (f : FaceQuad Rat) {p : Vec3 Rat} (hp : p.InBlock) :
    0 ≤ f.factor ctx p ∧ f.factor ctx p ≤ 1 := by
  rw [factor, keptLight]
  split
  · obtain ⟨hdark, hbright⟩ := LightSamples.at_mem hl f.cull hp
    exact occlusionAt_mem _ _ hi hp hdark hbright
  · exact ⟨zero_le_one, le_refl _⟩

/-- A vertex whose factor is in range whatever surrounds the block. -/
def Dimmed (f : FaceQuad Rat) (p : Vec3 Rat) : Prop :=
  ∀ ctx : EmitContext Rat, 0 ≤ ctx.intensity → ctx.lights.InScale →
    0 ≤ f.factor ctx p ∧ f.factor ctx p ≤ 1

/-- A block among occupied cells, in light that rises along an axis. -/
def walledIn (axis : Axis) : EmitContext Rat :=
  { EmitContext.plain with
    mask := BitVec.allOnes 32
    intensity := 1
    lights := .ramp axis }

/-- Among occupied cells all corners are dark. -/
theorem ringCorners_walledIn (f : FaceQuad Rat) (d : Direction) :
    ringCorners f.shadingRing (some d) (BitVec.allOnes 32) 1 = Quad.constant 0 := by
  have table : ∀ d ∈ Direction.all,
      ringCorners innerRing (some d) (BitVec.allOnes 32) 1 = Quad.constant 0 ∧
        ringCorners outerRing (some d) (BitVec.allOnes 32) 1 = Quad.constant 0 := by
    decide +kernel
  obtain ⟨hinner, houter⟩ := table d d.mem_all
  rw [shadingRing]
  cases f.cull with
  | none => exact hinner
  | some _ => exact houter

/-- There the factor of a vertex is its coordinate, wherever it lies. -/
theorem factor_walledIn {f : FaceQuad Rat} {d : Direction} (hf : f.shadedSide = some d)
    (axis : Axis) (p : Vec3 Rat) : f.factor (walledIn axis) p = p.along axis := by
  have hlight : (walledIn axis).lights.at f.cull p = 15 * p.along axis :=
    LightSamples.at_ramp axis f.cull p
  have hdark : ringCorners f.shadingRing f.shadedSide (walledIn axis).mask
      (walledIn axis).intensity = Quad.constant 0 := by
    rw [hf]
    exact f.ringCorners_walledIn d
  have hshaded : ((0 : Nat) : Rat) < (walledIn axis).intensity := zero_lt_one
  rw [factor, keptLight, if_pos hshaded, hdark, hlight, occlusionAt_eq, Quad.blend_constant]
  ring

/-- **A vertex is in range whatever surrounds the block exactly if it lies inside it.** -/
theorem dimmed_iff {f : FaceQuad Rat} {d : Direction} (hf : f.shadedSide = some d)
    (p : Vec3 Rat) : f.Dimmed p ↔ p.InBlock := by
  constructor
  · intro h
    refine (Vec3.inBlock_iff_along p).2 fun axis => ?_
    rw [← factor_walledIn hf axis p]
    exact h (walledIn axis) zero_le_one (LightSamples.inScale_ramp axis)
  · intro hp ctx hi hl
    exact factor_mem hi hl f hp

end FaceQuad

/-! ### Models -/

/-- Turns keep the block in place. -/
theorem Orientation.inBlock_rotatePoint (o : Orientation) (p : Vec3 Rat) :
    (o.rotatePoint p).InBlock ↔ p.InBlock := by
  have hone : ((1 : Nat) : Rat) = 1 := Nat.cast_one
  refine of_quarters (P := fun _ f => ∀ p : Vec3 Rat, (f p).InBlock ↔ p.InBlock) ?_ ?_ ?_ o p
  · intro p
    exact Iff.rfl
  · intro _ f ih p
    rw [← ih p]
    simp only [Function.comp_apply, quarterX, Vec3.InBlock]
    rw [hone]
    grind
  · intro _ f ih p
    rw [← ih p]
    simp only [Function.comp_apply, quarterY, Vec3.InBlock]
    rw [hone]
    grind

section Models

variable [Trig Rat]

/-- Some side darkens each compiled face. -/
theorem Model.exists_shadedSide {m : Model Rat} {o : Orientation} {atlas : Atlas Rat}
    {f : FaceQuad Rat} (hf : f ∈ m.faceQuads o atlas) : ∃ d, f.shadedSide = some d := by
  obtain ⟨e, -, hf⟩ := List.mem_flatMap.1 hf
  obtain ⟨⟨d, face⟩, -, rfl⟩ := List.mem_map.1 hf
  have hfacing : (m.faceQuad o atlas (e.corners o) (d, face)).facing
      = some (o.rotateDirection d) := o.remap_some d
  rw [FaceQuad.shadedSide, hfacing]
  cases (m.faceQuad o atlas (e.corners o) (d, face)).cull with
  | none => exact ⟨_, rfl⟩
  | some c => exact ⟨c, rfl⟩

/-- The vertices of a model without turned elements lie inside the block exactly if its faces, as
they are written, do. -/
theorem Model.inBlock_iff {m : Model Rat} (hm : ∀ e ∈ m.elements, e.rotation = none)
    (o : Orientation) (atlas : Atlas Rat) :
    (∀ f ∈ m.faceQuads o atlas, ∀ k ∈ f.corners, k.position.InBlock) ↔
      ∀ e ∈ m.elements, ∀ f ∈ e.faces,
        ∀ p ∈ ((winding f.1).map (boxCorners e.low e.high).get).toList, p.InBlock := by
  have hface : ∀ e ∈ m.elements, ∀ f : Direction × Face Rat,
      (∀ k ∈ (m.faceQuad o atlas (e.corners o) f).corners, k.position.InBlock) ↔
        ∀ p ∈ ((winding f.1).map (boxCorners e.low e.high).get).toList, p.InBlock := by
    intro e he f
    have hpositions : (m.faceQuad o atlas (e.corners o) f).corners.map Corner.position
        = (((winding f.1).map (boxCorners e.low e.high).get).toList).map o.rotatePoint :=
      congrArg Quad.toList (m.positions_unturned o atlas (hm e he) f)
    rw [← List.forall_mem_map (f := Corner.position) (P := Vec3.InBlock), hpositions,
      List.forall_mem_map]
    simp only [o.inBlock_rotatePoint]
  simp only [Model.faceQuads, List.forall_mem_flatMap, List.forall_mem_map]
  exact forall₂_congr fun e he => forall₂_congr fun f _ => hface e he f

/-- **The factors that drawing a model multiplies with** are in range exactly as long as the model
stays inside the block.  Each colour is that of the tint, multiplied with the factor of its vertex;
whatever surrounds the block, the factor is no less than zero and no more than one if the vertex
lies inside the block, and only then.  With no element turned on its own, all vertices do so exactly
if the faces of the elements, as they are written, lie inside the block. -/
theorem factors_in_range_iff [Gamma Rat] (m : Model Rat)
    (hm : ∀ e ∈ m.elements, e.rotation = none) (o : Orientation) (atlas : Atlas Rat) :
    (∀ ctx : EmitContext Rat, (blockVertices (compile m o atlas) ctx).toList.map Vertex.colour
      = ctx.sides.drawn.flatMap fun c =>
          ((m.faceQuads o atlas).filter (·.cull = c)).flatMap fun f => f.corners.map fun k =>
            (tintColour ctx k.tint).map fun a => Gamma.decode a * f.factor ctx k.position) ∧
    (∀ f ∈ m.faceQuads o atlas, ∀ k ∈ f.corners,
      (f.Dimmed k.position ↔ k.position.InBlock)) ∧
    ((∀ f ∈ m.faceQuads o atlas, ∀ k ∈ f.corners, f.Dimmed k.position) ↔
      ∀ e ∈ m.elements, ∀ f ∈ e.faces,
        ∀ p ∈ ((winding f.1).map (boxCorners e.low e.high).get).toList, p.InBlock) := by
  have hvertex : ∀ f ∈ m.faceQuads o atlas, ∀ k ∈ f.corners,
      (f.Dimmed k.position ↔ k.position.InBlock) := by
    intro f hf k _
    obtain ⟨d, hd⟩ := Model.exists_shadedSide hf
    exact FaceQuad.dimmed_iff hd k.position
  refine ⟨?_, hvertex, ?_⟩
  · intro ctx
    rw [blockVertices, Array.toList_flatMap, List.map_flatMap]
    refine List.flatMap_congr fun c _ => ?_
    rw [compile, toList_bucketVertices, List.map_flatMap]
    simp only [List.map_map, Function.comp_def, FaceQuad.colour_shade]
  · rw [← Model.inBlock_iff hm o atlas]
    exact forall₂_congr fun f hf => forall₂_congr fun k hk => hvertex f hf k hk

end Models

/-- The trunk stays inside the block, however it is turned. -/
theorem factors_in_range_iff_trunk :
    letI := noTurn
    let m : Model Rat := ⟨∅, [trunk], ∅⟩
    (∀ e ∈ m.elements, e.rotation = none) ∧
      ∀ f ∈ m.faceQuads ⟨1, 3, false⟩ crateAtlas, ∀ k ∈ f.corners, f.Dimmed k.position := by
  let _ := noTurn
  let _ := Mip.straight
  intro m
  have hm : ∀ e ∈ m.elements, e.rotation = none := by decide
  obtain ⟨-, -, hinside⟩ := factors_in_range_iff m hm ⟨1, 3, false⟩ crateAtlas
  exact ⟨hm, hinside.2 (by decide +kernel)⟩

/-- A side of a pillar, hidden by the neighbour in front. -/
def pillarSide : Face Rat := ⟨⟨0, 0, 16, 16⟩, .slot "side", some .south, 0, -1⟩

/-- A pillar that stands out of the block as far above as below. -/
def pillar : Element Rat := ⟨⟨0, -16, 0⟩, ⟨16, 32, 16⟩, none, true, [(.south, pillarSide)]⟩

/-- Darkness, and three occupied cells in front of the upper edge of the south side. -/
def underEaves : EmitContext Rat :=
  { EmitContext.plain with
    mask := 0x7000000
    intensity := 1 / 2
    lights := .uniform 0 }

/-- The side of the pillar is drawn darker than black above and brighter than white below. -/
theorem pillar_out_of_range :
    letI := noTurn
    letI := Mip.straight
    let m : Model Rat := ⟨∅, [pillar], ∅⟩
    (∀ e ∈ m.elements, e.rotation = none) ∧ 0 ≤ underEaves.intensity ∧
      underEaves.lights.InScale ∧
      ((m.faceQuads .identity crateAtlas).flatMap fun f =>
        f.corners.map fun k => f.factor underEaves k.position) = [-1, -1, 2, 2] ∧
      (blockVertices (compile m .identity crateAtlas) underEaves).toList.map Vertex.colour
        = [Vec3.uniform (-1), Vec3.uniform (-1), Vec3.uniform 2, Vec3.uniform 2] := by
  let _ := noTurn
  let _ := Mip.straight
  intro m
  have hdark : ∀ (n : Nat) (h : n < 8), 0 ≤ (Vector.replicate 8 ((0 : Nat) : Rat))[n] ∧
      (Vector.replicate 8 ((0 : Nat) : Rat))[n] ≤ 15 := by
    decide +kernel
  exact ⟨by decide, by decide +kernel, hdark, by decide +kernel, by decide +kernel⟩

end VoxelBake
