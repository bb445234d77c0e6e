/-
**More occupied cells, a higher intensity and less light never brighten a point.**

The light that a point of a face keeps is a mean of what the four corners keep, each weighted by how
near it is, and is then lifted towards one by the light that falls on the point.  Inside the block
the weights are not negative, so the mean rises with the corners (`Quad.blend_mono`); a corner falls
with every cell that becomes occupied and with the intensity.  Since corners keep something between
nothing and all, so do the points inside the block.  Numbers are read as exact rationals.

Main definitions:

* `Vec3.InBlock` — a point inside the block;
* `Quad.Below` — corners that keep no more than others;
* `Quad.blend` — **the mean of the corners at a point**.

Main results:

* `occlusionAt_eq` — what a point keeps, in terms of the mean and of the light;
* `Quad.blend_mono` — the mean rises with the corners;
* `occlusionAt_mem` — inside the block a point keeps something between nothing and all;
* `occlusion_monotone` — **what a point keeps falls with the cells and the intensity and rises with
  the light**.
-/
import Mathlib.Algebra.Order.Ring.Rat
import Mathlib.Tactic.GCongr
import Mathlib.Tactic.Linarith
import Mathlib.Tactic.Ring
import VoxelBake.Mesh.Emit

set_option relaxedAutoImplicit false
set_option autoImplicit false

namespace VoxelBake

/-! ### Points between the corners -/

/-- The point at a fraction of the way between two numbers. -/
theorem Scalar.lerp_eq (a b t : Rat) : lerp a b t = a + (b - a) * t := rfl

/-- The larger of two numbers. -/
theorem Scalar.greatest_eq_max (a b : Rat) : greatest a b = max a b := by
  change (if a < b then b else if b < a then a else if a == a then a else b) = max a b
  grind

/-- Whether a point lies inside the block. -/
def Vec3.InBlock (p : Vec3 Rat) : Prop :=
  (0 ≤ p.x ∧ p.x ≤ 1) ∧ (0 ≤ p.y ∧ p.y ≤ 1) ∧ 0 ≤ p.z ∧ p.z ≤ 1

instance (p : Vec3 Rat) : Decidable p.InBlock := inferInstanceAs (Decidable (_ ∧ _))

/-- Within the plane of a face a point keeps two of its coordinates. -/
theorem facePlane_of_coordinates {P : Rat → Prop} (hzero : P 0) {p : Vec3 Rat} (hx : P p.x)
    (hy : P p.y) (hz : P p.z) (facing : CullSide) :
    P (facePlane facing p).1 ∧ P (facePlane facing p).2 := by
  rcases facing with - | d
  · exact ⟨hzero, hzero⟩
  · cases d
    · exact ⟨hx, hz⟩
    · exact ⟨hz, hx⟩
    · exact ⟨hy, hx⟩
    · exact ⟨hx, hy⟩
    · exact ⟨hz, hy⟩
    · exact ⟨hy, hz⟩

namespace Quad

/-- Whether every corner keeps no more than the same corner of another face. -/
structure Below (q q' : Quad Rat) : Prop where
  topLeft : q.topLeft ≤ q'.topLeft
  topRight : q.topRight ≤ q'.topRight
  bottomLeft : q.bottomLeft ≤ q'.bottomLeft
  bottomRight : q.bottomRight ≤ q'.bottomRight

/-- The same value at every corner. -/
def constant (a : Rat) : Quad Rat := ⟨a, a, a, a⟩

/-- The mean of the corners at a point that lies `h` of the way to the right and `v` of the way
up. -/
def blend (q : Quad Rat) (h v : Rat) : Rat :=
  (1 - h) * ((1 - v) * q.bottomLeft + v * q.topLeft)
    + h * ((1 - v) * q.bottomRight + v * q.topRight)

@[simp] theorem blend_constant (a h v : Rat) : (constant a).blend h v = a := by
  simp only [blend, constant]
  ring

/-- **The mean rises with the corners.** -/
theorem blend_mono {q q' : Quad Rat} (hq : q.Below q') {h v : Rat} (hh : 0 ≤ h ∧ h ≤ 1)
    (hv : 0 ≤ v ∧ v ≤ 1) : q.blend h v ≤ q'.blend h v := by
  have hh' : 0 ≤ 1 - h := sub_nonneg.2 hh.2
  have hv' : 0 ≤ 1 - v := sub_nonneg.2 hv.2
  have hleft : (1 - v) * q.bottomLeft + v * q.topLeft
      ≤ (1 - v) * q'.bottomLeft + v * q'.topLeft :=
    add_le_add (mul_le_mul_of_nonneg_left hq.bottomLeft hv')
      (mul_le_mul_of_nonneg_left hq.topLeft hv.1)
  have hright : (1 - v) * q.bottomRight + v * q.topRight
      ≤ (1 - v) * q'.bottomRight + v * q'.topRight :=
    add_le_add (mul_le_mul_of_nonneg_left hq.bottomRight hv')
      (mul_le_mul_of_nonneg_left hq.topRight hv.1)
  exact add_le_add (mul_le_mul_of_nonneg_left hleft hh') (mul_le_mul_of_nonneg_left hright hh.1)

end Quad

/-- What a point keeps: it misses what the mean of the corners misses, as far as the light does not
make up for it. -/
theorem occlusionAt_eq (facing : CullSide) (q : Quad Rat) (p : Vec3 Rat) (light : Rat) :
    occlusionAt facing q p light
      = 1 - (1 - q.blend (facePlane facing p).1 (facePlane facing p).2) * (1 - light / 15) := by
  have hone : ((1 : Nat) : Rat) = 1 := Nat.cast_one
  have hfifteen : light / ((15 : Nat) : Rat) = light / 15 := rfl
  simp only [occlusionAt, Scalar.lerp_eq, Quad.blend]
  rw [hone, hfifteen]
  ring

/-- With full corners nothing is lost. -/
theorem occlusionAt_constant_one (facing : CullSide) (p : Vec3 Rat) (light : Rat) :
    occlusionAt facing (Quad.constant 1) p light = 1 := by
  rw [occlusionAt_eq, Quad.blend_constant]
  ring

/-- **What a point keeps rises with the corners and with the light.** -/
theorem occlusionAt_mono (facing : CullSide) {q q' : Quad Rat} (hq : q.Below q')
    (hone : q'.Below (Quad.constant 1)) {p : Vec3 Rat} (hp : p.InBlock) {light light' : Rat}
    (hlight : light ≤ light') (hfull : light' ≤ 15) :
    occlusionAt facing q p light ≤ occlusionAt facing q' p light' := by
  obtain ⟨hx, hy, hz⟩ := hp
  obtain ⟨hh, hv⟩ := facePlane_of_coordinates (P := fun a => 0 ≤ a ∧ a ≤ 1)
    ⟨le_refl _, zero_le_one⟩ hx hy hz facing
  have hmean := Quad.blend_mono hq hh hv
  have hmean' := Quad.blend_mono hone hh hv
  rw [Quad.blend_constant] at hmean'
  rw [occlusionAt_eq, occlusionAt_eq]
  refine sub_le_sub_left (mul_le_mul ?_ ?_ ?_ ?_) 1 <;> linarith

/-! ### Corners -/

section Corners

variable {m m' : NeighbourMask} {i i' : Rat}

theorem shade_nonneg (hi : 0 ≤ i) (cell : Nat) : 0 ≤ shade m i cell := by
  rw [shade]
  split
  · exact hi
  · exact le_refl _

/-- A cell that is not occupied takes nothing away, an occupied one the intensity. -/
theorem shade_mono (hm : ∀ cell, m.getLsbD cell = true → m'.getLsbD cell = true) (hi : 0 ≤ i)
    (hi' : i ≤ i') (cell : Nat) : shade m i cell ≤ shade m' i' cell := by
  by_cases hcell : m.getLsbD cell = true
  · rw [shade, shade, if_pos hcell, if_pos (hm cell hcell)]
    exact hi'
  · rw [shade, if_neg hcell]
    exact shade_nonneg (hi.trans hi') cell

/-- What a corner keeps. -/
theorem cornerLight_eq (side across side' : Nat) :
    cornerLight m i side across side'
      = max (1 - (shade m i side + shade m i across + shade m i side')) 0 := by
  rw [cornerLight, Scalar.greatest_eq_max, sub_sub, sub_sub, ← add_assoc]
  rfl

theorem cornerLight_antitone (hm : ∀ cell, m.getLsbD cell = true → m'.getLsbD cell = true)
    (hi : 0 ≤ i) (hi' : i ≤ i') (side across side' : Nat) :
    cornerLight m' i' side across side' ≤ cornerLight m i side across side' := by
  rw [cornerLight_eq, cornerLight_eq]
  have hmono := shade_mono hm hi hi'
  gcongr <;> exact hmono _

theorem cornerLight_nonneg (side across side' : Nat) : 0 ≤ cornerLight m i side across side' := by
  rw [cornerLight_eq]
  exact le_max_right ..

theorem cornerLight_le_one (hi : 0 ≤ i) (side across side' : Nat) :
    cornerLight m i side across side' ≤ 1 := by
  rw [cornerLight_eq]
  have hshade := shade_nonneg (m := m) hi
  refine max_le ?_ zero_le_one
  linarith [hshade side, hshade across, hshade side']

namespace Ring

variable (r : Ring)

theorem corners_antitone (hm : ∀ cell, m.getLsbD cell = true → m'.getLsbD cell = true)
    (hi : 0 ≤ i) (hi' : i ≤ i') : (r.corners m' i').Below (r.corners m i) := by
  constructor <;> exact cornerLight_antitone hm hi hi' ..

theorem constant_zero_below_corners : (Quad.constant 0).Below (r.corners m i) := by
  constructor <;> exact cornerLight_nonneg ..

theorem corners_below_constant_one (hi : 0 ≤ i) : (r.corners m i).Below (Quad.constant 1) := by
  constructor <;> exact cornerLight_le_one hi ..

end Ring

end Corners

/-! ### Faces -/

/-- What the corners of a face keep if each side has its own ring of cells. -/
def ringCorners (ring : Direction → Ring) (facing : CullSide) (m : NeighbourMask) (i : Rat) :
    Quad Rat :=
  facing.elim unshaded fun d => (ring d).corners m i

theorem outerCorners_eq (facing : CullSide) (m : NeighbourMask) (i : Rat) :
    outerCorners facing m i = ringCorners outerRing facing m i := by
  cases facing <;> rfl

theorem innerCorners_eq (facing : CullSide) (m : NeighbourMask) (i : Rat) :
    innerCorners facing m i = ringCorners innerRing facing m i := by
  cases facing <;> rfl

section Faces

variable (ring : Direction → Ring) (facing : CullSide) {m m' : NeighbourMask} {i i' : Rat}

theorem ringCorners_antitone (hm : ∀ cell, m.getLsbD cell = true → m'.getLsbD cell = true)
    (hi : 0 ≤ i) (hi' : i ≤ i') :
    (ringCorners ring facing m' i').Below (ringCorners ring facing m i) := by
  cases facing with
  | none => exact ⟨le_refl _, le_refl _, le_refl _, le_refl _⟩
  | some d => exact (ring d).corners_antitone hm hi hi'

theorem constant_zero_below_ringCorners :
    (Quad.constant 0).Below (ringCorners ring facing m i) := by
  cases facing with
  | none => exact ⟨zero_le_one, zero_le_one, zero_le_one, zero_le_one⟩
  | some d => exact (ring d).constant_zero_below_corners

theorem ringCorners_below_constant_one (hi : 0 ≤ i) :
    (ringCorners ring facing m i).Below (Quad.constant 1) := by
  cases facing with
  | none => exact ⟨le_refl _, le_refl _, le_refl _, le_refl _⟩
  | some d => exact (ring d).corners_below_constant_one hi

/-- **Inside the block a point keeps something between nothing and all.** -/
theorem occlusionAt_mem (hi : 0 ≤ i) {p : Vec3 Rat} (hp : p.InBlock) {light : Rat}
    (hlight : 0 ≤ light) (hfull : light ≤ 15) :
    0 ≤ occlusionAt facing (ringCorners ring facing m i) p light ∧
      occlusionAt facing (ringCorners ring facing m i) p light ≤ 1 := by
  have hone := ringCorners_below_constant_one ring facing (m := m) hi
  constructor
  · have hdark : occlusionAt facing (Quad.constant 0) p 0 = 0 := by
      rw [occlusionAt_eq, Quad.blend_constant]
      ring
    rw [← hdark]
    exact occlusionAt_mono facing (constant_zero_below_ringCorners ring facing) hone hp hlight
      hfull
  · rw [← occlusionAt_constant_one facing p light]
    exact occlusionAt_mono facing hone ⟨le_refl _, le_refl _, le_refl _, le_refl _⟩ hp (le_refl _)
      hfull

end Faces

/-- **What a point keeps falls with the cells and the intensity and rises with the light.**  Inside
the block, more occupied cells, a higher intensity or less light never brighten it, on a face on the
boundary of the block or inside it. -/
theorem occlusion_monotone (facing : CullSide) {p : Vec3 Rat} (hp : p.InBlock)
    {m m' : NeighbourMask} (hm : ∀ cell, m.getLsbD cell = true → m'.getLsbD cell = true)
    {i i' : Rat} (hi : 0 ≤ i) (hi' : i ≤ i') {light light' : Rat} (hlight : light' ≤ light)
    (hfull : light ≤ 15) :
    occlusionAt facing (outerCorners facing m' i') p light'
        ≤ occlusionAt facing (outerCorners facing m i) p light ∧
      occlusionAt facing (innerCorners facing m' i') p light'
        ≤ occlusionAt facing (innerCorners facing m i) p light := by
  have hring : ∀ ring, occlusionAt facing (ringCorners ring facing m' i') p light'
      ≤ occlusionAt facing (ringCorners ring facing m i) p light := fun ring =>
    occlusionAt_mono facing (ringCorners_antitone ring facing hm hi hi')
      (ringCorners_below_constant_one ring facing hi) hp hlight hfull
  simp only [outerCorners_eq, innerCorners_eq]
  exact ⟨hring outerRing, hring innerRing⟩

/-- A point of the upper side, once with one cell above it and once with two. -/
theorem occlusion_monotone_up :
    (⟨1, 1, 1 / 4⟩ : Vec3 Rat).InBlock ∧
      occlusionAt (some .up) (outerCorners (some .up) 0x6000000 (1 / 2 : Rat)) ⟨1, 1, 1 / 4⟩ 3
        ≤ occlusionAt (some .up) (outerCorners (some .up) 0x4000000 (1 / 5 : Rat)) ⟨1, 1, 1 / 4⟩
          12 := by
  have hp : (⟨1, 1, 1 / 4⟩ : Vec3 Rat).InBlock := by decide +kernel
  have hm : ∀ cell, (0x4000000 : NeighbourMask).getLsbD cell = true →
      (0x6000000 : NeighbourMask).getLsbD cell = true := by
    intro cell hcell
    have hor : (0x6000000 : NeighbourMask) = 0x4000000 ||| 0x2000000 := by decide
    rw [hor, BitVec.getLsbD_or, hcell, Bool.true_or]
  exact ⟨hp, (occlusion_monotone (some .up) hp hm (by norm_num) (by norm_num) (by norm_num)
    (by norm_num)).1⟩

end VoxelBake
