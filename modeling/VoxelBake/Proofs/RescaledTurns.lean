/-
**Rescaling carries every corner away from the pivot, but past a quarter turn to the other side of
it.**

A rescaled turn stretches by one over the cosine of its angle, sign included, unless the cosine is
next to zero.  The bound on the magnitude of the cosine only keeps the division away from zero, so
that a turn by more than a right angle is stretched as well, by a factor that is negative: what the
turn has carried across the axis is carried back through the pivot.  A half turn is undone.
Distances never shrink, whatever the angles and however many turns follow each other.  Numbers are
read as exact rationals; of sine and cosine nothing is used but what a statement says of the turns
it is about.

Main definitions:

* `stretchFrom` — a point carried away from a pivot, across an axis;
* `ElementRotation.factor` — how far one turn stretches;
* `ElementRotation.Rescales` — **what rescaling makes of one turn**.

Main results:

* `one_le_stretchFactor_iff` — the factor is one or more exactly if the cosine is not clearly
  negative;
* `ElementRotation.turn_eq_self_iff` — the rescaled turns that leave every point in place;
* `ElementRotation.sqLength_le_apply` — no sequence of rescaled turns carries a point nearer to the
  pivot;
* `ElementRotation.rescaled_turns` — **what rescaling makes of all turns of an element**;
* `ElementRotation.half_turn_undone` — an element that a half turn leaves where it was.
-/
import Mathlib.Algebra.Order.Field.Basic
import Mathlib.Algebra.Order.Ring.Rat
import Mathlib.Data.List.Basic
import Mathlib.Tactic.LinearCombination
import Mathlib.Tactic.Linarith
import Mathlib.Tactic.NormNum
import Mathlib.Tactic.Ring
import VoxelBake.Mesh.Compile

set_option relaxedAutoImplicit false
set_option autoImplicit false

namespace VoxelBake

/-! ### Factors -/

theorem Scalar.magnitude_eq_abs (x : ℚ) : magnitude x = |x| := by
  rw [magnitude, Nat.cast_zero]
  split
  · exact (abs_of_neg ‹_›).symm
  · exact (abs_of_nonneg (not_lt.1 ‹_›)).symm

theorem stretchFactor_eq (rescale : Bool) (c : ℚ) :
    stretchFactor rescale c = if rescale = true ∧ 1 / 10000 < |c| then 1 / c else 1 := by
  simp only [stretchFactor, rescaleFactor, Scalar.magnitude_eq_abs, Bool.and_eq_true,
    decide_eq_true_eq, Nat.cast_one, Nat.cast_ofNat]

@[simp] theorem stretchFactor_false (c : ℚ) : stretchFactor false c = 1 := by
  simp [stretchFactor_eq]

theorem stretchFactor_of_le {c : ℚ} (h : |c| ≤ 1 / 10000) (rescale : Bool) :
    stretchFactor rescale c = 1 := by
  rw [stretchFactor_eq, if_neg fun hc => absurd hc.2 (not_lt.2 h)]

theorem stretchFactor_of_lt {c : ℚ} (h : 1 / 10000 < |c|) : stretchFactor true c = 1 / c := by
  rw [stretchFactor_eq, if_pos ⟨rfl, h⟩]

/-- A cosine that is stretched by is not zero. -/
theorem ne_zero_of_threshold_lt {c : ℚ} (h : 1 / 10000 < |c|) : c ≠ 0 := by
  rintro rfl
  norm_num at h

theorem one_le_abs_stretchFactor {c : ℚ} (hc : |c| ≤ 1) : 1 ≤ |stretchFactor true c| := by
  rcases le_or_gt |c| (1 / 10000) with h | h
  · rw [stretchFactor_of_le h, abs_one]
  · rw [stretchFactor_of_lt h, abs_div, abs_one]
    exact (one_le_div (abs_pos.2 (ne_zero_of_threshold_lt h))).2 hc

/-- **The factor is one or more exactly if the cosine is not clearly negative.** -/
theorem one_le_stretchFactor_iff {c : ℚ} (hc : |c| ≤ 1) :
    1 ≤ stretchFactor true c ↔ -1 / 10000 ≤ c := by
  rcases le_or_gt |c| (1 / 10000) with h | h
  · have hlow : -1 / 10000 ≤ c := by linarith [(abs_le.1 h).1]
    simp [stretchFactor_of_le h, hlow]
  · rw [stretchFactor_of_lt h]
    rcases lt_or_gt_of_ne (ne_zero_of_threshold_lt h) with hneg | hpos
    · rw [abs_of_neg hneg] at h
      have hfactor : 1 / c < 0 := one_div_neg.2 hneg
      exact ⟨fun h1 => by linarith, fun h1 => by linarith⟩
    · exact ⟨fun _ => by linarith, fun _ => (one_le_div hpos).2 (le_of_abs_le hc)⟩

/-- Otherwise it mirrors. -/
theorem stretchFactor_le_neg_one_iff {c : ℚ} (hc : |c| ≤ 1) :
    stretchFactor true c ≤ -1 ↔ c < -1 / 10000 := by
  have hfar : stretchFactor true c ≤ -1 ∨ 1 ≤ stretchFactor true c :=
    le_abs'.1 (one_le_abs_stretchFactor hc)
  rw [← not_le, ← one_le_stretchFactor_iff hc]
  constructor
  · intro h h1
    linarith
  · exact fun h => hfar.resolve_right h

theorem stretchFactor_mul_eq_one_iff {c : ℚ} :
    stretchFactor true c * c = 1 ↔ 1 / 10000 < |c| := by
  constructor
  · intro hk
    by_contra h
    rw [stretchFactor_of_le (not_lt.1 h), one_mul] at hk
    norm_num [hk] at h
  · intro h
    rw [stretchFactor_of_lt h, one_div_mul_cancel (ne_zero_of_threshold_lt h)]

/-- The square of a distance from the axis is never scaled down. -/
theorem one_le_sq_stretchFactor_mul {s c : ℚ} (h : |c| ≤ 1 / 10000 → 1 ≤ s ^ 2 + c ^ 2) :
    1 ≤ stretchFactor true c ^ 2 * (s ^ 2 + c ^ 2) := by
  rcases le_or_gt |c| (1 / 10000) with hc | hc
  · rw [stretchFactor_of_le hc, one_pow, one_mul]
    exact h hc
  · calc (1 : ℚ) ≤ (stretchFactor true c * s) ^ 2 + (stretchFactor true c * c) ^ 2 := by
          rw [stretchFactor_mul_eq_one_iff.2 hc, one_pow]
          exact le_add_of_nonneg_left (sq_nonneg _)
      _ = stretchFactor true c ^ 2 * (s ^ 2 + c ^ 2) := by ring

/-! ### Turned vectors -/

namespace Vec3

theorem add_sub_cancel (v w : Vec3 ℚ) : v + w - w = v := by
  ext <;> simp

theorem sub_add_cancel (v w : Vec3 ℚ) : v - w + w = v := by
  ext <;> simp

/-- The square of the length of a vector. -/
def sqLength (v : Vec3 ℚ) : ℚ := v.x ^ 2 + v.y ^ 2 + v.z ^ 2

/-- The square of the distance of a vector from an axis. -/
def sqAcross (axis : Axis) (v : Vec3 ℚ) : ℚ :=
  match axis with
  | .x => v.y ^ 2 + v.z ^ 2
  | .y => v.x ^ 2 + v.z ^ 2
  | .z => v.x ^ 2 + v.y ^ 2

theorem sqAcross_nonneg (axis : Axis) (v : Vec3 ℚ) : 0 ≤ v.sqAcross axis := by
  cases axis <;> exact add_nonneg (sq_nonneg _) (sq_nonneg _)

end Vec3

/-- A turned vector, coordinate by coordinate. -/
theorem Mat3.mulVec_about (axis : Axis) (s c : ℚ) (v : Vec3 ℚ) :
    (about axis s c).mulVec v = match axis with
      | .x => ⟨v.x, c * v.y - s * v.z, s * v.y + c * v.z⟩
      | .y => ⟨s * v.z + c * v.x, v.y, c * v.z - s * v.x⟩
      | .z => ⟨c * v.x - s * v.y, s * v.x + c * v.y, v.z⟩ := by
  cases axis <;>
    simp only [about, mulVec, Vec3.map, Vec3.zipWith, Nat.cast_zero, Nat.cast_one,
      Vec3.mk.injEq] <;>
    refine ⟨?_, ?_, ?_⟩ <;> ring

theorem acrossAxis_eq (axis : Axis) (k : ℚ) :
    acrossAxis axis k = match axis with
      | .x => ⟨1, k, k⟩
      | .y => ⟨k, 1, k⟩
      | .z => ⟨k, k, 1⟩ := by
  cases axis <;> simp only [acrossAxis, Nat.cast_one]

theorem Vec3.mul_acrossAxis_one (axis : Axis) (v : Vec3 ℚ) : v * acrossAxis axis 1 = v := by
  rw [acrossAxis_eq]
  cases axis <;> ext <;> simp

/-- A turn with a stretch changes lengths by what it changes distances from its axis. -/
theorem Vec3.sqLength_turned (axis : Axis) (s c k : ℚ) (v : Vec3 ℚ) :
    ((Mat3.about axis s c).mulVec v * acrossAxis axis k).sqLength
      = v.sqLength + (k ^ 2 * (s ^ 2 + c ^ 2) - 1) * v.sqAcross axis := by
  rw [Mat3.mulVec_about, acrossAxis_eq]
  cases axis <;> simp only [sqLength, sqAcross, mul_x, mul_y, mul_z] <;> ring

/-- A stretched turn of a plane that keeps a point of the diagonal in place. -/
private theorem unturned_of_eq_one {s c k : ℚ} (h₁ : (c * 1 - s * 1) * k = 1)
    (h₂ : (s * 1 + c * 1) * k = 1) : s = 0 ∧ k * c = 1 := by
  have hc : k * c = 1 := by linarith
  have hk : k ≠ 0 := left_ne_zero_of_mul_eq_one hc
  exact ⟨(mul_eq_zero.1 (by linarith : k * s = 0)).resolve_left hk, hc⟩

/-! ### Stretching away from the pivot -/

/-- A point carried away from a pivot, across an axis. -/
def stretchFrom (pivot : Vec3 ℚ) (axis : Axis) (k : ℚ) (p : Vec3 ℚ) : Vec3 ℚ :=
  (p - pivot) * acrossAxis axis k + pivot

namespace ElementRotation

variable [Trig ℚ]

/-- How far the turn by `t` stretches. -/
def factor (r : ElementRotation ℚ) (t : Axis × ℚ) : ℚ :=
  stretchFactor r.rescale (Trig.cos t.2)

/-- A turn with its stretch is the bare turn, stretched. -/
theorem turn_eq_stretchFrom (r : ElementRotation ℚ) (t : Axis × ℚ) (p : Vec3 ℚ) :
    turn r.rescale r.pivot p t = stretchFrom r.pivot t.1 (r.factor t) (turn false r.pivot p t) := by
  simp only [turn, stretchFrom, factor, stretchFactor_false, Vec3.mul_acrossAxis_one,
    Vec3.add_sub_cancel]

/-- **The rescaled turns that leave every point in place** are the half turns, and those by no
angle: their sine is zero. -/
theorem turn_eq_self_iff (pivot : Vec3 ℚ) (t : Axis × ℚ) :
    (∀ p, turn true pivot p t = p) ↔ Trig.sin t.2 = 0 ∧ 1 / 10000 < |Trig.cos t.2| := by
  obtain ⟨axis, angle⟩ := t
  rw [← stretchFactor_mul_eq_one_iff]
  constructor
  · intro h
    have hone := congrArg (· - pivot) (h (⟨1, 1, 1⟩ + pivot))
    simp only [turn, Vec3.add_sub_cancel, Mat3.mulVec_about, acrossAxis_eq] at hone
    cases axis with
    | x => exact unturned_of_eq_one (congrArg Vec3.y hone) (congrArg Vec3.z hone)
    | y => exact unturned_of_eq_one (congrArg Vec3.z hone) (congrArg Vec3.x hone)
    | z => exact unturned_of_eq_one (congrArg Vec3.x hone) (congrArg Vec3.y hone)
  · rintro ⟨hs, hk⟩ p
    have hfirst : ∀ a b : ℚ, (Trig.cos angle * a - 0 * b) * stretchFactor true (Trig.cos angle)
        = a := fun a b => by linear_combination a * hk
    have hsecond : ∀ a b : ℚ, (0 * a + Trig.cos angle * b) * stretchFactor true (Trig.cos angle)
        = b := fun a b => by linear_combination b * hk
    have hv : ∀ v : Vec3 ℚ, (Mat3.about axis (Trig.sin angle) (Trig.cos angle)).mulVec v
        * acrossAxis axis (stretchFactor true (Trig.cos angle)) = v := by
      intro v
      rw [Mat3.mulVec_about, acrossAxis_eq, hs]
      cases axis with
      | x => exact Vec3.ext (mul_one _) (hfirst _ _) (hsecond _ _)
      | y => exact Vec3.ext (hsecond _ _) (mul_one _) (hfirst _ _)
      | z => exact Vec3.ext (hfirst _ _) (hsecond _ _) (mul_one _)
    rw [turn, hv, Vec3.sub_add_cancel]

/-- No rescaled turn carries a point nearer to the pivot. -/
theorem sqLength_le_turn {t : Axis × ℚ} (h : |Trig.cos t.2| ≤ 1 / 10000 →
    1 ≤ Trig.sin t.2 ^ 2 + Trig.cos t.2 ^ 2) (pivot p : Vec3 ℚ) :
    (p - pivot).sqLength ≤ (turn true pivot p t - pivot).sqLength := by
  rw [turn, Vec3.add_sub_cancel, Vec3.sqLength_turned]
  have hgain := one_le_sq_stretchFactor_mul h
  have := mul_nonneg (sub_nonneg.2 hgain) (Vec3.sqAcross_nonneg t.1 (p - pivot))
  exact le_add_of_nonneg_right this

/-- **No sequence of rescaled turns carries a point nearer to the pivot.** -/
theorem sqLength_le_apply {r : ElementRotation ℚ} (hr : r.rescale = true)
    (h : ∀ t ∈ r.steps, |Trig.cos t.2| ≤ 1 / 10000 → 1 ≤ Trig.sin t.2 ^ 2 + Trig.cos t.2 ^ 2)
    (p : Vec3 ℚ) : (p - r.pivot).sqLength ≤ (r.apply p - r.pivot).sqLength := by
  rw [apply, hr]
  generalize r.steps = steps at h
  induction steps generalizing p with
  | nil => exact le_rfl
  | cons t ts ih =>
      calc (p - r.pivot).sqLength
          ≤ (turn true r.pivot p t - r.pivot).sqLength :=
            sqLength_le_turn (h t List.mem_cons_self) r.pivot p
        _ ≤ (ts.foldl (turn true r.pivot) (turn true r.pivot p t) - r.pivot).sqLength :=
            ih _ fun u hu => h u (List.mem_cons_of_mem t hu)

/-- What rescaling makes of the turn by `t`, which it stretches by `k`. -/
structure Rescales (r : ElementRotation ℚ) (t : Axis × ℚ) (k : ℚ) : Prop where
  /-- The two directions across the axis are stretched, away from the pivot. -/
  stretched : ∀ p, turn r.rescale r.pivot p t = stretchFrom r.pivot t.1 k (turn false r.pivot p t)
  /-- Next to a cosine of zero nothing is stretched. -/
  still : |Trig.cos t.2| ≤ 1 / 10000 → k = 1
  /-- Elsewhere the stretch makes up for the cosine. -/
  restored : 1 / 10000 < |Trig.cos t.2| → k * Trig.cos t.2 = 1
  /-- Nothing comes nearer to the axis. -/
  outward : 1 ≤ |k|
  /-- What is turned stays on its side of the pivot unless the cosine is clearly negative. -/
  widens_iff : 1 ≤ k ↔ -1 / 10000 ≤ Trig.cos t.2
  /-- If it is, the turned point is mirrored through the pivot. -/
  mirrors_iff : k ≤ -1 ↔ Trig.cos t.2 < -1 / 10000
  /-- The turn is undone if there is no sine, as for a half turn. -/
  undone_iff : (∀ p, turn r.rescale r.pivot p t = p) ↔
    Trig.sin t.2 = 0 ∧ 1 / 10000 < |Trig.cos t.2|

/-- **What rescaling makes of all turns of an element**: each is the bare turn followed by a
stretch, which widens, mirrors or undoes it as its sine and cosine tell. -/
theorem rescaled_turns (r : ElementRotation ℚ) (hr : r.rescale = true)
    (hcos : ∀ t ∈ r.steps, |Trig.cos t.2| ≤ 1) :
    (∀ p, r.apply p = r.steps.foldl (fun q t =>
      stretchFrom r.pivot t.1 (r.factor t) (turn false r.pivot q t)) p) ∧
    ∀ t ∈ r.steps, r.Rescales t (r.factor t) := by
  constructor
  · intro p
    exact List.foldl_ext _ _ p fun q t _ => r.turn_eq_stretchFrom t q
  · intro t ht
    have hfactor : r.factor t = stretchFactor true (Trig.cos t.2) := by rw [factor, hr]
    exact
      { stretched := r.turn_eq_stretchFrom t
        still := fun h => by rw [hfactor, stretchFactor_of_le h]
        restored := fun h => by rw [hfactor, stretchFactor_mul_eq_one_iff.2 h]
        outward := by rw [hfactor]; exact one_le_abs_stretchFactor (hcos t ht)
        widens_iff := by rw [hfactor]; exact one_le_stretchFactor_iff (hcos t ht)
        mirrors_iff := by rw [hfactor]; exact stretchFactor_le_neg_one_iff (hcos t ht)
        undone_iff := by rw [hr]; exact turn_eq_self_iff r.pivot t }

end ElementRotation

/-- Sine and cosine of a few angles, in degrees. -/
@[reducible]
def fewAngles : Trig ℚ where
  sin a := if a = 60 then 433 / 500 else if a = 90 then 1 else 0
  cos a := if a = 60 then 1 / 2 else if a = 90 then 0 else if a = 180 then -1 else 1
  degree := 1

namespace ElementRotation

/-- Of a third of a half turn, a half turn and a quarter turn, the first widens, the second is
undone, and the last is left alone. -/
theorem rescaled_turns_gimbal :
    letI := fewAngles
    let r : ElementRotation ℚ := ⟨⟨8, 8, 8⟩, .compound ⟨60, 180, 90⟩, true⟩
    r.rescale = true ∧ (∀ t ∈ r.steps, |Trig.cos t.2| ≤ 1) ∧
      r.steps = [(.x, 60), (.y, 180), (.z, 90)] ∧ 1 ≤ r.factor (.x, 60) ∧
      (∀ p, turn r.rescale r.pivot p (.y, 180) = p) ∧ r.factor (.z, 90) = 1 := by
  let _ := fewAngles
  intro r
  have hcos : ∀ t ∈ r.steps, |Trig.cos t.2| ≤ 1 := by decide +kernel
  have hsteps : r.steps = [(.x, 60), (.y, 180), (.z, 90)] := by decide +kernel
  obtain ⟨-, h⟩ := rescaled_turns r rfl hcos
  rw [hsteps] at h
  refine ⟨rfl, hcos, hsteps, ?_, ?_, ?_⟩
  · exact (h _ (by decide)).widens_iff.2 (by decide +kernel)
  · exact (h _ (by decide)).undone_iff.2 (by decide +kernel)
  · exact (h (.z, 90) (by decide)).still (by decide +kernel)

/-- A box in a corner that a half turn is to carry to the opposite one stays where it is. -/
theorem half_turn_undone :
    letI := fewAngles
    let r : ElementRotation ℚ := ⟨⟨8, 8, 8⟩, .single .y 180, true⟩
    let e : Element ℚ := ⟨⟨0, 0, 0⟩, ⟨8, 4, 2⟩, none, true, []⟩
    (∀ t ∈ r.steps, 1 / 10000 < |Trig.cos t.2| ∧ |Trig.cos t.2| ≤ 1) ∧
      r.steps.map r.factor = [-1] ∧
      ({ e with rotation := some r }.corners .identity) = e.corners .identity ∧
      ({ e with rotation := some { r with rescale := false } }.corners .identity)
        ≠ e.corners .identity := by
  let _ := fewAngles
  intro r e
  exact ⟨by decide +kernel, by decide +kernel, by decide +kernel, by decide +kernel⟩

end ElementRotation

end VoxelBake
