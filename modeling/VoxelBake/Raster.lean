/-
Images.

A raster is a grid of texels, row by row from the top left.  It is read through
`Raster.texel`, which gives a transparent texel everywhere outside of it, and made with
`Raster.generate`; these two are inverse to each other inside the grid, and every other operation
is written with them.

* `Texel`, `Raster` — one point of an image, and an image;
* `Raster.texel`, `Raster.generate` — reading and making images;
* `Raster.fill`, `Raster.clear` — images of one colour;
* `Raster.paste` — one image laid over a part of another;
* `Raster.resample` — an image of another size, each texel taken from the nearest one;
* `Raster.texel_generate`, `Raster.texel_paste` — what the new texels are;
* `Raster.texel_related` — images of one size are related everywhere if they are inside;
* `Raster.ext_texel` — an image is determined by its size and its texels.
-/
import VoxelBake.Scalar

set_option relaxedAutoImplicit false
set_option autoImplicit false

namespace VoxelBake

/-- One point of an image: three colour channels and the opacity. -/
structure Texel where
  /-- Red. -/
  red : UInt8
  /-- Green. -/
  green : UInt8
  /-- Blue. -/
  blue : UInt8
  /-- Opacity. -/
  alpha : UInt8
deriving DecidableEq, Inhabited

/-- The texel that is fully transparent and black. -/
def Texel.clear : Texel := ⟨0, 0, 0, 0⟩

/-- Whether anything of a texel can be seen. -/
def Texel.isVisible (t : Texel) : Bool := t.alpha != 0

/-- An image: its size and its texels row by row. -/
structure Raster where
  /-- Texels per row. -/
  width : Nat
  /-- Number of rows. -/
  height : Nat
  /-- The texels, row by row. -/
  texels : Array Texel
  /-- There are as many texels as the size says. -/
  size_eq : texels.size = width * height
deriving DecidableEq

namespace Raster

/-- How many texels an image has. -/
def area (r : Raster) : Nat := r.width * r.height

/-- The image of a given size whose texel at column `x` and row `y` is `f x y`. -/
def generate (width height : Nat) (f : Nat → Nat → Texel) : Raster where
  width := width
  height := height
  texels := Array.ofFn (n := width * height) fun i => f (i % width) (i / width)
  size_eq := by simp

/-- The texel at column `x` and row `y`; transparent outside of the image. -/
def texel (r : Raster) (x y : Nat) : Texel :=
  if x < r.width ∧ y < r.height then r.texels.getD (y * r.width + x) Texel.clear else Texel.clear

@[simp] theorem width_generate (w h : Nat) (f : Nat → Nat → Texel) :
    (generate w h f).width = w := rfl

@[simp] theorem height_generate (w h : Nat) (f : Nat → Nat → Texel) :
    (generate w h f).height = h := rfl

theorem texel_generate {w h x y : Nat} (f : Nat → Nat → Texel) (hx : x < w) (hy : y < h) :
    (generate w h f).texel x y = f x y := by
  have hi : y * w + x < w * h := by
    calc y * w + x < y * w + w := by omega
      _ = (y + 1) * w := by rw [Nat.add_mul, Nat.one_mul]
      _ ≤ h * w := Nat.mul_le_mul_right _ hy
      _ = w * h := Nat.mul_comm _ _
  have hm : (y * w + x) % w = x := by
    rw [Nat.add_comm, Nat.add_mul_mod_self_right, Nat.mod_eq_of_lt hx]
  have hd : (y * w + x) / w = y := by
    rw [Nat.add_comm, Nat.add_mul_div_right _ _ (by omega), Nat.div_eq_of_lt hx, Nat.zero_add]
  simp [texel, generate, hx, hy, Array.getD, hi, hm, hd]

theorem texel_of_le_left {r : Raster} {x : Nat} (h : r.width ≤ x) (y : Nat) :
    r.texel x y = Texel.clear := by
  simp [texel, Nat.not_lt.2 h]

theorem texel_of_le_right {r : Raster} {y : Nat} (h : r.height ≤ y) (x : Nat) :
    r.texel x y = Texel.clear := by
  simp [texel, Nat.not_lt.2 h]

/-- Two images of the same size are transparent in the same places outside: a relation between
transparent texels has to be shown inside only. -/
theorem texel_related {R : Texel → Texel → Prop} {r s : Raster} (hclear : R Texel.clear Texel.clear)
    (hw : r.width = s.width) (hh : r.height = s.height) {x y : Nat}
    (h : x < r.width → y < r.height → R (r.texel x y) (s.texel x y)) :
    R (r.texel x y) (s.texel x y) := by
  by_cases hx : x < r.width
  · by_cases hy : y < r.height
    · exact h hx hy
    · rwa [texel_of_le_right (Nat.le_of_not_lt hy), texel_of_le_right (hh ▸ Nat.le_of_not_lt hy)]
  · rwa [texel_of_le_left (Nat.le_of_not_lt hx), texel_of_le_left (hw ▸ Nat.le_of_not_lt hx)]

/-- Two images of the same size with the same texels are the same. -/
theorem ext_texel {r s : Raster} (hw : r.width = s.width) (hh : r.height = s.height)
    (h : ∀ x y, x < r.width → y < r.height → r.texel x y = s.texel x y) : r = s := by
  obtain ⟨w, k, a, ha⟩ := r
  obtain ⟨w', k', b, hb⟩ := s
  dsimp only at hw hh
  subst hw hh
  have hab : a = b := by
    refine Array.ext (by rw [ha, hb]) fun i hi hi' => ?_
    rw [ha] at hi
    have hw0 : 0 < w := by
      rcases Nat.eq_zero_or_pos w with h0 | h0
      · simp [h0] at hi
      · exact h0
    have hx : i % w < w := Nat.mod_lt _ hw0
    have hy : i / w < k := by
      rw [Nat.div_lt_iff_lt_mul hw0, Nat.mul_comm]
      exact hi
    have hxy : i / w * w + i % w = i := by
      rw [Nat.mul_comm]
      exact Nat.div_add_mod i w
    have := h (i % w) (i / w) hx hy
    simpa [texel, hx, hy, hxy, Array.getD, ha, hb, hi] using this
  subst hab
  rfl

/-! ### Making images from images -/

/-- An image of one colour. -/
def fill (width height : Nat) (t : Texel) : Raster := generate width height fun _ _ => t

/-- A transparent image. -/
def clear (width height : Nat) : Raster := fill width height Texel.clear

/-- `top` laid on `base` with its top left corner at column `x₀` and row `y₀`; what sticks out is
cut off. -/
def paste (base top : Raster) (x₀ y₀ : Nat) : Raster :=
  generate base.width base.height fun x y =>
    if x₀ ≤ x ∧ x < x₀ + top.width ∧ y₀ ≤ y ∧ y < y₀ + top.height then
      top.texel (x - x₀) (y - y₀)
    else base.texel x y

theorem texel_paste {base top : Raster} {x₀ y₀ x y : Nat} (hx : x < base.width)
    (hy : y < base.height) :
    (base.paste top x₀ y₀).texel x y =
      if x₀ ≤ x ∧ x < x₀ + top.width ∧ y₀ ≤ y ∧ y < y₀ + top.height then
        top.texel (x - x₀) (y - y₀)
      else base.texel x y :=
  texel_generate _ hx hy

/-- The column or row, out of `source`, that lies nearest to number `o` out of `target`. -/
def nearest (source target o : Nat) : Nat :=
  let place : Float32 := ((o : Float32) + (1 : Nat) / (2 : Nat)) * ((source : Float32) / target)
  min (Scalar.truncate place) (source - 1)

/-- The image in another size, each texel taken from the nearest place. -/
def resample (r : Raster) (width height : Nat) : Raster :=
  generate width height fun x y => r.texel (nearest r.width width x) (nearest r.height height y)

end Raster

end VoxelBake
