/-
Smaller copies of an image.

Each level of a chain has half the width and height of the one before, and each of its texels
blends four texels of that one.  Transparent texels say nothing about colour, so they are left out
of the blend; where too few texels are visible the result is transparent.

* `Mip.isKept` — whether a blend is visible;
* `Mip.blend` — the blend of texels, channels averaged as linear intensities;
* `Mip.taps` — the four places that a texel of the smaller image looks at;
* `Mip.halve`, `Mip.chain` — the next level, and all levels;
* `Mip.taps_inside` — all four places lie inside the larger image.
-/
import VoxelBake.Raster

set_option relaxedAutoImplicit false
set_option autoImplicit false

namespace VoxelBake.Mip

/-! ### Blending texels -/

/-- Whether the blend at column `x` and row `y` is visible: if at least three texels are, or two
on every other place. -/
def isKept (visible x y : Nat) : Bool :=
  3 ≤ visible || (visible == 2 && (x + y) % 2 == 0)

section Blend

variable {α : Type} [Scalar α]

/-- The sum of a measure over some texels, first texel first. -/
def total (measure : Texel → α) (ts : List Texel) : α :=
  ts.foldl (fun s t => s + measure t) ((0 : Nat) : α)

/-- The average of a measure over some texels. -/
def mean (measure : Texel → α) (ts : List Texel) : α := total measure ts / (ts.length : α)

/-- A channel as a number. -/
def channel (c : UInt8) : α := (c.toNat : α)

variable [Gamma α]

/-- The average of a colour channel over some texels, taken between linear intensities. -/
def meanColour (pick : Texel → UInt8) (ts : List Texel) : α :=
  Gamma.encode (mean (fun t => Gamma.decode (channel (pick t) / ((255 : Nat) : α))) ts)

/-- A number as a channel. -/
def toChannel (x : α) : UInt8 := UInt8.ofNat (Scalar.nearestUpTo 255 x)

variable (α) in
/-- The blend of some texels for column `x` and row `y`. -/
def blend (ts : List Texel) (x y : Nat) : Texel :=
  let visible := ts.filter Texel.isVisible
  if isKept visible.length x y then
    let colour (pick : Texel → UInt8) : UInt8 :=
      toChannel ((meanColour pick visible : α) * ((255 : Nat) : α))
    { red := colour Texel.red
      green := colour Texel.green
      blue := colour Texel.blue
      alpha := toChannel (mean (fun t => (channel t.alpha : α)) visible) }
  else Texel.clear

end Blend

/-! ### Levels -/

/-- Half of an edge, at least one. -/
def halfEdge (n : Nat) : Nat := max 1 (n / 2)

/-- The two columns, or rows, out of `n` that number `i` of the smaller image looks at. -/
def pair (n i : Nat) : Nat × Nat :=
  let first := min (2 * i) (n - 1)
  (first, min (first + 1) (n - 1))

/-- The four places of an image that the texel at column `x` and row `y` of the smaller image
looks at. -/
def taps (width height x y : Nat) : List (Nat × Nat) :=
  let (x₀, x₁) := pair width x
  let (y₀, y₁) := pair height y
  [(x₀, y₀), (x₁, y₀), (x₀, y₁), (x₁, y₁)]

theorem taps_inside {width height x y : Nat} (hw : 0 < width) (hh : 0 < height)
    {p : Nat × Nat} (hp : p ∈ taps width height x y) : p.1 < width ∧ p.2 < height := by
  simp only [taps, pair, List.mem_cons, List.not_mem_nil, or_false] at hp
  rcases hp with h | h | h | h <;> subst h <;> constructor <;> dsimp only <;> omega

section Levels

variable (α : Type) [Scalar α] [Gamma α]

/-- The image at half its width and height. -/
def halve (r : Raster) : Raster :=
  Raster.generate (halfEdge r.width) (halfEdge r.height) fun x y =>
    blend α ((taps r.width r.height x y).map fun p => r.texel p.1 p.2) x y

/-- The levels after an image, at most `levels` of them, ending at a single texel. -/
def chain : Nat → Raster → List Raster
  | 0, _ => []
  | levels + 1, r =>
      if r.width = 1 ∧ r.height = 1 then []
      else
        let next := halve α r
        next :: chain levels next

end Levels

end VoxelBake.Mip
