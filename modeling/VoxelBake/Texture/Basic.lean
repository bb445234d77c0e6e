/-
Textures and their animations.

An animated texture is delivered as a strip of square frames, one below the other.  It is kept as
a grid that is about as wide as high, in which the frames follow each other row by row in the
order in which they are shown.

* `Animation`, `Animation.rows` — how a grid of frames is played;
* `Texture` — an image with its animation;
* `Texture.blank`, `Texture.vacant`, `Texture.missing` — the three reserved textures;
* `gridColumns` — how many frames stand in a row;
* `arrangeFrames` — the grid of a strip;
* `AnimationSection`, `Texture.animate` — the animation that a texture asks for;
* `Texture.fitWithin` — a texture made small enough for a page.
-/
import VoxelBake.Raster

set_option relaxedAutoImplicit false
set_option autoImplicit false

namespace VoxelBake

/-- How a grid of frames is played. -/
structure Animation (α : Type) where
  /-- The number of frames. -/
  count : Nat
  /-- How many frames stand in a row of the grid. -/
  perRow : Nat
  /-- How long each frame is shown, in seconds. -/
  interval : α
  /-- Whether neighbouring frames are blended. -/
  interpolate : Bool
deriving DecidableEq

namespace Animation

variable {α : Type}

/-- How many rows the frames take. -/
def rows (a : Animation α) : Nat := (a.count + a.perRow - 1) / a.perRow

end Animation

/-- An image, which may be a grid of frames. -/
structure Texture (α : Type) where
  /-- The image. -/
  image : Raster
  /-- How the image is played, if it is a grid of frames. -/
  animation : Option (Animation α)

/-! ### Arranging frames -/

/-- The least number from `start` on whose square is at least `n`, looking at no more than `fuel`
numbers. -/
def squareRootFrom (n : Nat) : Nat → Nat → Nat
  | 0, start => start
  | fuel + 1, start => if n ≤ start * start then start else squareRootFrom n fuel (start + 1)

/-- How many of `count` frames stand in a row: as many as make the grid about square. -/
def gridColumns (count : Nat) : Nat := max 1 (squareRootFrom count count 0)

/-- How many rows of `perRow` frames hold `count` frames. -/
def gridRows (count perRow : Nat) : Nat := (count + perRow - 1) / perRow

/-- The first row of a frame of a strip, counted in 32 bits. -/
def frameTop (side frame : Nat) : Nat := (frame * side) % 0x100000000

/-- The grid with `perRow` frames a row of a strip of square frames; the cell of number `i` holds
the frame `frames[i]` of the strip, and what lies outside of the strip is transparent. -/
def arrangeFrames (strip : Raster) (frames : List Nat) (perRow : Nat) : Raster :=
  let side := strip.width
  let cells := frames.toArray
  Raster.generate (perRow * side) (gridRows frames.length perRow * side) fun x y =>
    match cells[y / side * perRow + x / side]? with
    | some frame => strip.texel (x % side) (frameTop side frame + y % side)
    | none => Texel.clear

/-- What a texture says about its animation. -/
structure AnimationSection (α : Type) where
  /-- The frames of the strip in the order in which they are shown; all in turn if not given. -/
  frames : Option (List Nat)
  /-- How many ticks each frame is shown; one if not given. -/
  frameTime : Option α
  /-- Whether neighbouring frames are blended. -/
  interpolate : Bool

/-- How many square frames a strip holds. -/
def frameCount (strip : Raster) : Nat := strip.height / strip.width

/-- The frames to be shown: those asked for that the strip holds, or all of them. -/
def shownFrames (count : Nat) : Option (List Nat) → List Nat
  | some frames => frames.filter (· < count)
  | none => List.range count

namespace Texture

variable {α : Type}

/-- A texture that is not animated. -/
def still (image : Raster) : Texture α := ⟨image, none⟩

/-- The size of an image in texels. -/
def area (t : Texture α) : Nat := t.image.area

/-- Size of the reserved textures. -/
def reservedSize : Nat := 16

/-- The reserved texture that is white all over. -/
def blank : Texture α :=
  still (Raster.fill reservedSize reservedSize ⟨255, 255, 255, 255⟩)

/-- The reserved texture that is transparent all over. -/
def vacant : Texture α := still (Raster.clear reservedSize reservedSize)

/-- The reserved texture with quarters of magenta and black. -/
def missing : Texture α :=
  still (Raster.generate reservedSize reservedSize fun x y =>
    if decide (x < 8) = decide (y < 8) then ⟨255, 0, 255, 255⟩ else ⟨0, 0, 0, 255⟩)

variable [Scalar α]

/-- The length of a tick in seconds. -/
def tick : α := (5 : Nat) / (100 : Nat)

/-- A strip with its animation: the grid of the frames to be shown, or the strip as it is if there
are fewer than two of them. -/
def animate (strip : Raster) (s : AnimationSection α) : Texture α :=
  let frames := shownFrames (frameCount strip) s.frames
  if frames.length ≤ 1 then still strip
  else
    let perRow := gridColumns frames.length
    { image := arrangeFrames strip frames perRow
      animation := some
        { count := frames.length
          perRow := perRow
          interval := s.frameTime.getD ((1 : Nat) : α) * tick
          interpolate := s.interpolate } }

/-- The size of an edge after scaling by `scale`, at least one. -/
def scaledEdge (scale : α) (edge : Nat) : Nat := max 1 (Scalar.truncate ((edge : α) * scale))

/-- The texture made small enough that neither edge exceeds `limit`, in the same proportions. -/
def fitWithin (t : Texture α) (limit : Nat) : Texture α :=
  let w := t.image.width
  let h := t.image.height
  if w ≤ limit ∧ h ≤ limit then t
  else
    let scale : α := (limit : α) / ((max w h : Nat) : α)
    { t with image := t.image.resample (scaledEdge scale w) (scaledEdge scale h) }

end Texture

end VoxelBake
