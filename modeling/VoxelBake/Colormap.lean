/-
Climate colours.

A colour map gives grass and leaves their colour by climate: warm places are on the left, cold ones
on the right, and the wetter a place is for its temperature, the higher up it is.

* `Colormap.sample` — the colour of a climate;
* `packRgb` — a colour as one number;
* `Colormaps`, `Colormaps.grassId`, `Colormaps.foliageId` — the maps that a pack may have.
-/
import VoxelBake.Identifier
import VoxelBake.Raster

set_option relaxedAutoImplicit false
set_option autoImplicit false

namespace VoxelBake

/-- A colour map is an image looked up by temperature and rainfall. -/
structure Colormap where
  /-- The image. -/
  image : Raster
deriving DecidableEq

namespace Colormap

/-- The column or row at a fraction of an edge of `n` texels, counted from the far end. -/
def place {α : Type} [Scalar α] (n : Nat) (fraction : α) : Nat :=
  min (Scalar.truncate (((1 : Nat) - fraction) * (((n - 1 : Nat) : Nat) : α))) (n - 1)

/-- The texel for a temperature and a rainfall, both forced between zero and one; rainfall counts
in proportion to temperature.  An image without texels is white. -/
def sample {α : Type} [Scalar α] (m : Colormap) (temperature rainfall : α) : Texel :=
  if m.image.width = 0 ∨ m.image.height = 0 then ⟨255, 255, 255, 255⟩
  else
    let zero : α := (0 : Nat)
    let one : α := (1 : Nat)
    let t := Scalar.clamp zero one temperature
    let r := Scalar.clamp zero one rainfall * t
    m.image.texel (place m.image.width t) (place m.image.height r)

/-- A colour as the number with the hexadecimal digits `rrggbb`. -/
def packRgb (t : Texel) : Nat := t.red.toNat * 65536 + t.green.toNat * 256 + t.blue.toNat

end Colormap

/-- The colour maps of a pack. -/
structure Colormaps where
  /-- Colours of grass. -/
  grass : Option Colormap
  /-- Colours of leaves. -/
  foliage : Option Colormap

namespace Colormaps

/-- No colour maps. -/
def none : Colormaps := ⟨.none, .none⟩

/-- The texture that colours grass. -/
def grassId : Identifier := Identifier.parse "colormap/grass"

/-- The texture that colours leaves. -/
def foliageId : Identifier := Identifier.parse "colormap/foliage"

end Colormaps

end VoxelBake
