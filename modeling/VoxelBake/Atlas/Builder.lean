/-
Building an atlas.

Textures go onto pages in the order in which they were added.  A page takes textures while their
total area stays below a limit, and gives up the last ones again if they cannot be packed.  A
texture that reaches the limit alone gets a page of its own and is made smaller if it has to be.

* `areaLimit` — the area that a page may hold, for a filling ratio;
* `AtlasBuilder`, `AtlasBuilder.start`, `AtlasBuilder.add` — the textures to be packed;
* `AtlasBuilder.prefixLength`, `AtlasBuilder.cutBack` — how many textures go onto a page;
* `AtlasBuilder.paginate` — all pages;
* `AtlasBuilder.drawPage`, `AtlasBuilder.assemble`, `AtlasBuilder.build` — the atlas.
-/
import VoxelBake.Atlas.Basic
import VoxelBake.Atlas.Mip
import VoxelBake.Atlas.Shelf

set_option relaxedAutoImplicit false
set_option autoImplicit false

namespace VoxelBake

/-! ### The limit of a page -/

/-- The largest number of 64 bits. -/
def largestWord : Nat := 0xffffffffffffffff

/-- The whole part of `size * size * fill`, no less than zero and no more than 64 bits can hold;
zero if `fill` is not a number. -/
def areaLimit (size : Nat) (fill : Float32) : Nat :=
  let bits : Nat := fill.toBits.toNat
  let field : Nat := bits / 0x800000 % 0x100
  let fraction : Nat := bits % 0x800000
  if 0x80000000 ≤ bits then 0
  else if field = 255 then (if fraction = 0 ∧ size ≠ 0 then largestWord else 0)
  else
    let mantissa := if field = 0 then fraction else fraction + 0x800000
    let scaled := size * size * mantissa * Nat.pow 2 (max field 1)
    min largestWord (scaled / Nat.pow 2 150)

/-! ### What is to be packed -/

/-- Textures to be packed and the properties of the atlas. -/
structure AtlasBuilder (α : Type) where
  /-- Edge of a page in texels. -/
  size : Nat
  /-- Total area from which on a page takes no further texture. -/
  limit : Nat
  /-- How many smaller copies each page gets. -/
  mipLevels : Nat
  /-- The textures in the order in which they were added. -/
  textures : Table Identifier (Texture α)

namespace AtlasBuilder

variable {α : Type}

/-- The three textures that every atlas starts with. -/
def reserved : List (Identifier × Texture α) :=
  [(Identifier.blank, Texture.blank), (Identifier.vacant, Texture.vacant),
    (Identifier.missing, Texture.missing)]

/-- A builder that holds the reserved textures; pages have at least one texel. -/
def start (size : Nat) (fill : Float32) (mipLevels : Nat) : AtlasBuilder α where
  size := max 1 size
  limit := areaLimit (max 1 size) fill
  mipLevels := mipLevels
  textures := Table.ofList reserved

/-- A builder with one more texture; a known name keeps its place and takes the new texture. -/
def add (b : AtlasBuilder α) (id : Identifier) (t : Texture α) : AtlasBuilder α :=
  { b with textures := b.textures.insert id t }

/-! ### Distributing textures on pages -/

/-- A texture under its name. -/
abbrev Named (α : Type) := Identifier × Texture α

/-- The size of a texture. -/
def extent (t : Named α) : Extent := ⟨t.2.image.width, t.2.image.height⟩

/-- How many of the first textures stay below the limit together, the area `used` being taken. -/
def prefixLength (limit : Nat) : Nat → List (Named α) → Nat
  | _, [] => 0
  | used, t :: rest =>
      if used + t.2.area < limit then prefixLength limit (used + t.2.area) rest + 1 else 0

/-- The largest number of textures, from `n` downwards, that can be packed on a page, and their
places. -/
def cutBack (size : Nat) (items : List (Named α)) : Nat → Option (Nat × List (Named α × Spot))
  | 0 => none
  | n + 1 =>
      match Shelf.packPage extent size (items.take (n + 1)) with
      | some placed => some (n + 1, placed)
      | none => cutBack size items n

variable [Scalar α]

/-- The textures for the next page, the first one made smaller if it reaches the limit alone, and
how many of them are tried at first. -/
def nextGroup (size limit : Nat) (first : Named α) (rest : List (Named α)) :
    List (Named α) × Nat :=
  match prefixLength limit 0 (first :: rest) with
  | 0 => ((first.1, first.2.fitWithin size) :: rest, 1)
  | n + 1 => (first :: rest, n + 1)

/-- The textures of each page with their places, for at most `fuel` pages. -/
def paginate (size limit : Nat) :
    Nat → List (Named α) → Except AtlasFault (List (List (Named α × Spot)))
  | 0, _ => .ok []
  | _ + 1, [] => .ok []
  | fuel + 1, first :: rest =>
      let (items, n) := nextGroup size limit first rest
      match cutBack size items n with
      | none => .error (.noRoom first.1 size)
      | some (taken, placed) =>
          (paginate size limit fuel (items.drop taken)).map (placed :: ·)

/-! ### Pages -/

/-- The image of a page: each texture at its place. -/
def drawPage (size : Nat) (placed : List (Named α × Spot)) : Raster :=
  placed.foldl (fun image p => image.paste p.1.2.image p.2.x p.2.y) (Raster.clear size size)

/-- The entry of a placed texture. -/
def entryOf (size page : Nat) (p : Named α × Spot) : Entry α where
  page := page
  bounds :=
    { x := (p.2.x : α) / (size : α)
      y := (p.2.y : α) / (size : α)
      width := (p.1.2.image.width : α) / (size : α)
      height := (p.1.2.image.height : α) / (size : α) }
  animation := p.1.2.animation

variable [Gamma α]

/-- The atlas of distributed textures. -/
def assemble (size mipLevels : Nat) (pages : List (List (Named α × Spot))) : Atlas α where
  size := size
  pages := pages.map fun placed =>
    let image := drawPage size placed
    { image := image, mips := Mip.chain α mipLevels image }
  entries := Table.ofList (pages.zipIdx.flatMap fun page =>
    page.1.map fun p => (p.1.1, entryOf size page.2 p))

/-- The atlas of all textures. -/
def build (b : AtlasBuilder α) : Except AtlasFault (Atlas α) :=
  (paginate b.size b.limit b.textures.size b.textures.entries).map (assemble b.size b.mipLevels)

end AtlasBuilder

end VoxelBake
