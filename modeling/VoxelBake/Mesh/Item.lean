/-
Geometry of items.

Items are never hidden by neighbours, so their geometry is one list of corners, together with the
transforms for displaying them.  Items without boxes of their own are cut out of their texture: for
each layer a thin slab shows the texture on both sides, and one stripe for each column and row of
pixels gives the slab its edge.

* `ItemGeometry`, `ItemGeometry.ofModel` — the geometry of an item with boxes;
* `SpriteShape`, `SpriteShape.elements` — the boxes of an item cut out of its texture;
* `ItemGeometry.ofSprite` — the geometry of such an item;
* `SpriteCache` — boxes that were computed before;
* `ItemGeometry.vertices`, `ItemGeometry.emit` — drawing an item.
-/
import VoxelBake.Mesh.Buffer
import VoxelBake.Mesh.Compile

set_option relaxedAutoImplicit false
set_option autoImplicit false

namespace VoxelBake

/-! ### Items with boxes -/

/-- The geometry of an item. -/
structure ItemGeometry (α : Type) where
  /-- The corners of its faces, four of them for each. -/
  corners : Array (Corner α)
  /-- How the item is displayed. -/
  display : Table DisplayPosition (DisplayTransform α)

/-- The geometry of an item that is not drawn. -/
def ItemGeometry.empty {α : Type} : ItemGeometry α := ⟨#[], ∅⟩

/-- The geometry of an item made of the boxes of a model, one bucket after another. -/
def ItemGeometry.ofModel {α : Type} [Scalar α] [Trig α] (m : Model α) (atlas : Atlas α) :
    ItemGeometry α where
  corners := CullSide.all.toArray.flatMap (compile m Orientation.identity atlas).bucket
  display := m.display

/-! ### Items cut out of a texture -/

/-- The shape of an item cut out of its texture. -/
structure SpriteShape where
  /-- The number of texture layers. -/
  layers : Nat
  /-- The number of pixel columns and rows, at least one. -/
  precision : Nat
  /-- The thickness of the slab in sixteenths of a block. -/
  thickness : Nat
  /-- Whether each layer takes a tint. -/
  tintable : Bool
deriving DecidableEq

/-- The number of pixel columns that items have unless told otherwise. -/
def defaultPrecision : Nat := 16

/-- The thickness that items have unless told otherwise. -/
def defaultThickness : Nat := 1

section Sprites

variable {α : Type} [Scalar α]

/-- A face of a layer. -/
def spriteFace (layer : Nat) (tint : Int) (uv : UvRect α) : Face α where
  uv := uv
  texture := .slot (Model.layerSlot layer)
  cull := none
  rotation := 0
  tint := tint

/-- A box between two corners in any order. -/
def spriteBox (a b : Vec3 α) (faces : List (Direction × Face α)) : Element α where
  low := Vec3.zipWith Scalar.least a b
  high := Vec3.zipWith Scalar.greatest a b
  rotation := none
  shade := true
  faces := faces

namespace SpriteShape

/-- The number of pixel columns and rows. -/
def columns (s : SpriteShape) : Nat := max 1 s.precision

/-- The position of a boundary between two columns. -/
def boundary (s : SpriteShape) (i : Nat) : α := (i : α) * ((16 : Nat) / (s.columns : α))

/-- The front of the slab. -/
def near (s : SpriteShape) : α := (8 : Nat) - (s.thickness : α) / (2 : Nat)

/-- The back of the slab. -/
def far (s : SpriteShape) : α := (8 : Nat) + (s.thickness : α) / (2 : Nat)

/-- The tint of a layer. -/
def layerTint (s : SpriteShape) (layer : Nat) : Int := if s.tintable then layer else -1

/-- The two stripes of number `i`, counted from the right for columns and from the top for rows:
one standing, for the edges of a pixel column, and one lying, for those of a pixel row. -/
def stripes (s : SpriteShape) (layer i : Nat) : List (Element α) :=
  let zero : α := (0 : Nat)
  let full : α := (16 : Nat)
  let face := spriteFace layer (s.layerTint layer)
  let first : α := s.boundary i
  let second : α := s.boundary (i + 1)
  let outer : α := s.boundary (s.columns - i)
  let inner : α := s.boundary (s.columns - i - 1)
  [spriteBox ⟨outer, zero, s.near⟩ ⟨inner, full, s.far⟩
      [(.west, face ⟨inner, zero, outer, full⟩),
        (.east, face ⟨full - second, zero, full - first, full⟩)],
    spriteBox ⟨zero, outer, s.near⟩ ⟨full, inner, s.far⟩
      [(.down, face ⟨zero, full - outer, full, full - inner⟩),
        (.up, face ⟨zero, first, full, second⟩)]]

/-- The slab of a layer. -/
def slab (s : SpriteShape) (layer : Nat) : Element α :=
  let zero : α := (0 : Nat)
  let full : α := (16 : Nat)
  let face := spriteFace layer (s.layerTint layer)
  spriteBox ⟨zero, zero, s.near⟩ ⟨full, full, s.far⟩
    [(.north, face ⟨full, zero, zero, full⟩), (.south, face ⟨zero, zero, full, full⟩)]

/-- The boxes of one layer: its stripes, then its slab. -/
def layerElements (s : SpriteShape) (layer : Nat) : List (Element α) :=
  (List.range s.columns).flatMap (s.stripes layer) ++ [s.slab layer]

/-- The boxes of all layers. -/
def elements (s : SpriteShape) : List (Element α) :=
  (List.range s.layers).flatMap s.layerElements

end SpriteShape

/-- The geometry of an item cut out of its texture: the slots of its model on the given boxes. -/
def ItemGeometry.ofSprite [Trig α] (m : Model α) (boxes : List (Element α)) (atlas : Atlas α) :
    ItemGeometry α :=
  ItemGeometry.ofModel { m with elements := boxes } atlas

/-- Boxes that were computed before. -/
abbrev SpriteCache (α : Type) := Table SpriteShape (List (Element α))

/-- The boxes of a shape, from the cache if they are there, and the cache afterwards. -/
def SpriteCache.boxes (cache : SpriteCache α) (s : SpriteShape) :
    List (Element α) × SpriteCache α :=
  Table.fetch cache s fun _ => s.elements

end Sprites

/-! ### Drawing -/

namespace ItemGeometry

variable {α : Type} [Scalar α]

/-- The colour of a tint: that number of the palette, white without a tint or past its end. -/
def tintColour (palette : Array (Vec3 α)) (tint : Int) : Vec3 α :=
  if tint < 0 then Vec3.uniform (1 : Nat)
  else palette[tint.toNat]?.getD (Vec3.uniform (1 : Nat))

/-- The vertices of an item, with colours as given. -/
def vertices (g : ItemGeometry α) (offset : Vec3 α) (palette : Array (Vec3 α)) :
    Array (Vertex α) :=
  g.corners.map fun c =>
    { position := c.position + offset
      uv := c.uv
      playback := c.playback
      colour := tintColour palette c.tint
      extra := (1 : Nat) }

/-- Draws an item: the buffer afterwards, and the number past the last vertex written. -/
def emit (g : ItemGeometry α) (offset : Vec3 α) (palette : Array (Vec3 α))
    (buffer : VertexBuffer α) (start : Nat) : VertexBuffer α × Nat :=
  let vs := g.vertices offset palette
  (buffer.write start vs, start + vs.size)

end ItemGeometry

end VoxelBake
