/-
Packing rectangles on shelves.

Rectangles are put on a square page from left to right.  A rectangle that does not fit beside the
last one starts a new shelf below the tallest rectangle of the current shelf; taller rectangles go
first.  Squares of growing size are tried until everything fits.

* `Extent`, `Spot` — the size and the place of a rectangle;
* `Shelf.put`, `Shelf.putAll` — one rectangle, and rectangles one after another;
* `Shelf.tallestFirst`, `Shelf.pack` — packing onto one square;
* `Shelf.edges`, `Shelf.packPage` — packing onto the smallest square that holds everything.
-/

set_option relaxedAutoImplicit false
set_option autoImplicit false

namespace VoxelBake

/-- The size of a rectangle. -/
structure Extent where
  /-- Width. -/
  width : Nat
  /-- Height. -/
  height : Nat
deriving DecidableEq

/-- The area of a rectangle. -/
def Extent.area (e : Extent) : Nat := e.width * e.height

/-- The place of a rectangle: its top left corner. -/
structure Spot where
  /-- Column of the corner. -/
  x : Nat
  /-- Row of the corner. -/
  y : Nat
deriving DecidableEq

namespace Shelf

/-! ### One square -/

/-- Where the next rectangle goes, and how high the current shelf is. -/
structure Cursor where
  /-- Column right of the last rectangle. -/
  x : Nat
  /-- Top row of the current shelf. -/
  y : Nat
  /-- Height of the tallest rectangle on the current shelf. -/
  height : Nat

/-- The cursor of an empty square. -/
def Cursor.start : Cursor := ⟨0, 0, 0⟩

/-- The cursor moved to a new shelf if a rectangle of the given width does not fit beside the last
one. -/
def Cursor.makeRoom (edge : Nat) (c : Cursor) (width : Nat) : Cursor :=
  if edge < c.x + width then ⟨0, c.y + c.height, 0⟩ else c

/-- Puts one rectangle on a square: its place and the cursor after it, `none` if it does not
fit. -/
def put (edge : Nat) (c : Cursor) (e : Extent) : Option (Spot × Cursor) :=
  let c := c.makeRoom edge e.width
  if edge < e.width ∨ edge < c.y + e.height then none
  else some (⟨c.x, c.y⟩, ⟨c.x + e.width, c.y, max c.height e.height⟩)

section Packing

variable {ι : Type} (size : ι → Extent)

/-- Puts rectangles on a square one after another. -/
def putAll (edge : Nat) : Cursor → List ι → Option (List (ι × Spot))
  | _, [] => some []
  | c, i :: rest => do
      let (spot, c) ← put edge c (size i)
      let placed ← putAll edge c rest
      some ((i, spot) :: placed)

/-- Rectangles by falling height, those of one height in their order. -/
def tallestFirst (items : List ι) : List ι :=
  items.mergeSort fun a b => (size b).height ≤ (size a).height

/-- Places of all rectangles on a square, `none` if they do not fit. -/
def pack (edge : Nat) (items : List ι) : Option (List (ι × Spot)) :=
  putAll size edge Cursor.start (tallestFirst size items)

/-! ### Squares of growing size -/

/-- The first square to be tried: doubled, from the given edge on, until it has at least the given
area or reaches the limit. -/
def firstEdge (area limit : Nat) : Nat → Nat → Nat
  | 0, edge => min edge limit
  | fuel + 1, edge =>
      if edge * edge < area ∧ edge < limit then firstEdge area limit fuel (2 * edge)
      else min edge limit

/-- The edges from a given one on, each twice the last one, ending at the limit. -/
def edgesFrom (limit : Nat) : Nat → Nat → List Nat
  | 0, _ => [limit]
  | fuel + 1, edge =>
      if edge < limit then edge :: edgesFrom limit fuel (min (2 * edge) limit) else [limit]

/-- The edge of the smallest square that is ever tried. -/
def smallestEdge : Nat := 16

/-- The edges of the squares to be tried for a given total area. -/
def edges (area limit : Nat) : List Nat :=
  edgesFrom limit limit (firstEdge area limit limit smallestEdge)

/-- Places of all rectangles on the first square that holds them, `none` if not even the largest
square does. -/
def packPage (limit : Nat) (items : List ι) : Option (List (ι × Spot)) :=
  let total := (items.map fun i => (size i).area).foldr (· + ·) 0
  (edges total limit).findSome? fun edge => pack size edge items

end Packing

end Shelf

end VoxelBake
