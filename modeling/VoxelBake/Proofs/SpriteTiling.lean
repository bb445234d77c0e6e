/-
**The boxes of a flat item show every pixel column and every pixel row of its texture once.**

A flat item is a slab for each layer of its texture, and stripes that give the slab its edge: a
standing one for each pixel column and a lying one for each pixel row.  Boxes are written from the
right and from the top, the texture from the left and from the top; both come to the same part of
the texture, whatever the number of columns.  Measured exactly, the stripes divide the texture into
equal parts, and each face shows the part that its stripe covers.

Main definitions:

* `Tiles` — spans of equal width that divide the width of a block;
* `Element.sides` — the sides that a box has faces to;
* `SpriteShape.pixelColumn`, `SpriteShape.pixelRow`, `SpriteShape.layerStripes` — the stripe of a
  pixel column or row, and the stripes of a layer;
* `TilesLayer` — **the boxes of a layer divide its texture**.

Main results:

* `tiles_pixels` — the pixel columns divide the width of a texture;
* `SpriteShape.stripes_eq` — the stripes belong to pixel columns and rows;
* `ItemGeometry.size_corners_ofModel` — the corners of an item are those of its faces;
* `sprite_tiles_texture` — **flat items divide their texture exactly**.
-/
import Mathlib
import VoxelBake.Mesh.Item
import VoxelBake.Proofs.CompiledFaces
import VoxelBake.Proofs.OcclusionOrder

set_option relaxedAutoImplicit false
set_option autoImplicit false

namespace VoxelBake

/-! ### Equal parts -/

/-- **Spans that divide the width of a block into equal parts**: all of the same width, inside of
the block, and each point lies in one of them. -/
structure Tiles (count : Nat) (spans : List (ℚ × ℚ)) : Prop where
  /-- There are as many spans as parts. -/
  length : spans.length = count
  /-- No span leaves the block. -/
  inside : ∀ r ∈ spans, 0 ≤ r.1 ∧ r.2 ≤ 16
  /-- All spans have the same width. -/
  width : ∀ r ∈ spans, r.2 - r.1 = 16 / count
  /-- No point is left out, and none is covered twice. -/
  once : ∀ u : ℚ, 0 ≤ u → u < 16 → spans.countP (fun r => r.1 ≤ u ∧ u < r.2) = 1

theorem Tiles.reverse {count : Nat} {spans : List (ℚ × ℚ)} (h : Tiles count spans) :
    Tiles count spans.reverse where
  length := List.length_reverse.trans h.length
  inside r hr := h.inside r (List.mem_reverse.1 hr)
  width r hr := h.width r (List.mem_reverse.1 hr)
  once u hu hu' := List.countP_reverse.trans (h.once u hu hu')

/-- A pixel covers the points between its boundaries, that is, those that are cut to its number. -/
theorem covers_iff {count k : Nat} (hcount : 0 < count) {u : ℚ} (hu : 0 ≤ u) :
    (k * (16 / count : ℚ) ≤ u ∧ u < (k + 1 : Nat) * (16 / count : ℚ)) ↔
      k = ⌊u * count / 16⌋₊ := by
  have hpos : (0 : ℚ) < count := by exact_mod_cast hcount
  have hvalue : 0 ≤ u * count / 16 := by positivity
  rw [eq_comm, Nat.floor_eq_iff hvalue, ← mul_div_assoc, ← mul_div_assoc, div_le_iff₀ hpos,
    lt_div_iff₀ hpos, le_div_iff₀ (by norm_num), div_lt_iff₀ (by norm_num)]
  push_cast
  rfl

/-- **The pixel columns divide the width of a texture.** -/
theorem tiles_pixels {count : Nat} (hcount : 0 < count) :
    Tiles count ((List.range count).map fun k : Nat =>
      ((k * (16 / count) : ℚ), ((k + 1 : Nat) * (16 / count) : ℚ))) := by
  have hpos : (0 : ℚ) < count := by exact_mod_cast hcount
  refine ⟨by simp, ?_, ?_, ?_⟩
  · intro r hr
    obtain ⟨k, hk, rfl⟩ := List.mem_map.1 hr
    have hle : ((k + 1 : Nat) : ℚ) ≤ count := by exact_mod_cast List.mem_range.1 hk
    dsimp only
    refine ⟨by positivity, ?_⟩
    rw [← mul_div_assoc, div_le_iff₀ hpos]
    linarith
  · intro r hr
    obtain ⟨k, -, rfl⟩ := List.mem_map.1 hr
    push_cast
    ring
  · intro u hu hu'
    have hlt : ⌊u * count / 16⌋₊ < count := by
      rw [Nat.floor_lt (by positivity), div_lt_iff₀ (by norm_num), mul_comm]
      exact mul_lt_mul_of_pos_left hu' hpos
    rw [List.countP_map]
    have hcover : ∀ k ∈ List.range count,
        ((fun r : ℚ × ℚ => decide (r.1 ≤ u ∧ u < r.2)) ∘ fun k : Nat =>
          ((k * (16 / count) : ℚ), ((k + 1 : Nat) * (16 / count) : ℚ))) k = true ↔
        (k == ⌊u * count / 16⌋₊) = true := by
      intro k _
      simpa using covers_iff (k := k) hcount hu
    rw [List.countP_congr hcover]
    exact List.count_eq_one_of_mem List.nodup_range (List.mem_range.2 hlt)

/-! ### Stripes -/

/-- The sides that a box has faces to. -/
def Element.sides {α : Type} (e : Element α) : List Direction := e.faces.map Prod.fst

/-- The smaller of two numbers. -/
theorem Scalar.least_eq_min (a b : Rat) : least a b = min a b := by
  change (if a < b then a else if b < a then b else if a == a then a else b) = min a b
  grind

theorem spriteBox_eq (a b : Vec3 ℚ) (faces : List (Direction × Face ℚ)) :
    spriteBox a b faces =
      { low := ⟨min a.x b.x, min a.y b.y, min a.z b.z⟩
        high := ⟨max a.x b.x, max a.y b.y, max a.z b.z⟩
        rotation := none
        shade := true
        faces := faces } := by
  simp only [spriteBox, Vec3.zipWith, Scalar.least_eq_min, Scalar.greatest_eq_max]

namespace SpriteShape

variable (s : SpriteShape) (layer : Nat)

theorem columns_pos : 0 < s.columns := Nat.lt_of_lt_of_le Nat.one_pos (Nat.le_max_left 1 _)

theorem boundary_eq (i : Nat) : (s.boundary i : ℚ) = i * (16 / s.columns) := rfl

/-- The boundaries are counted from both ends. -/
theorem boundary_sub {i : Nat} (hi : i ≤ s.columns) :
    (s.boundary (s.columns - i) : ℚ) = 16 - s.boundary i := by
  have hpos : (0 : ℚ) < s.columns := by exact_mod_cast s.columns_pos
  rw [boundary_eq, boundary_eq, Nat.cast_sub hi]
  field_simp

theorem boundary_le_succ (k : Nat) : (s.boundary k : ℚ) ≤ s.boundary (k + 1) := by
  rw [boundary_eq, boundary_eq]
  push_cast
  have : (0 : ℚ) ≤ 16 / s.columns := by positivity
  linarith

theorem near_le_far : (s.near : ℚ) ≤ s.far := by
  have : (0 : ℚ) ≤ s.thickness := s.thickness.cast_nonneg
  change (8 : ℚ) - s.thickness / 2 ≤ 8 + s.thickness / 2
  linarith

/-- The stripe of a pixel column, counted from the left. -/
def pixelColumn (k : Nat) : Element ℚ :=
  let face := spriteFace layer (s.layerTint layer) ⟨s.boundary k, 0, s.boundary (k + 1), 16⟩
  { low := ⟨s.boundary k, 0, s.near⟩
    high := ⟨s.boundary (k + 1), 16, s.far⟩
    rotation := none
    shade := true
    faces := [(.west, face), (.east, face)] }

/-- The stripe of a pixel row, counted from below. -/
def pixelRow (k : Nat) : Element ℚ :=
  let face :=
    spriteFace layer (s.layerTint layer) ⟨0, 16 - s.boundary (k + 1), 16, 16 - s.boundary k⟩
  { low := ⟨0, s.boundary k, s.near⟩
    high := ⟨16, s.boundary (k + 1), s.far⟩
    rotation := none
    shade := true
    faces := [(.down, face), (.up, face)] }

/-- **Each pair of stripes belongs to a pixel column and a pixel row**, counted from the other
end. -/
theorem stripes_eq {i : Nat} (hi : i < s.columns) :
    (s.stripes layer i : List (Element ℚ))
      = [s.pixelColumn layer (s.columns - 1 - i), s.pixelRow layer (s.columns - 1 - i)] := by
  obtain ⟨k, hk⟩ : ∃ k, k = s.columns - 1 - i := ⟨_, rfl⟩
  have houter : s.columns - i = k + 1 := by omega
  have hinner : s.columns - i - 1 = k := by omega
  have hfirst : (s.boundary i : ℚ) = 16 - s.boundary (k + 1) := by
    rw [← houter, s.boundary_sub hi.le]
    ring
  have hsecond : (s.boundary (i + 1) : ℚ) = 16 - s.boundary k := by
    rw [← hinner, Nat.sub_sub, s.boundary_sub hi]
    ring
  have hstripes : (s.stripes layer i : List (Element ℚ)) =
      let face := spriteFace layer (s.layerTint layer)
      [spriteBox ⟨s.boundary (k + 1), 0, s.near⟩ ⟨s.boundary k, 16, s.far⟩
          [(.west, face ⟨s.boundary k, 0, s.boundary (k + 1), 16⟩),
            (.east, face ⟨16 - s.boundary (i + 1), 0, 16 - s.boundary i, 16⟩)],
        spriteBox ⟨0, s.boundary (k + 1), s.near⟩ ⟨16, s.boundary k, s.far⟩
          [(.down, face ⟨0, 16 - s.boundary (k + 1), 16, 16 - s.boundary k⟩),
            (.up, face ⟨0, s.boundary i, 16, s.boundary (i + 1)⟩)]] := by
    rw [← houter, ← hinner]
    rfl
  have hwidth : (0 : ℚ) ≤ 16 := by norm_num
  rw [hstripes, ← hk, hfirst, hsecond, sub_sub_cancel, sub_sub_cancel]
  simp only [spriteBox_eq, min_eq_right (s.boundary_le_succ k), max_eq_left (s.boundary_le_succ k),
    min_eq_left hwidth, max_eq_right hwidth, min_eq_left s.near_le_far, max_eq_right s.near_le_far,
    pixelColumn, pixelRow]

/-- The slab of a layer covers the whole texture. -/
theorem slab_eq : (s.slab layer : Element ℚ) =
    let face := spriteFace layer (s.layerTint layer)
    { low := ⟨0, 0, s.near⟩
      high := ⟨16, 16, s.far⟩
      rotation := none
      shade := true
      faces := [(.north, face ⟨16, 0, 0, 16⟩), (.south, face ⟨0, 0, 16, 16⟩)] } := by
  have hwidth : (0 : ℚ) ≤ 16 := by norm_num
  have hslab : (s.slab layer : Element ℚ) =
      let face := spriteFace layer (s.layerTint layer)
      spriteBox ⟨0, 0, s.near⟩ ⟨16, 16, s.far⟩
        [(.north, face ⟨16, 0, 0, 16⟩), (.south, face ⟨0, 0, 16, 16⟩)] := rfl
  rw [hslab]
  simp only [spriteBox_eq, min_eq_left hwidth, max_eq_right hwidth, min_eq_left s.near_le_far,
    max_eq_right s.near_le_far]

/-- The stripes of a layer. -/
def layerStripes {α : Type} [Scalar α] (s : SpriteShape) (layer : Nat) : List (Element α) :=
  (List.range s.columns).flatMap (s.stripes layer)

/-- The boxes of an item are those of its layers in order, the stripes of each before its slab. -/
theorem elements_eq {α : Type} [Scalar α] (s : SpriteShape) :
    (s.elements : List (Element α))
      = (List.range s.layers).flatMap fun layer => s.layerStripes layer ++ [s.slab layer] := rfl

/-- The stripes of a layer are those of its pixels, from the last pixel to the first. -/
theorem layerStripes_eq : (s.layerStripes layer : List (Element ℚ))
    = (List.range s.columns).reverse.flatMap fun k =>
        [s.pixelColumn layer k, s.pixelRow layer k] := by
  rw [List.range_eq_range', List.reverse_range', List.flatMap_map, layerStripes, Nat.zero_add]
  exact List.flatMap_congr fun i hi => s.stripes_eq layer (List.mem_range.1 hi)

end SpriteShape

/-! ### Layers -/

/-- **The boxes of a layer divide its texture.**  There are two stripes for each pixel column, and
those of columns and of rows each divide the texture into equal parts; the faces of a stripe show
the columns or rows that it covers, and the slab shows the whole texture, mirrored behind.  All
boxes are as thick as the item, and all faces have the texture and the tint of the layer and are
never hidden. -/
structure TilesLayer (s : SpriteShape) (layer : Nat) (stripes : List (Element ℚ))
    (slab : Element ℚ) : Prop where
  /-- How many stripes there are. -/
  count : stripes.length = 2 * s.precision
  /-- Every stripe stands or lies. -/
  sides : ∀ e ∈ stripes, e.sides = [.west, .east] ∨ e.sides = [.down, .up]
  /-- Standing stripes divide the width. -/
  columns : Tiles s.precision
    ((stripes.filter (·.sides = [.west, .east])).map fun e => (e.low.x, e.high.x))
  /-- Lying stripes divide the height. -/
  rows : Tiles s.precision
    ((stripes.filter (·.sides = [.down, .up])).map fun e => (e.low.y, e.high.y))
  /-- Standing stripes are as high as the texture, and their faces show the columns they cover. -/
  columnFaces : ∀ e ∈ stripes, e.sides = [.west, .east] →
    (e.low.y = 0 ∧ e.high.y = 16) ∧ ∀ f ∈ e.faces, f.2.uv = ⟨e.low.x, 0, e.high.x, 16⟩
  /-- Lying stripes are as wide as the texture, and their faces show the rows they cover. -/
  rowFaces : ∀ e ∈ stripes, e.sides = [.down, .up] →
    (e.low.x = 0 ∧ e.high.x = 16) ∧ ∀ f ∈ e.faces, f.2.uv = ⟨0, 16 - e.high.y, 16, 16 - e.low.y⟩
  /-- The slab covers the texture and shows all of it to both sides. -/
  whole : (slab.low.x = 0 ∧ slab.high.x = 16) ∧ (slab.low.y = 0 ∧ slab.high.y = 16) ∧
    slab.faces.map (fun f => (f.1, f.2.uv))
      = [(.north, ⟨16, 0, 0, 16⟩), (.south, ⟨0, 0, 16, 16⟩)]
  /-- All boxes are proper ones, unturned, and as thick as the item. -/
  boxes : ∀ e ∈ stripes ++ [slab], (e.low.x ≤ e.high.x ∧ e.low.y ≤ e.high.y ∧ e.low.z ≤ e.high.z) ∧
    e.low.z = 8 - (s.thickness : ℚ) / 2 ∧ e.high.z = 8 + (s.thickness : ℚ) / 2 ∧ e.rotation = none
  /-- All faces are those of the layer. -/
  faces : ∀ e ∈ stripes ++ [slab], ∀ f ∈ e.faces, f.2.texture = .slot (Model.layerSlot layer) ∧
    f.2.cull = none ∧ f.2.rotation = 0 ∧ f.2.tint = if s.tintable then (layer : Int) else -1

namespace SpriteShape

variable (s : SpriteShape) (layer : Nat)

theorem mem_layerStripes {e : Element ℚ} : e ∈ s.layerStripes layer ↔
    ∃ k < s.columns, e = s.pixelColumn layer k ∨ e = s.pixelRow layer k := by
  simp [layerStripes_eq]

theorem length_layerStripes {α : Type} [Scalar α] :
    (s.layerStripes layer : List (Element α)).length = 2 * s.columns := by
  have hpair : ∀ i, (s.stripes layer i : List (Element α)).length = 2 := fun _ => rfl
  simp [layerStripes, List.length_flatMap, hpair, Nat.mul_comm]

theorem filter_columns : (s.layerStripes layer).filter (·.sides = [.west, .east])
    = (List.range s.columns).reverse.map (s.pixelColumn layer) := by
  have hpair : ∀ k, [s.pixelColumn layer k, s.pixelRow layer k].filter (·.sides = [.west, .east])
      = [s.pixelColumn layer k] := fun _ => rfl
  rw [layerStripes_eq, List.filter_flatMap, List.map_eq_flatMap]
  exact List.flatMap_congr fun k _ => hpair k

theorem filter_rows : (s.layerStripes layer).filter (·.sides = [.down, .up])
    = (List.range s.columns).reverse.map (s.pixelRow layer) := by
  have hpair : ∀ k, [s.pixelColumn layer k, s.pixelRow layer k].filter (·.sides = [.down, .up])
      = [s.pixelRow layer k] := fun _ => rfl
  rw [layerStripes_eq, List.filter_flatMap, List.map_eq_flatMap]
  exact List.flatMap_congr fun k _ => hpair k

/-- **The boxes of every layer divide its texture.** -/
theorem tilesLayer (hp : 1 ≤ s.precision) :
    TilesLayer s layer (s.layerStripes layer) (s.slab layer) := by
  have hcolumns : s.columns = s.precision := Nat.max_eq_right hp
  have hspans : Tiles s.precision ((List.range s.columns).reverse.map fun k =>
      ((s.boundary k : ℚ), (s.boundary (k + 1) : ℚ))) := by
    rw [List.map_reverse, ← hcolumns]
    exact (tiles_pixels s.columns_pos).reverse
  have hface : ∀ uv : UvRect ℚ, (spriteFace layer (s.layerTint layer) uv).texture
        = .slot (Model.layerSlot layer) ∧
      (spriteFace layer (s.layerTint layer) uv).cull = none ∧
      (spriteFace layer (s.layerTint layer) uv).rotation = 0 ∧
      (spriteFace layer (s.layerTint layer) uv).tint = if s.tintable then (layer : Int) else -1 :=
    fun _ => ⟨rfl, rfl, rfl, rfl⟩
  constructor
  case count => rw [length_layerStripes, hcolumns]
  case sides =>
    intro e he
    obtain ⟨k, -, rfl | rfl⟩ := (s.mem_layerStripes layer).1 he
    · exact .inl rfl
    · exact .inr rfl
  case columns =>
    rw [filter_columns, List.map_map]
    exact hspans
  case rows =>
    rw [filter_rows, List.map_map]
    exact hspans
  case columnFaces =>
    intro e he hsides
    obtain ⟨k, -, rfl | rfl⟩ := (s.mem_layerStripes layer).1 he
    · exact ⟨⟨rfl, rfl⟩, by simp [pixelColumn, spriteFace]⟩
    · cases hsides
  case rowFaces =>
    intro e he hsides
    obtain ⟨k, -, rfl | rfl⟩ := (s.mem_layerStripes layer).1 he
    · cases hsides
    · exact ⟨⟨rfl, rfl⟩, by simp [pixelRow, spriteFace]⟩
  case whole =>
    rw [slab_eq]
    exact ⟨⟨rfl, rfl⟩, ⟨rfl, rfl⟩, rfl⟩
  case boxes =>
    intro e he
    have hwidth : (0 : ℚ) ≤ 16 := by norm_num
    rcases List.mem_append.1 he with he | he
    · obtain ⟨k, -, rfl | rfl⟩ := (s.mem_layerStripes layer).1 he
      · exact ⟨⟨s.boundary_le_succ k, hwidth, s.near_le_far⟩, rfl, rfl, rfl⟩
      · exact ⟨⟨hwidth, s.boundary_le_succ k, s.near_le_far⟩, rfl, rfl, rfl⟩
    · rw [List.mem_singleton.1 he, slab_eq]
      exact ⟨⟨hwidth, hwidth, s.near_le_far⟩, rfl, rfl, rfl⟩
  case faces =>
    intro e he f hf
    rcases List.mem_append.1 he with he | he
    · obtain ⟨k, -, rfl | rfl⟩ := (s.mem_layerStripes layer).1 he
      · rcases List.mem_pair.1 hf with rfl | rfl <;> exact hface _
      · rcases List.mem_pair.1 hf with rfl | rfl <;> exact hface _
    · rw [List.mem_singleton.1 he, slab_eq] at hf
      rcases List.mem_pair.1 hf with rfl | rfl <;> exact hface _

end SpriteShape

/-! ### Corners -/

section Corners

variable {α : Type} [Scalar α]

/-- Every box of a flat item has two faces. -/
theorem SpriteShape.length_faces (s : SpriteShape) {e : Element α} (he : e ∈ s.elements) :
    e.faces.length = 2 := by
  simp only [elements_eq, layerStripes, List.mem_flatMap, List.mem_append, stripes, slab,
    List.mem_cons, List.not_mem_nil, or_false] at he
  obtain ⟨layer, -, ⟨i, -, rfl | rfl⟩ | rfl⟩ := he <;> rfl

theorem SpriteShape.length_elements (s : SpriteShape) :
    (s.elements : List (Element α)).length = s.layers * (2 * s.columns + 1) := by
  simp [elements_eq, List.length_flatMap, length_layerStripes]

variable [Trig α]

/-- The corners of an item are those of its faces, four for each. -/
theorem ItemGeometry.size_corners_ofModel (m : Model α) (atlas : Atlas α) :
    (ItemGeometry.ofModel m atlas).corners.size
      = 4 * (m.elements.map fun e => e.faces.length).sum := by
  rw [← totalVertices_compile m Orientation.identity atlas, ItemGeometry.ofModel,
    size_flatMap_toArray]
  rfl

/-- Every box of a flat item has eight corners. -/
theorem ItemGeometry.size_corners_ofSprite (m : Model α) (s : SpriteShape) (atlas : Atlas α) :
    (ItemGeometry.ofSprite m s.elements atlas).corners.size
      = 8 * s.layers * (2 * s.columns + 1) := by
  have htwo : (s.elements : List (Element α)).map (fun e => e.faces.length)
      = List.replicate s.elements.length 2 :=
    List.map_eq_replicate_iff.2 fun e he => s.length_faces he
  rw [ItemGeometry.ofSprite, size_corners_ofModel]
  dsimp only
  rw [htwo, List.sum_replicate, SpriteShape.length_elements, smul_eq_mul]
  ring

end Corners

/-- **Flat items divide their texture exactly.**  The boxes of an item are those of its layers in
order, each with two stripes for every pixel column, and a slab behind them.  Measured exactly, the
boxes of a layer divide its texture, whatever the number of layers, the number of columns, the
thickness and the tint.  So an item has eight corners for each box, however it is measured and
whatever model it belongs to. -/
theorem sprite_tiles_texture (s : SpriteShape) (hp : 1 ≤ s.precision) :
    (∃ stripes : Nat → List (Element ℚ), ∃ slab : Nat → Element ℚ,
      s.elements = (List.range s.layers).flatMap (fun layer => stripes layer ++ [slab layer]) ∧
      ∀ layer, TilesLayer s layer (stripes layer) (slab layer)) ∧
    ∀ (α : Type) [Scalar α] [Trig α] (m : Model α) (atlas : Atlas α),
      (ItemGeometry.ofSprite m s.elements atlas).corners.size
        = 8 * s.layers * (2 * s.precision + 1) := by
  refine ⟨⟨s.layerStripes, s.slab, s.elements_eq, fun layer => s.tilesLayer layer hp⟩, ?_⟩
  intro α _ _ m atlas
  have hcolumns : s.columns = s.precision := Nat.max_eq_right hp
  rw [ItemGeometry.size_corners_ofSprite, hcolumns]

/-- Two layers of three columns each. -/
def arrowShape : SpriteShape := ⟨2, 3, 1, true⟩

theorem sprite_tiles_texture_arrow :
    1 ≤ arrowShape.precision ∧
    (∀ (m : Model ℚ) (atlas : Atlas ℚ) [Trig ℚ],
      (ItemGeometry.ofSprite m arrowShape.elements atlas).corners.size = 112) ∧
    ∃ stripes : Nat → List (Element ℚ), ∃ slab : Nat → Element ℚ,
      arrowShape.elements
        = [0, 1].flatMap (fun layer => stripes layer ++ [slab layer]) ∧
      ∀ layer, TilesLayer arrowShape layer (stripes layer) (slab layer) := by
  have hp : 1 ≤ arrowShape.precision := by decide
  obtain ⟨⟨stripes, slab, helements, hlayers⟩, hcorners⟩ := sprite_tiles_texture arrowShape hp
  exact ⟨hp, fun m atlas _ => hcorners ℚ m atlas, stripes, slab, helements, hlayers⟩

end VoxelBake
