/-
**Texture coordinates stay in the texture that they name.**

A face samples a part of a texture, and of an animation a part of its first frame; what comes later
is reached by moving the frame over the grid in which all frames stand.  Read as exact rationals,
the coordinates of every part lie in the rectangle of the first frame, and moving this rectangle
by whole frames leads from cell to cell of the grid, never out of it.  One length serves for both
directions, because the cells of a grid are squares.

Main definitions:

* `Rect.Inside`, `Rect.Beside`, `Rect.HasPoint` — how rectangles and points lie to each other;
* `Rect.cell` — a cell of a grid of squares;
* `Texture.Decoded` — a texture as it is read from a file: not animated, or arranged as a grid;
* `Entry.frame` — where a frame of an animation is looked for.

Main results:

* `Rect.cell_inside`, `Rect.cell_beside` — cells stay in the grid and apart from each other;
* `Entry.frame_eq` — moving the first frame leads to the cells of the grid;
* `AtlasBuilder.uvs_stay_in_frame` — **texture coordinates stay in the texture that they name**.
-/
import Mathlib.Algebra.Order.Field.Basic
import Mathlib.Algebra.Order.Ring.Rat
import Mathlib.Tactic.FieldSimp
import Mathlib.Tactic.Linarith
import Mathlib.Tactic.Positivity
import VoxelBake.Proofs.AtlasLayout
import VoxelBake.Proofs.LockedTextures

set_option relaxedAutoImplicit false
set_option autoImplicit false

namespace VoxelBake

/-! ### Rectangles -/

namespace Rect

section Relations

variable {α : Type} [Add α] [LE α]

/-- The first rectangle lies in the second one. -/
def Inside (r s : Rect α) : Prop :=
  (s.x ≤ r.x ∧ r.x + r.width ≤ s.x + s.width) ∧ s.y ≤ r.y ∧ r.y + r.height ≤ s.y + s.height

/-- The rectangles have no more than edges in common. -/
def Beside (r s : Rect α) : Prop :=
  (r.x + r.width ≤ s.x ∨ s.x + s.width ≤ r.x) ∨ r.y + r.height ≤ s.y ∨ s.y + s.height ≤ r.y

/-- The point lies in the rectangle or on its edge. -/
def HasPoint (r : Rect α) (u v : α) : Prop :=
  (r.x ≤ u ∧ u ≤ r.x + r.width) ∧ r.y ≤ v ∧ v ≤ r.y + r.height

omit [LE α] in
/-- The rectangle moved to the right and downwards. -/
def moved (r : Rect α) (right down : α) : Rect α := { r with x := r.x + right, y := r.y + down }

end Relations

/-- A cell of a grid of squares that fills a rectangle from its corner on, row by row. -/
def cell (r : Rect Nat) (side perRow i : Nat) : Rect Nat :=
  ⟨r.x + i % perRow * side, r.y + i / perRow * side, side, side⟩

/-- The cells of a grid lie in it. -/
theorem cell_inside {r : Rect Nat} {side perRow count i : Nat} (hp : 0 < perRow)
    (hw : r.width = perRow * side) (hh : r.height = gridRows count perRow * side)
    (hi : i < count) : (r.cell side perRow i).Inside r := by
  have hcolumn : i % perRow + 1 ≤ perRow := Nat.mod_lt i hp
  have hrow : i / perRow + 1 ≤ gridRows count perRow := by
    rw [gridRows, Nat.le_div_iff_mul_le hp, Nat.add_mul, Nat.one_mul]
    have := Nat.div_mul_le_self i perRow
    omega
  have hx := Nat.mul_le_mul_right side hcolumn
  have hy := Nat.mul_le_mul_right side hrow
  rw [Nat.add_mul, Nat.one_mul] at hx hy
  simp only [Inside, cell, hw, hh]
  omega

/-- Different cells of a grid lie beside each other. -/
theorem cell_beside (r : Rect Nat) (side perRow : Nat) {i j : Nat} (h : i ≠ j) :
    (r.cell side perRow i).Beside (r.cell side perRow j) := by
  have before : ∀ {m n : Nat} (start : Nat), m < n →
      start + m * side + side ≤ start + n * side := by
    intro m n start hmn
    have hle := Nat.mul_le_mul_right side (Nat.succ_le_of_lt hmn)
    rw [Nat.succ_mul] at hle
    omega
  by_cases hcolumn : i % perRow = j % perRow
  · have hrow : i / perRow ≠ j / perRow := by
      intro hrow
      apply h
      rw [← Nat.div_add_mod i perRow, ← Nat.div_add_mod j perRow, hcolumn, hrow]
    exact Or.inr ((Nat.lt_or_gt_of_ne hrow).imp (before _) (before _))
  · exact Or.inl ((Nat.lt_or_gt_of_ne hcolumn).imp (before _) (before _))

/-! ### In units of a page -/

theorem natCast_div_le {m n : Nat} (h : m ≤ n) (edge : Nat) :
    (m : Rat) / (edge : Rat) ≤ (n : Rat) / (edge : Rat) :=
  div_le_div_of_nonneg_right (Nat.cast_le.2 h) (Nat.cast_nonneg edge)

theorem natCast_add_div (m n edge : Nat) :
    (m : Rat) / (edge : Rat) + (n : Rat) / (edge : Rat) = ((m + n : Nat) : Rat) / (edge : Rat) := by
  rw [Nat.cast_add, add_div]

theorem Inside.scaled {r s : Rect Nat} (h : r.Inside s) (edge : Nat) :
    (r.scaled edge : Rect Rat).Inside (s.scaled edge) := by
  obtain ⟨⟨hl, hr⟩, ht, hb⟩ := h
  have hends : ∀ {k l m n : Nat}, k + l ≤ m + n →
      (k : Rat) / (edge : Rat) + (l : Rat) / (edge : Rat)
        ≤ (m : Rat) / (edge : Rat) + (n : Rat) / (edge : Rat) := by
    intro k l m n hle
    rw [natCast_add_div, natCast_add_div]
    exact natCast_div_le hle edge
  exact ⟨⟨natCast_div_le hl edge, hends hr⟩, natCast_div_le ht edge, hends hb⟩

theorem Beside.scaled {r s : Rect Nat} (h : r.Beside s) (edge : Nat) :
    (r.scaled edge : Rect Rat).Beside (s.scaled edge) := by
  have before : ∀ {m n k : Nat}, m + n ≤ k →
      (m : Rat) / (edge : Rat) + (n : Rat) / (edge : Rat) ≤ (k : Rat) / (edge : Rat) := by
    intro m n k hle
    rw [natCast_add_div]
    exact natCast_div_le hle edge
  exact h.imp (fun h => h.imp before before) fun h => h.imp before before

/-- A rectangle of a page lies in the unit square. -/
theorem Within.scaled_inside {r : Rect Nat} {edge : Nat} (h : r.Within edge) (he : 0 < edge) :
    (r.scaled edge : Rect Rat).Inside Rect.unit := by
  have hunit : Rect.unit = ((⟨0, 0, edge, edge⟩ : Rect Nat).scaled edge : Rect Rat) := by
    have hne : (edge : Rat) ≠ 0 := Nat.cast_ne_zero.2 (Nat.pos_iff_ne_zero.1 he)
    have hzero : ((0 : Nat) : Rat) / (edge : Rat) = ((0 : Nat) : Rat) := by simp
    have hone : (edge : Rat) / (edge : Rat) = ((1 : Nat) : Rat) := by simp [hne]
    simp only [Rect.unit, Rect.scaled]
    rw [Rect.mk.injEq]
    exact ⟨hzero.symm, hzero.symm, hone.symm, hone.symm⟩
  rw [hunit]
  refine Inside.scaled ⟨⟨Nat.zero_le _, ?_⟩, Nat.zero_le _, ?_⟩ edge
  · simpa using h.1
  · simpa using h.2

/-- What lies at fractions between zero and one of its edges lies in the rectangle. -/
theorem locate_hasPoint {r : Rect Rat} {u v : Rat} (hw : 0 ≤ r.width) (hh : 0 ≤ r.height)
    (hu : 0 ≤ u ∧ u ≤ 1) (hv : 0 ≤ v ∧ v ≤ 1) :
    r.HasPoint (r.locate u v).1 (r.locate u v).2 :=
  ⟨⟨le_add_of_nonneg_right (mul_nonneg hu.1 hw),
      add_le_add_right (mul_le_of_le_one_left hw hu.2) r.x⟩,
    le_add_of_nonneg_right (mul_nonneg hv.1 hh),
      add_le_add_right (mul_le_of_le_one_left hh hv.2) r.y⟩

end Rect

/-! ### Parts of a texture -/

theorem Quad.toList_map {β γ : Type} (f : β → γ) (q : Quad β) :
    (q.map f).toList = q.toList.map f := rfl

/-- A part of a texture with all coordinates between zero and sixteen, in any order. -/
def UvRect.InTexture (r : UvRect Rat) : Prop :=
  ((0 ≤ r.u1 ∧ r.u1 ≤ 16) ∧ 0 ≤ r.v1 ∧ r.v1 ≤ 16) ∧ (0 ≤ r.u2 ∧ r.u2 ≤ 16) ∧ 0 ≤ r.v2 ∧ r.v2 ≤ 16

/-- A point of the unit square. -/
def InUnitSquare (p : Rat × Rat) : Prop := (0 ≤ p.1 ∧ p.1 ≤ 1) ∧ 0 ≤ p.2 ∧ p.2 ≤ 1

theorem inBlocks_mem {a : Rat} (h : 0 ≤ a ∧ a ≤ 16) : 0 ≤ inBlocks a ∧ inBlocks a ≤ 1 := by
  have h16 : inBlocks a = a / 16 := rfl
  rw [h16]
  constructor <;> linarith

theorem UvRect.InTexture.corners {r : UvRect Rat} (h : r.InTexture) :
    ∀ c ∈ r.corners.toList, InUnitSquare c := by
  obtain ⟨⟨hu1, hv1⟩, hu2, hv2⟩ := h
  simp only [UvRect.corners, Quad.toList, List.forall_mem_cons]
  exact ⟨⟨inBlocks_mem hu1, inBlocks_mem hv1⟩, ⟨inBlocks_mem hu2, inBlocks_mem hv1⟩,
    ⟨inBlocks_mem hu1, inBlocks_mem hv2⟩, ⟨inBlocks_mem hu2, inBlocks_mem hv2⟩, by simp⟩

/-- Quarter turns keep the unit square. -/
theorem rotateArea_mem {p : Rat × Rat} (h : InUnitSquare p) (turns : Nat) :
    InUnitSquare (rotateArea p.1 p.2 turns) := by
  rw [rotateArea_eq]
  induction turns % 4 with
  | zero => exact h
  | succ n ih =>
      obtain ⟨⟨hu, hu'⟩, hv⟩ := ih
      have hflip : ((1 : Nat) : Rat) = 1 := Nat.cast_one
      refine ⟨hv, ?_, ?_⟩
      · change 0 ≤ ((1 : Nat) : Rat) - (Nat.repeat quarterArea n p).1
        rw [hflip]
        linarith
      · change ((1 : Nat) : Rat) - (Nat.repeat quarterArea n p).1 ≤ 1
        rw [hflip]
        linarith

/-! ### Grids of frames -/

theorem gridColumns_pos (count : Nat) : 0 < gridColumns count := Nat.le_max_left 1 _

theorem gridRows_pos {count perRow : Nat} (hc : 0 < count) (hp : 0 < perRow) :
    0 < gridRows count perRow :=
  Nat.div_pos (by omega) hp

/-- What a grid shows in a cell: a frame of the strip, or nothing if there is no frame left. -/
theorem texel_cell_arrangeFrames {strip : Raster} {frames : List Nat} {perRow i x y : Nat}
    (hp : 0 < perRow) (hx : x < strip.width) (hy : y < strip.width) :
    (arrangeFrames strip frames perRow).texel (i % perRow * strip.width + x)
        (i / perRow * strip.width + y)
      = (frames[i]?.map fun f => strip.texel x (frameTop strip.width f + y)).getD Texel.clear := by
  have hside : 0 < strip.width := Nat.zero_lt_of_lt hx
  have hdiv : ∀ k {z : Nat}, z < strip.width → (k * strip.width + z) / strip.width = k := by
    intro k z hz
    rw [Nat.add_comm, Nat.add_mul_div_right _ _ hside, Nat.div_eq_of_lt hz, Nat.zero_add]
  have hmod : ∀ k {z : Nat}, z < strip.width → (k * strip.width + z) % strip.width = z := by
    intro k z hz
    rw [Nat.add_comm, Nat.add_mul_mod_self_right, Nat.mod_eq_of_lt hz]
  have hcell : i / perRow * perRow + i % perRow = i := Nat.div_add_mod' i perRow
  by_cases hinside : i % perRow * strip.width + x < perRow * strip.width ∧
      i / perRow * strip.width + y < gridRows frames.length perRow * strip.width
  · rw [arrangeFrames, Raster.texel_generate _ hinside.1 hinside.2]
    simp only [hdiv _ hx, hdiv _ hy, hmod _ hx, hmod _ hy, hcell, List.getElem?_toArray]
    cases frames[i]? <;> rfl
  · -- the cells of the frames lie in the grid
    have hnone : frames[i]? = none := by
      refine List.getElem?_eq_none (Nat.le_of_not_lt fun hi => hinside ?_)
      obtain ⟨⟨-, hright⟩, -, hbottom⟩ :=
        (⟨0, 0, perRow * strip.width, gridRows frames.length perRow * strip.width⟩ :
          Rect Nat).cell_inside hp rfl rfl hi
      simp only [Rect.cell, Nat.zero_add] at hright hbottom
      omega
    rw [hnone]
    by_cases hright : i % perRow * strip.width + x < perRow * strip.width
    · exact Raster.texel_of_le_right (Nat.le_of_not_lt fun hbottom => hinside ⟨hright, hbottom⟩) _
    · exact Raster.texel_of_le_left (Nat.le_of_not_lt hright) _

/-- **A cell of a grid holds its frame of the strip.** -/
theorem texel_arrangeFrames {strip : Raster} {frames : List Nat} {perRow i f x y : Nat}
    (hp : 0 < perRow) (hf : frames[i]? = some f) (hx : x < strip.width) (hy : y < strip.width) :
    (arrangeFrames strip frames perRow).texel (i % perRow * strip.width + x)
        (i / perRow * strip.width + y)
      = strip.texel x (frameTop strip.width f + y) := by
  rw [texel_cell_arrangeFrames hp hx hy, hf]
  rfl

namespace Texture

variable {α : Type} [Scalar α]

/-- A texture as it is read from a file: not animated, or a strip arranged as a grid. -/
def Decoded (t : Texture α) : Prop :=
  t.animation = none ∨ ∃ strip s, t = animate strip s

/-- An animation that was read is played as its grid was arranged. -/
theorem animate_spec {strip : Raster} {s : AnimationSection α} {a : Animation α}
    (h : (animate strip s).animation = some a) :
    a.count = (shownFrames (frameCount strip) s.frames).length ∧ 0 < a.count ∧
      a.perRow = gridColumns a.count ∧
      (animate strip s).image
        = arrangeFrames strip (shownFrames (frameCount strip) s.frames) a.perRow := by
  simp only [animate] at h ⊢
  split at h
  · cases h
  · rename_i hmany
    cases h
    simp only [if_neg hmany]
    exact ⟨trivial, by omega, trivial, trivial⟩

theorem Decoded.grid_pos {t : Texture α} (h : t.Decoded) {a : Animation α}
    (ha : t.animation = some a) : 0 < a.perRow ∧ 0 < a.rows := by
  rcases h with hstill | ⟨strip, s, rfl⟩
  · rw [hstill] at ha
    cases ha
  · obtain ⟨-, hcount, hperRow, -⟩ := animate_spec ha
    have hpos : 0 < a.perRow := hperRow ▸ gridColumns_pos a.count
    exact ⟨hpos, gridRows_pos hcount hpos⟩

theorem animation_asPacked (t : Texture α) (size limit : Nat) :
    (AtlasBuilder.asPacked size limit t).animation = t.animation := by
  simp only [AtlasBuilder.asPacked, fitWithin]
  split
  · rfl
  · split <;> rfl

end Texture

/-! ### The first frame and the later ones -/

namespace Entry

/-- Where a frame of an animation is looked for: the first frame is moved by whole frames, in both
directions by as much as a frame is wide. -/
def frame {α : Type} [Scalar α] (e : Entry α) (perRow i : Nat) : Rect α :=
  e.firstFrame.moved (((i % perRow : Nat) : α) * e.playback.frameWidth)
    (((i / perRow : Nat) : α) * e.playback.frameWidth)

variable {e : Entry Rat}

/-- The first frame lies in the rectangle of its texture. -/
theorem firstFrame_inside (h : ∀ a, e.animation = some a → 0 < a.perRow ∧ 0 < a.rows)
    (hw : 0 ≤ e.bounds.width) (hh : 0 ≤ e.bounds.height) :
    e.firstFrame.Inside e.bounds ∧ 0 ≤ e.firstFrame.width ∧ 0 ≤ e.firstFrame.height := by
  cases ha : e.animation with
  | none =>
      simp only [firstFrame, ha]
      exact ⟨⟨⟨le_rfl, le_rfl⟩, le_rfl, le_rfl⟩, hw, hh⟩
  | some a =>
      obtain ⟨hp, hr⟩ := h a ha
      have hp' : (1 : Rat) ≤ (a.perRow : Rat) := Nat.one_le_cast.2 hp
      have hr' : (1 : Rat) ≤ (a.rows : Rat) := Nat.one_le_cast.2 hr
      simp only [firstFrame, ha]
      refine ⟨⟨⟨le_rfl, ?_⟩, le_rfl, ?_⟩, ?_, ?_⟩
      · exact add_le_add_right (div_le_self hw hp') _
      · exact add_le_add_right (div_le_self hh hr') _
      · exact div_nonneg hw (Nat.cast_nonneg _)
      · exact div_nonneg hh (Nat.cast_nonneg _)

/-- **Moving the first frame leads to the cells of the grid.** -/
theorem frame_eq {a : Animation Rat} {place : Rect Nat} {edge side : Nat}
    (ha : e.animation = some a) (hb : e.bounds = place.scaled edge) (hp : 0 < a.perRow)
    (hr : 0 < a.rows) (hw : place.width = a.perRow * side) (hh : place.height = a.rows * side)
    (i : Nat) : e.frame a.perRow i = (place.cell side a.perRow i).scaled edge := by
  -- a cell is as wide as it is high
  have hpart : ∀ {n : Nat}, 0 < n →
      ((n * side : Nat) : Rat) / (edge : Rat) / (n : Rat) = (side : Rat) / (edge : Rat) := by
    intro n hn
    have hne : (n : Rat) ≠ 0 := Nat.cast_ne_zero.2 (Nat.pos_iff_ne_zero.1 hn)
    rw [Nat.cast_mul, div_right_comm, mul_div_cancel_left₀ _ hne]
  have hmove : ∀ start k : Nat, (start : Rat) / (edge : Rat) + (k : Rat) * ((side : Rat) / edge)
      = ((start + k * side : Nat) : Rat) / (edge : Rat) := by
    intro start k
    rw [Nat.cast_add, Nat.cast_mul, add_div, mul_div_assoc]
  simp only [frame, firstFrame, playback, ha, hb, Rect.moved, Rect.scaled, Rect.cell, hw, hh,
    hpart hp, hpart hr, hmove]

end Entry

/-- **How the frames of an animation stand on a page.**  The first frame, moved by whole frames,
covers one cell of the grid after another; in each cell the page shows the frame of the strip whose
turn it is; no cell leaves the rectangle of the texture, and no two of them overlap. -/
structure Atlas.PlaysFrames (atlas : Atlas Rat) (e : Entry Rat) (strip : Raster)
    (frames : List Nat) (perRow : Nat) : Prop where
  count_eq : e.playback.count = frames.length
  perRow_eq : e.playback.perRow = perRow
  cells : ∃ place : Rect Nat, e.bounds = place.scaled atlas.size ∧
    ∃ page, atlas.pages[e.page]? = some page ∧ ∀ i f, frames[i]? = some f →
      let cell := place.cell strip.width perRow i
      e.frame perRow i = cell.scaled atlas.size ∧
        ∀ x y, x < strip.width → y < strip.width →
          page.image.texel (cell.x + x) (cell.y + y)
            = strip.texel x (frameTop strip.width f + y)
  inside : ∀ i < frames.length, (e.frame perRow i).Inside e.bounds
  beside : ∀ i < frames.length, ∀ j < frames.length, i ≠ j →
    (e.frame perRow i).Beside (e.frame perRow j)

/-- A grid that lies on a page as it was arranged plays its frames. -/
theorem Atlas.Holds.playsFrames {atlas : Atlas Rat} {strip : Raster} {s : AnimationSection Rat}
    {a : Animation Rat} {e : Entry Rat} {place : Rect Nat}
    (ha : (Texture.animate strip s).animation = some a)
    (h : atlas.Holds (Texture.animate strip s) e place) :
    atlas.PlaysFrames e strip (shownFrames (frameCount strip) s.frames) a.perRow := by
  obtain ⟨hcount, hpos, hperRow, himage⟩ := Texture.animate_spec ha
  have hp : 0 < a.perRow := hperRow ▸ gridColumns_pos a.count
  have hw : place.width = a.perRow * strip.width := by
    rw [h.width_eq, himage]
    rfl
  have hh : place.height = gridRows a.count a.perRow * strip.width := by
    rw [h.height_eq, himage, hcount]
    rfl
  have hea : e.animation = some a := h.animation_eq.trans ha
  have hframe : ∀ i, e.frame a.perRow i = (place.cell strip.width a.perRow i).scaled atlas.size :=
    Entry.frame_eq hea h.bounds_eq hp (gridRows_pos hpos hp) hw hh
  obtain ⟨page, hpage, -, -, htexels⟩ := h.texels
  refine ⟨?_, ?_, ⟨place, h.bounds_eq, page, hpage, fun i f hf => ⟨hframe i, ?_⟩⟩, ?_, ?_⟩
  · simp only [Entry.playback, hea, hcount]
  · simp only [Entry.playback, hea]
  · intro x y hx hy
    have hi : i < a.count := hcount ▸ (List.getElem?_eq_some_iff.1 hf).1
    obtain ⟨⟨-, hright⟩, -, hbottom⟩ := place.cell_inside hp hw hh hi
    rw [← texel_arrangeFrames hp hf hx hy, ← himage]
    simp only [Rect.cell] at hright hbottom ⊢
    rw [Nat.add_assoc, Nat.add_assoc, htexels _ _ (by omega) (by omega)]
  · intro i hi
    rw [hframe, h.bounds_eq]
    exact (place.cell_inside hp hw hh (hcount ▸ hi)).scaled atlas.size
  · intro i _ j _ hij
    rw [hframe, hframe]
    exact (place.cell_beside strip.width a.perRow hij).scaled atlas.size

namespace AtlasBuilder

section Exact

variable [Gamma Rat]

/-- **Texture coordinates stay in the texture that they name.**  Let an atlas be built from textures
as they are read from files.  Then every name of it has a page, on which the rectangle of its first
frame lies inside that of the texture.  The coordinates of each part of the texture, whichever way
its corners stand and however its area is turned, lie in the rectangle of the first frame, and their
third component is the number of this page.  An animation that was not made smaller plays its frames
by moving the first one. -/
theorem uvs_stay_in_frame (size : Nat) (fill : Float32) (mipLevels : Nat)
    (added : List (Named Rat)) (hadded : ∀ id t, lastAdded added id = some t → t.Decoded)
    {atlas : Atlas Rat} (h : (ofTextures size fill mipLevels added).build = .ok atlas)
    {id : Identifier} {e : Entry Rat} (he : atlas.entries.get? id = some e) :
    (∃ page, atlas.pages[e.page]? = some page) ∧ e.bounds.Inside Rect.unit ∧
    e.firstFrame.Inside e.bounds ∧
    (∀ part : UvRect Rat, part.InTexture → ∀ turns,
      (atlas.uvs id part turns).2 = e.playback ∧
      ∀ uv ∈ (atlas.uvs id part turns).1.toList,
        e.firstFrame.HasPoint uv.x uv.y ∧ uv.z = (e.page : Rat)) ∧
    ∀ strip s a, lastAdded added id = some (Texture.animate strip s) →
      (Texture.animate strip s).animation = some a →
      asPacked atlas.size (areaLimit atlas.size fill) (Texture.animate strip s)
        = Texture.animate strip s →
      atlas.PlaysFrames e strip (shownFrames (frameCount strip) s.frames) a.perRow := by
  obtain ⟨hpos, t, place, ht, hholds⟩ := exists_holds h he
  have hgrid : ∀ a, e.animation = some a → 0 < a.perRow ∧ 0 < a.rows := by
    intro a ha
    rw [hholds.animation_eq, Texture.animation_asPacked] at ha
    exact (hadded id t ht).grid_pos ha
  have hnonneg : ∀ n : Nat, (0 : Rat) ≤ (n : Rat) / (atlas.size : Rat) := fun n =>
    div_nonneg (Nat.cast_nonneg n) (Nat.cast_nonneg _)
  have hw : 0 ≤ e.bounds.width := by
    rw [hholds.bounds_eq]
    exact hnonneg place.width
  have hh : 0 ≤ e.bounds.height := by
    rw [hholds.bounds_eq]
    exact hnonneg place.height
  obtain ⟨hinside, hfw, hfh⟩ := Entry.firstFrame_inside hgrid hw hh
  have hentry : atlas.entry id = e := by rw [Atlas.entry, he]
  obtain ⟨page, hpage, -⟩ := hholds.texels
  refine ⟨⟨page, hpage⟩, ?_, hinside, ?_, ?_⟩
  · rw [hholds.bounds_eq]
    exact hholds.within.scaled_inside hpos
  · intro part hpart turns
    refine ⟨congrArg Entry.playback hentry, fun uv huv => ?_⟩
    -- every coordinate is a point of the unit square, placed in the first frame
    rw [Atlas.fst_uvs, Quad.toList_map] at huv
    obtain ⟨c, hc, rfl⟩ := List.mem_map.1 huv
    obtain ⟨hu, hv⟩ := rotateArea_mem (hpart.corners c hc) turns
    simp only [Atlas.sample, hentry]
    exact ⟨Rect.locate_hasPoint hfw hfh hu hv, trivial⟩
  · intro strip s a hlast ha hpacked
    obtain rfl : t = Texture.animate strip s := Option.some.inj (ht.symm.trans hlast)
    rw [hpacked] at hholds
    exact hholds.playsFrames ha

end Exact

/-- Colours that are stored as they are. -/
@[reducible]
def straightGamma : Gamma Rat := ⟨fun c => c, fun c => c⟩

/-- A strip of three frames, each of one colour. -/
def lanternStrip : Raster :=
  Raster.generate 4 12 fun _ y => ⟨250, 160, UInt8.ofNat (60 * (y / 4)), 255⟩

/-- How a lantern is played: the last frame before the second one. -/
def lanternSection : AnimationSection Rat := ⟨some [0, 2, 1], none, false⟩

/-- A lantern that is animated, and stone that is not. -/
def lanternTextures : List (Named Rat) :=
  [(⟨"minecraft", "block/lantern"⟩, .animate lanternStrip lanternSection),
    (⟨"minecraft", "block/stone"⟩, .still (Raster.fill 16 16 ⟨128, 128, 128, 255⟩))]

theorem uvs_stay_in_frame_lantern :
    letI := straightGamma
    ∃ (atlas : Atlas Rat) (e : Entry Rat),
      (ofTextures 32 ((1 : Nat) : Float32) 0 lanternTextures).build = .ok atlas ∧
      atlas.entries.get? ⟨"minecraft", "block/lantern"⟩ = some e ∧
      (∀ uv ∈ (atlas.uvs ⟨"minecraft", "block/lantern"⟩ ⟨16, 0, 4, 16⟩ 1).1.toList,
        e.firstFrame.HasPoint uv.x uv.y ∧ uv.z = (e.page : Rat)) ∧
      atlas.PlaysFrames e lanternStrip [0, 2, 1] 2 := by
  let _ := straightGamma
  have hmem : ∀ id t, lastAdded lanternTextures id = some t →
      (id, t) ∈ reserved ++ lanternTextures := by
    intro id t ht
    obtain ⟨l₁, l₂, hl, -⟩ := List.lookup_eq_some_iff.1 ht
    exact List.mem_reverse.1 (hl ▸ by simp)
  have hdecoded : ∀ id t, lastAdded lanternTextures id = some t → t.Decoded := by
    intro id t ht
    have hin := hmem id t ht
    simp only [reserved, lanternTextures, List.cons_append, List.nil_append, List.mem_cons,
      Prod.mk.injEq, List.not_mem_nil, or_false] at hin
    obtain ⟨-, rfl⟩ | ⟨-, rfl⟩ | ⟨-, rfl⟩ | ⟨-, rfl⟩ | ⟨-, rfl⟩ := hin
    · exact Or.inl rfl
    · exact Or.inl rfl
    · exact Or.inl rfl
    · exact Or.inr ⟨_, _, rfl⟩
    · exact Or.inl rfl
  have hfits : ∀ t ∈ reserved ++ lanternTextures, t.2.Fits (max 1 32) := by decide +kernel
  obtain ⟨pages, -, hbuild⟩ | ⟨id, t, ht, hfit, -⟩ :=
    build_cases 32 ((1 : Nat) : Float32) 0 lanternTextures
  · have hkey := (mem_keys_build hbuild).2
      (Or.inr (by decide : ⟨"minecraft", "block/lantern"⟩ ∈ lanternTextures.map Prod.fst))
    obtain ⟨e, he⟩ := Option.isSome_iff_exists.1 (Table.contains_eq_true_iff.2 hkey)
    obtain ⟨-, -, -, huvs, hplays⟩ := uvs_stay_in_frame 32 _ 0 lanternTextures hdecoded hbuild he
    have hpart : (⟨16, 0, 4, 16⟩ : UvRect Rat).InTexture := by
      norm_num [UvRect.InTexture]
    have hlast : lastAdded lanternTextures ⟨"minecraft", "block/lantern"⟩
        = some (.animate lanternStrip lanternSection) := by
      have hne : ((⟨"minecraft", "block/lantern"⟩ : Identifier) == ⟨"minecraft", "block/stone"⟩)
          = false := by decide
      simp [lastAdded, lanternTextures, List.lookup_cons, hne]
    have hpacked := asPacked_of_fits (hfits _ (hmem _ _ hlast))
    exact ⟨_, e, hbuild, he, (huvs _ hpart 1).2, hplays _ _ _ hlast rfl (hpacked _)⟩
  · -- every texture fits
    rw [asPacked_of_fits (hfits _ (hmem _ _ ht))] at hfit
    exact absurd (hfits _ (hmem _ _ ht)) hfit

end AtlasBuilder

end VoxelBake
