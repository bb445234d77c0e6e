/-
**Arranging a strip loses no frame.**

The frames of a strip that an animation asks for are cut out of the strip one after another and
painted into a grid that was transparent before, row by row.  However many frames stand in a row,
each frame ends up in a cell of its own and stays there: painting one frame changes nothing outside
of its cell.  So the grid holds all frames that were asked for, in the order in which they are
shown, as often as they were asked for, and the cells that are left over stay transparent.

Main definitions:

* `heldFrames` — the frames that an animation asks for and the strip has;
* `cutFrame`, `paintFrame`, `paintFrames` — **a strip painted frame after frame**;
* `Texture.animateStepwise` — the animation of a strip, for any way of finding square roots;
* `Texture.ShowsFrames`, `Texture.Animates` — an animation that shows given frames of a strip, and
  what should become of a strip.

Main results:

* `gridRows_bounds` — no row of a grid is superfluous;
* `texel_paintFrame` — painting a frame changes its cell only;
* `paintFrames_eq` — a painted grid is the grid that is made at once;
* `Texture.animation_shows_frames` — **what becomes of a strip**.
-/
import VoxelBake.Proofs.FrameRectangles

set_option relaxedAutoImplicit false
set_option autoImplicit false

namespace VoxelBake

/-! ### Rows of a grid -/

/-- A grid has as many rows as its frames need, and no row more. -/
theorem gridRows_bounds {count perRow : Nat} (hc : 0 < count) (hp : 0 < perRow) :
    (gridRows count perRow - 1) * perRow < count ∧ count ≤ gridRows count perRow * perRow := by
  have hle := Nat.div_mul_le_self (count + perRow - 1) perRow
  have hlt := Nat.lt_div_mul_add hp (a := count + perRow - 1)
  rw [gridRows, Nat.sub_mul, Nat.one_mul]
  omega

/-! ### The frames of a strip -/

/-- The frames that an animation asks for, or all frames in turn, as far as the strip has them. -/
def heldFrames {α : Type} (strip : Raster) (s : AnimationSection α) : List Nat :=
  let count := strip.height / strip.width
  (s.frames.getD (List.range count)).filter (· < count)

theorem shownFrames_eq {α : Type} (strip : Raster) (s : AnimationSection α) :
    shownFrames (frameCount strip) s.frames = heldFrames strip s := by
  rw [heldFrames, frameCount]
  cases s.frames with
  | some frames => rfl
  | none =>
      refine (List.filter_eq_self.2 fun f hf => ?_).symm
      exact decide_eq_true (List.mem_range.1 hf)

theorem lt_of_mem_heldFrames {α : Type} {strip : Raster} {s : AnimationSection α} {f : Nat}
    (h : f ∈ heldFrames strip s) : f < strip.height / strip.width :=
  of_decide_eq_true (List.mem_filter.1 h).2

/-- The frames of a strip end before the strip does. -/
theorem frame_end_le {strip : Raster} {f : Nat} (h : f < strip.height / strip.width) :
    (f + 1) * strip.width ≤ strip.height :=
  (Nat.mul_le_mul_right _ h).trans (Nat.div_mul_le_self _ _)

/-- In a strip whose rows can be counted in 32 bits the first row of a frame is what it should
be. -/
theorem frameTop_eq {strip : Raster} {f : Nat} (hsize : strip.height < 2 ^ 32)
    (h : f < strip.height / strip.width) : frameTop strip.width f = f * strip.width := by
  have hend := frame_end_le h
  rw [Nat.succ_mul] at hend
  exact Nat.mod_eq_of_lt (by omega)

/-! ### Painting frames -/

/-- A frame cut out of a strip; what lies below the end of the strip is cut off. -/
def cutFrame (strip : Raster) (frame : Nat) : Raster :=
  let top := min (frameTop strip.width frame) strip.height
  Raster.generate strip.width (min strip.width (strip.height - top)) fun x y =>
    strip.texel x (top + y)

/-- A frame painted into a cell of a grid: the frame of the first number into the cell of the
second. -/
def paintFrame (strip : Raster) (perRow : Nat) (grid : Raster) : Nat × Nat → Raster
  | (f, i) => grid.paste (cutFrame strip f) (i % perRow * strip.width) (i / perRow * strip.width)

/-- The frames of a strip painted into a transparent grid, one after another. -/
def paintFrames (strip : Raster) (frames : List Nat) (perRow : Nat) : Raster :=
  frames.zipIdx.foldl (paintFrame strip perRow)
    (Raster.clear (perRow * strip.width) (gridRows frames.length perRow * strip.width))

section CutFrame

variable {strip : Raster} {f x y : Nat}

theorem height_cutFrame_le : (cutFrame strip f).height ≤ strip.width := Nat.min_le_left _ _

theorem texel_cutFrame (hx : x < strip.width) (hy : y < (cutFrame strip f).height) :
    (cutFrame strip f).texel x y = strip.texel x (frameTop strip.width f + y) := by
  have hy' : y < min strip.width (strip.height - min (frameTop strip.width f) strip.height) := hy
  have htop : min (frameTop strip.width f) strip.height = frameTop strip.width f := by omega
  rw [cutFrame, Raster.texel_generate _ hx hy', htop]

/-- What was cut off lies below the end of the strip. -/
theorem height_le_of_cut (hy : (cutFrame strip f).height ≤ y) (h : y < strip.width) :
    strip.height ≤ frameTop strip.width f + y := by
  have hy' : min strip.width (strip.height - min (frameTop strip.width f) strip.height) ≤ y := hy
  omega

end CutFrame

/-- The number of the cell in which a texel of a grid lies. -/
def cellAt (side perRow x y : Nat) : Nat := y / side * perRow + x / side

/-- Where the cell of a texel begins, and where the texel lies in it. -/
theorem cellAt_eq_iff {side perRow x y : Nat} (hp : 0 < perRow) (hx : x < perRow * side) {i : Nat} :
    cellAt side perRow x y = i ↔
      (i % perRow * side ≤ x ∧ x < i % perRow * side + side) ∧
        i / perRow * side ≤ y ∧ y < i / perRow * side + side := by
  have hside : 0 < side := Nat.pos_of_ne_zero fun h => by simp [h] at hx
  have hcolumn : x / side < perRow := Nat.div_lt_of_lt_mul (Nat.mul_comm perRow side ▸ hx)
  have hspan : ∀ k z : Nat, (k * side ≤ z ∧ z < k * side + side) ↔ z / side = k := by
    intro k z
    rw [Nat.div_eq_iff hside]
    omega
  rw [hspan, hspan, cellAt]
  constructor
  · rintro rfl
    rw [Nat.add_comm, Nat.add_mul_mod_self_right, Nat.mod_eq_of_lt hcolumn,
      Nat.add_mul_div_right _ _ hp, Nat.div_eq_of_lt hcolumn, Nat.zero_add]
    exact ⟨rfl, rfl⟩
  · rintro ⟨hcol, hrow⟩
    rw [hcol, hrow, Nat.div_add_mod']

theorem sub_eq_mod {side k z : Nat} (h : k * side ≤ z) (h' : z < k * side + side) :
    z - k * side = z % side := by
  have hlt : z - k * side < side := by omega
  rw [← Nat.mod_eq_of_lt hlt, Nat.mul_comm, Nat.sub_mul_mod (Nat.mul_comm k side ▸ h)]

/-- **Painting a frame changes its cell only.**  The cell must have been transparent: a frame that
the end of the strip cuts off leaves a part of its cell as it was. -/
theorem texel_paintFrame {strip grid : Raster} {perRow i f x y : Nat} (hp : 0 < perRow)
    (hw : grid.width = perRow * strip.width) (hx : x < grid.width) (hy : y < grid.height)
    (hblank : cellAt strip.width perRow x y = i → grid.texel x y = Texel.clear) :
    (paintFrame strip perRow grid (f, i)).texel x y
      = if cellAt strip.width perRow x y = i then
          strip.texel (x % strip.width) (frameTop strip.width f + y % strip.width)
        else grid.texel x y := by
  have hcell := cellAt_eq_iff (y := y) hp (hw ▸ hx) (i := i)
  rw [paintFrame, Raster.texel_paste hx hy]
  by_cases hi : cellAt strip.width perRow x y = i
  · obtain ⟨⟨hl, hr⟩, ht, hb⟩ := hcell.1 hi
    rw [if_pos hi, ← sub_eq_mod hl hr, ← sub_eq_mod ht hb]
    by_cases hcut : y - i / perRow * strip.width < (cutFrame strip f).height
    · rw [if_pos ⟨hl, hr, ht, by omega⟩]
      exact texel_cutFrame (by omega) hcut
    · rw [if_neg fun h => hcut (by omega), hblank hi, Raster.texel_of_le_right]
      exact height_le_of_cut (Nat.le_of_not_lt hcut) (by omega)
  · rw [if_neg hi, if_neg]
    rintro ⟨hl, hr, ht, hb⟩
    have hheight : (cutFrame strip f).height ≤ strip.width := height_cutFrame_le
    exact hi (hcell.2 ⟨⟨hl, hr⟩, ht, by omega⟩)

/-- What a grid shows after some frames were painted. -/
structure Painted (strip : Raster) (frames : List Nat) (perRow rows : Nat) (grid : Raster) :
    Prop where
  width_eq : grid.width = perRow * strip.width
  height_eq : grid.height = rows * strip.width
  texel_eq : ∀ {x y}, x < grid.width → y < grid.height → grid.texel x y =
    (frames[cellAt strip.width perRow x y]?.map fun f =>
      strip.texel (x % strip.width) (frameTop strip.width f + y % strip.width)).getD Texel.clear

namespace Painted

variable {strip grid : Raster} {frames : List Nat} {perRow rows : Nat}

theorem start (strip : Raster) (perRow rows : Nat) :
    Painted strip [] perRow rows (Raster.clear (perRow * strip.width) (rows * strip.width)) :=
  ⟨rfl, rfl, fun hx hy => Raster.texel_generate _ hx hy⟩

/-- The next frame is painted into the next cell. -/
theorem paint (h : Painted strip frames perRow rows grid) (hp : 0 < perRow) (f : Nat) :
    Painted strip (frames ++ [f]) perRow rows
      (paintFrame strip perRow grid (f, frames.length)) := by
  refine ⟨h.width_eq, h.height_eq, fun {x y} hx hy => ?_⟩
  have hblank : cellAt strip.width perRow x y = frames.length →
      grid.texel x y = Texel.clear := by
    intro hcell
    rw [h.texel_eq hx hy, hcell, List.getElem?_eq_none le_rfl]
    rfl
  rw [texel_paintFrame hp h.width_eq hx hy hblank]
  by_cases hcell : cellAt strip.width perRow x y = frames.length
  · rw [if_pos hcell, hcell, List.getElem?_concat_length]
    rfl
  · have hsame : (frames ++ [f])[cellAt strip.width perRow x y]?
        = frames[cellAt strip.width perRow x y]? := by
      rcases Nat.lt_or_gt_of_ne hcell with hlt | hgt
      · exact List.getElem?_append_left hlt
      · rw [List.getElem?_eq_none hgt.le, List.getElem?_eq_none]
        rw [List.length_append, List.length_singleton]
        exact hgt
    rw [if_neg hcell, hsame, h.texel_eq hx hy]

/-- Painting all frames of a list, one after another. -/
theorem foldl (strip : Raster) (hp : 0 < perRow) (rows : Nat) (frames : List Nat) :
    Painted strip frames perRow rows (frames.zipIdx.foldl (paintFrame strip perRow)
      (Raster.clear (perRow * strip.width) (rows * strip.width))) := by
  induction frames using List.reverseRecOn with
  | nil => exact start strip perRow rows
  | append_singleton frames f ih =>
      have hlast : [f].zipIdx frames.length = [(f, frames.length)] := rfl
      rw [List.zipIdx_append, List.foldl_append, Nat.zero_add, hlast]
      exact ih.paint hp f

end Painted

/-- **A grid that is painted frame after frame is the grid that is made at once.** -/
theorem paintFrames_eq (strip : Raster) (frames : List Nat) {perRow : Nat} (hp : 0 < perRow) :
    paintFrames strip frames perRow = arrangeFrames strip frames perRow := by
  have h := Painted.foldl strip hp (gridRows frames.length perRow) frames
  refine Raster.ext_texel h.width_eq h.height_eq fun x y hx hy => ?_
  have hx' : x < perRow * strip.width := h.width_eq ▸ hx
  have hy' : y < gridRows frames.length perRow * strip.width := h.height_eq ▸ hy
  rw [paintFrames, h.texel_eq hx hy, arrangeFrames, Raster.texel_generate _ hx' hy']
  simp only [List.getElem?_toArray, cellAt]
  cases frames[y / strip.width * perRow + x / strip.width]? <;> rfl

/-! ### Animations -/

namespace Texture

variable {α : Type}

/-- An animation that shows given frames of a strip, one after another.  The image is a grid of
cells as large as a frame.  It has no more rows than it needs; each cell shows the frame whose turn
it is, as the strip has it; and the cells that are left over show nothing. -/
structure ShowsFrames (t : Texture α) (a : Animation α) (strip : Raster) (frames : List Nat) :
    Prop where
  animation_eq : t.animation = some a
  count_eq : a.count = frames.length
  perRow_pos : 0 < a.perRow
  width_eq : t.image.width = a.perRow * strip.width
  height_eq : t.image.height = a.rows * strip.width
  rows_tight : (a.rows - 1) * a.perRow < a.count
  rows_enough : a.count ≤ a.rows * a.perRow
  frame : ∀ i f, frames[i]? = some f → (f + 1) * strip.width ≤ strip.height ∧
    ∀ x y, x < strip.width → y < strip.width →
      t.image.texel (i % a.perRow * strip.width + x) (i / a.perRow * strip.width + y)
        = strip.texel x (f * strip.width + y)
  unused : ∀ i, a.count ≤ i → ∀ x y, x < strip.width → y < strip.width →
    t.image.texel (i % a.perRow * strip.width + x) (i / a.perRow * strip.width + y) = Texel.clear

/-- What should become of a strip: an animation that shows the frames that are asked for and that
the strip has, or, if there are fewer than two of them, the strip itself without an animation. -/
def Animates (strip : Raster) (s : AnimationSection α) (t : Texture α) : Prop :=
  (2 ≤ (heldFrames strip s).length → ∃ a, t.ShowsFrames a strip (heldFrames strip s)) ∧
  ((heldFrames strip s).length < 2 → t = still strip)

variable [Scalar α]

/-- A strip with its animation, painted frame after frame, where `root` is the number of frames in
a row unless it is zero. -/
def animateStepwise (root : Nat → Nat) (strip : Raster) (s : AnimationSection α) : Texture α :=
  let frames := shownFrames (frameCount strip) s.frames
  if frames.length ≤ 1 then still strip
  else
    let perRow := max 1 (root frames.length)
    { image := paintFrames strip frames perRow
      animation := some
        { count := frames.length
          perRow := perRow
          interval := s.frameTime.getD ((1 : Nat) : α) * tick
          interpolate := s.interpolate } }

theorem animate_eq_stepwise (strip : Raster) (s : AnimationSection α) :
    animate strip s = animateStepwise (fun count => squareRootFrom count count 0) strip s := by
  simp only [animate, animateStepwise]
  split
  · rfl
  · rw [paintFrames_eq strip _ (Nat.le_max_left 1 _)]
    rfl

/-- **What becomes of a strip**, whichever way square roots are found. -/
theorem animates_animateStepwise (root : Nat → Nat) {strip : Raster} (s : AnimationSection α)
    (hsize : strip.height < 2 ^ 32) : Animates strip s (animateStepwise root strip s) := by
  rw [Animates]
  simp only [animateStepwise, shownFrames_eq]
  refine ⟨fun hmany => ?_, fun hfew => if_pos (Nat.le_of_lt_succ hfew)⟩
  have hpos : 0 < max 1 (root (heldFrames strip s).length) := Nat.le_max_left 1 _
  have hcount : 0 < (heldFrames strip s).length := by omega
  have hrows := gridRows_bounds hcount hpos
  rw [if_neg (by omega), paintFrames_eq strip _ hpos]
  refine ⟨_, rfl, rfl, hpos, rfl, rfl, hrows.1, hrows.2, fun i f hf => ?_, ?_⟩
  · have hheld := lt_of_mem_heldFrames (List.mem_of_getElem? hf)
    refine ⟨frame_end_le hheld, fun x y hx hy => ?_⟩
    rw [← frameTop_eq hsize hheld]
    exact texel_arrangeFrames hpos hf hx hy
  · intro i hi x y hx hy
    have hnone : (heldFrames strip s)[i]? = none := List.getElem?_eq_none hi
    refine (texel_cell_arrangeFrames hpos hx hy).trans ?_
    rw [hnone]
    rfl

/-- **What becomes of a strip.**  If the strip has at least two of the frames that its animation
asks for, they are shown one after another, each from a cell of its own; otherwise the strip stays
as it is.  This does not depend on the way in which the number of frames in a row is found, and the
grid is the one that comes of painting frame after frame. -/
theorem animation_shows_frames (strip : Raster) (s : AnimationSection α)
    (hsize : strip.height < 2 ^ 32) :
    Animates strip s (animate strip s) ∧
    (animate strip s = animateStepwise (fun count => squareRootFrom count count 0) strip s) ∧
    ∀ root, Animates strip s (animateStepwise root strip s) := by
  refine ⟨?_, animate_eq_stepwise strip s, fun root => animates_animateStepwise root s hsize⟩
  rw [animate_eq_stepwise]
  exact animates_animateStepwise _ s hsize

/-- A strip of three frames, each of one colour, with a row to spare. -/
def candleStrip : Raster :=
  Raster.generate 2 7 fun _ y => ⟨255, UInt8.ofNat (80 * (y / 2)), 0, 255⟩

/-- An animation that shows the last of three frames twice and asks for one that is not there. -/
def flicker : AnimationSection Rat := ⟨some [2, 7, 0, 2], none, true⟩

theorem animation_shows_frames_candle :
    candleStrip.height < 2 ^ 32 ∧ heldFrames candleStrip flicker = [2, 0, 2] ∧
    ∃ a, (animate candleStrip flicker).ShowsFrames a candleStrip [2, 0, 2] := by
  have hsize : candleStrip.height < 2 ^ 32 := by decide
  have hheld : heldFrames candleStrip flicker = [2, 0, 2] := by decide
  obtain ⟨hshows, -⟩ := (animation_shows_frames candleStrip flicker hsize).1
  rw [hheld] at hshows
  exact ⟨hsize, hheld, hshows (by decide)⟩

end Texture

end VoxelBake
