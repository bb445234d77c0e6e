/-
**What a texel of a smaller copy depends on.**

Each level of a chain of copies is the halved level before it, so a texel of level `k` is computed
from four texels of level `k - 1`, from at most sixteen of the level before that, and in the end
from some texels of the image itself: its *footprint*.  Texels outside of the footprint have no say.
If the edges of the image can be halved `k` times without remainder, nothing is ever cut off at an
edge, and the footprint is the block of `2 ^ k` columns and rows that lies below the texel.

Main definitions:

* `Mip.level` — an image halved some number of times;
* `Mip.footprint` — the texels that a texel of a level is computed from;
* `Page.level?`, `Atlas.level?` — the levels of a page, the page itself being level zero.

Main results:

* `Mip.levelEdge_eq` — the edge of a level, rounded down at each halving;
* `Mip.texel_level_congr` — **a texel depends on its footprint only**;
* `Mip.mem_footprint_iff` — the footprint is a block;
* `Mip.exists_eq_halve` — each copy is the image before it, halved;
* `Mip.getElem?_levels` — the copies of an image are its levels.
-/
import Mathlib.Algebra.Order.Ring.Nat
import Mathlib.Logic.Function.Iterate
import VoxelBake.Atlas.Basic
import VoxelBake.Atlas.Mip

set_option relaxedAutoImplicit false
set_option autoImplicit false

namespace VoxelBake

namespace Mip

/-! ### Edges of the levels -/

/-- The edge of a level. -/
def levelEdge (edge k : Nat) : Nat := halfEdge^[k] edge

theorem levelEdge_succ (edge k : Nat) : levelEdge edge (k + 1) = halfEdge (levelEdge edge k) :=
  Function.iterate_succ_apply' halfEdge k edge

/-- The edge of a level is divided by a power of two, but is at least one. -/
theorem levelEdge_eq {edge : Nat} (hpos : 0 < edge) (k : Nat) :
    levelEdge edge k = max 1 (edge / 2 ^ k) := by
  induction k with
  | zero => rw [Nat.pow_zero, Nat.div_one, Nat.max_eq_right hpos]; rfl
  | succ k ih =>
      rw [levelEdge_succ, ih, halfEdge, Nat.pow_succ, ← Nat.div_div_eq_div_mul]
      omega

/-- An edge that can be halved without remainder is halved without remainder. -/
theorem levelEdge_of_dvd {edge k : Nat} (hpos : 0 < edge) (h : 2 ^ k ∣ edge) :
    levelEdge edge k = edge / 2 ^ k := by
  have hquot : 1 ≤ edge / 2 ^ k := Nat.div_pos (Nat.le_of_dvd hpos h) (Nat.two_pow_pos k)
  rw [levelEdge_eq hpos, Nat.max_eq_right hquot]

/-- The last edge that is halved without remainder is at least two. -/
theorem two_le_div_of_dvd {edge k : Nat} (hpos : 0 < edge) (h : 2 ^ (k + 1) ∣ edge) :
    2 ≤ edge / 2 ^ k := by
  rw [Nat.le_div_iff_mul_le (Nat.two_pow_pos k), Nat.mul_comm, ← Nat.pow_succ]
  exact Nat.le_of_dvd hpos h

/-! ### Levels -/

section Levels

variable (α : Type) [Scalar α] [Gamma α]

/-- The image after some halvings. -/
def level (k : Nat) (r : Raster) : Raster := (halve α)^[k] r

theorem level_succ (k : Nat) (r : Raster) : level α (k + 1) r = halve α (level α k r) :=
  Function.iterate_succ_apply' (halve α) k r

@[simp] theorem width_level (k : Nat) (r : Raster) :
    (level α k r).width = levelEdge r.width k := by
  induction k with
  | zero => rfl
  | succ k ih => rw [level_succ, levelEdge_succ, ← ih]; rfl

@[simp] theorem height_level (k : Nat) (r : Raster) :
    (level α k r).height = levelEdge r.height k := by
  induction k with
  | zero => rfl
  | succ k ih => rw [level_succ, levelEdge_succ, ← ih]; rfl

/-- A texel of the halved image is the blend of the four texels that it looks at. -/
theorem texel_halve {r : Raster} {x y : Nat} (hx : x < (halve α r).width)
    (hy : y < (halve α r).height) :
    (halve α r).texel x y
      = blend α ((taps r.width r.height x y).map fun p => r.texel p.1 p.2) x y :=
  Raster.texel_generate _ hx hy

/-- A texel of the halved image depends on the four texels that it looks at. -/
theorem texel_halve_congr {r s : Raster} (hw : s.width = r.width) (hh : s.height = r.height)
    {x y : Nat} (h : ∀ p ∈ taps r.width r.height x y, s.texel p.1 p.2 = r.texel p.1 p.2) :
    (halve α s).texel x y = (halve α r).texel x y := by
  have hw' : (halve α s).width = (halve α r).width := congrArg halfEdge hw
  have hh' : (halve α s).height = (halve α r).height := congrArg halfEdge hh
  refine Raster.texel_related rfl hw' hh' fun hx hy => ?_
  rw [texel_halve α hx hy, texel_halve α (Nat.lt_of_lt_of_eq hx hw')
    (Nat.lt_of_lt_of_eq hy hh'), hw, hh, List.map_congr_left h]

/-- Each copy in a chain is the image before it, halved. -/
theorem exists_eq_halve {levels k : Nat} {r next : Raster}
    (h : (chain α levels r)[k]? = some next) :
    ∃ prev, (r :: chain α levels r)[k]? = some prev ∧ next = halve α prev := by
  induction levels generalizing r k with
  | zero => cases h
  | succ levels ih =>
      rw [chain] at h ⊢
      split at h
      · cases h
      · rename_i hmore
        rw [if_neg hmore]
        cases k with
        | zero => exact ⟨r, rfl, (Option.some.inj h).symm⟩
        | succ k => exact ih h

/-- The copies in a chain are the levels, as long as no level is a single texel. -/
theorem getElem?_chain {levels k : Nat} (hk : k < levels) :
    ∀ {r : Raster}, (∀ j ≤ k, ¬ ((level α j r).width = 1 ∧ (level α j r).height = 1)) →
      (chain α levels r)[k]? = some (level α (k + 1) r) := by
  induction k generalizing levels with
  | zero =>
      intro r h
      obtain ⟨levels, rfl⟩ : ∃ n, levels = n + 1 := ⟨levels - 1, by omega⟩
      have hfirst : ¬ (r.width = 1 ∧ r.height = 1) := h 0 (Nat.le_refl 0)
      rw [chain, if_neg hfirst]
      rfl
  | succ k ih =>
      intro r h
      obtain ⟨levels, rfl⟩ : ∃ n, levels = n + 1 := ⟨levels - 1, by omega⟩
      have hfirst : ¬ (r.width = 1 ∧ r.height = 1) := h 0 (Nat.zero_le _)
      rw [chain, if_neg hfirst]
      exact ih (Nat.lt_of_succ_lt_succ hk) fun j hj => h (j + 1) (Nat.succ_le_succ hj)

/-- An image whose edge can be halved `k` times without remainder has a level `k`. -/
theorem getElem?_levels {r : Raster} {levels k : Nat} (hpos : 0 < r.width)
    (h : 2 ^ k ∣ r.width) (hk : k ≤ levels) :
    (r :: chain α levels r)[k]? = some (level α k r) := by
  cases k with
  | zero => rfl
  | succ k =>
      rw [List.getElem?_cons_succ]
      refine getElem?_chain α hk fun j hj => ?_
      -- up to level `k` there is something to halve
      have hj' : 2 ^ (j + 1) ∣ r.width :=
        Nat.dvd_trans (Nat.pow_dvd_pow 2 (Nat.succ_le_succ hj)) h
      have htwo := two_le_div_of_dvd hpos hj'
      rw [width_level, levelEdge_of_dvd hpos
        (Nat.dvd_trans (Nat.pow_dvd_pow 2 (Nat.le_succ j)) hj')]
      omega

end Levels

/-! ### Footprints -/

/-- The texels of an image of the given size that the texel at column `x` and row `y` of a level is
computed from. -/
def footprint (width height : Nat) : Nat → Nat → Nat → List (Nat × Nat)
  | 0, x, y => [(x, y)]
  | k + 1, x, y =>
      (taps (levelEdge width k) (levelEdge height k) x y).flatMap fun p =>
        footprint width height k p.1 p.2

/-- **A texel of a level depends on its footprint only.** -/
theorem texel_level_congr (α : Type) [Scalar α] [Gamma α] {r s : Raster}
    (hw : s.width = r.width) (hh : s.height = r.height) {k : Nat} :
    ∀ {x y : Nat},
      (∀ p ∈ footprint r.width r.height k x y, s.texel p.1 p.2 = r.texel p.1 p.2) →
      (level α k s).texel x y = (level α k r).texel x y := by
  induction k with
  | zero =>
      intro x y h
      exact h (x, y) (List.mem_singleton.2 rfl)
  | succ k ih =>
      intro x y h
      rw [level_succ, level_succ]
      refine texel_halve_congr α (by simp [hw]) (by simp [hh]) fun q hq => ih fun p hp => h p ?_
      rw [width_level, height_level] at hq
      exact List.mem_flatMap.2 ⟨q, hq, hp⟩

/-- Where nothing is cut off at an edge, column `i` looks at the two columns `2 * i` and
`2 * i + 1`. -/
theorem pair_of_lt {n i : Nat} (h : 2 * i + 1 < n) : pair n i = (2 * i, 2 * i + 1) := by
  simp only [pair, Prod.mk.injEq]
  omega

theorem mem_taps_iff {width height x y : Nat} (hx : 2 * x + 1 < width) (hy : 2 * y + 1 < height)
    {p : Nat × Nat} : p ∈ taps width height x y ↔ p.1 / 2 = x ∧ p.2 / 2 = y := by
  obtain ⟨a, b⟩ := p
  simp only [taps, pair_of_lt hx, pair_of_lt hy, List.mem_cons, List.not_mem_nil, or_false,
    Prod.mk.injEq]
  omega

/-- **The footprint is a block.**  If the edges can be halved `k` times without remainder, a texel
of level `k` is computed from the texels of the block below it. -/
theorem mem_footprint_iff {width height k : Nat} (hw : 2 ^ k ∣ width) (hh : 2 ^ k ∣ height) :
    ∀ {x y : Nat}, x < width / 2 ^ k → y < height / 2 ^ k → ∀ {p : Nat × Nat},
      p ∈ footprint width height k x y ↔ p.1 / 2 ^ k = x ∧ p.2 / 2 ^ k = y := by
  induction k with
  | zero =>
      intro x y _ _ p
      simp [footprint, Prod.ext_iff]
  | succ k ih =>
      intro x y hx hy p
      have hpos : 0 < width ∧ 0 < height := by
        constructor <;> refine Nat.pos_of_ne_zero fun hz => ?_
        · simp [hz] at hx
        · simp [hz] at hy
      have hw' : 2 ^ k ∣ width := Nat.dvd_trans (Nat.pow_dvd_pow 2 (Nat.le_succ k)) hw
      have hh' : 2 ^ k ∣ height := Nat.dvd_trans (Nat.pow_dvd_pow 2 (Nat.le_succ k)) hh
      rw [Nat.pow_succ, ← Nat.div_div_eq_div_mul] at hx hy ⊢
      rw [← Nat.div_div_eq_div_mul]
      have htaps : ∀ q : Nat × Nat,
          q ∈ taps (levelEdge width k) (levelEdge height k) x y ↔ q.1 / 2 = x ∧ q.2 / 2 = y := by
        intro q
        rw [levelEdge_of_dvd hpos.1 hw', levelEdge_of_dvd hpos.2 hh']
        exact mem_taps_iff (by omega) (by omega)
      -- the blocks of the four texels of the level before make up the block of this one
      rw [footprint, List.mem_flatMap]
      constructor
      · rintro ⟨q, hq, hp⟩
        obtain ⟨rfl, rfl⟩ := (htaps q).1 hq
        obtain ⟨hp1, hp2⟩ := (ih hw' hh' (by omega) (by omega)).1 hp
        rw [hp1, hp2]
        exact ⟨rfl, rfl⟩
      · rintro ⟨rfl, rfl⟩
        refine ⟨(p.1 / 2 ^ k, p.2 / 2 ^ k), (htaps _).2 ⟨rfl, rfl⟩, ?_⟩
        exact (ih hw' hh' (by omega) (by omega)).2 ⟨rfl, rfl⟩

end Mip

/-! ### Levels of a page -/

/-- A level of a page: the page itself at level zero, then its copies. -/
def Page.level? (p : Page) (k : Nat) : Option Raster := (p.image :: p.mips)[k]?

/-- A level of a page of an atlas, given by its number. -/
def Atlas.level? {α : Type} (a : Atlas α) (page k : Nat) : Option Raster :=
  a.pages[page]?.bind (·.level? k)

end VoxelBake
