/-
**When an atlas can be built.**

A build fails only because of a texture that is wider or higher than a page when it is packed.
Which textures are made smaller is decided by their area, though: one that stays below the limit of
a page is packed as it is.  So a texture that is long and thin stops the build, and no other texture
does: what is made smaller always fits, since the computation of its new edges is precise enough.

Main definitions:

* `Texture.Measured` — a texture whose edges are counted in 32 bits, and are not zero.

Main results:

* `Texture.fits_fitWithin` — a texture that was made small enough for a page does fit;
* `AtlasBuilder.build_ok_iff` — **a build succeeds exactly if every texture that stays below the
  limit of a page is no wider and no higher than the page**.
-/
import VoxelBake.Proofs.AtlasLayout
import VoxelBake.Proofs.FloatRounding

set_option relaxedAutoImplicit false
set_option autoImplicit false

namespace VoxelBake

namespace Texture

/-! ### Making a texture smaller -/

/-- The new length of the edge: it may exceed the exact one by six parts in `2 ^ 23`, which is less
than one texel on a page that is not too large. -/
theorem scaledEdge_le {size longest edge : Nat} (hsize : 0 < size) (hsize' : size ≤ 2 ^ 20)
    (hlong : size < longest) (hlong' : longest < 2 ^ 32) (hedge : 0 < edge)
    (hedge' : edge ≤ longest) :
    scaledEdge ((size : Float32) / (longest : Float32)) edge ≤ size := by
  have hs : (1 : ℚ) ≤ size := by exact_mod_cast hsize
  have hs' : (size : ℚ) ≤ 2 ^ 20 := by exact_mod_cast hsize'
  have hl : (1 : ℚ) ≤ longest := by exact_mod_cast hsize.trans hlong
  have hl' : (longest : ℚ) ≤ 2 ^ 32 := by exact_mod_cast hlong'.le
  have he : (1 : ℚ) ≤ edge := by exact_mod_cast hedge
  have he' : (edge : ℚ) ≤ longest := by exact_mod_cast hedge'
  have hslack : Single.slack = 1 / 8388608 := by norm_num [Single.slack]
  have hpos : (0 : ℚ) < 1 - Single.slack := by linarith
  have hpos' : (0 : ℚ) < 1 + Single.slack := by linarith
  -- the factor
  have hscale : Single.Between (2 ^ (-35 : Int)) (size / longest * (1 + 4 * Single.slack))
      ((size : Float32) / (longest : Float32)) := by
    have hlow : (2 : ℚ) ^ (-34 : Int)
        ≤ size * (1 - Single.slack) / (longest * (1 + Single.slack)) := by
      rw [hslack, le_div_iff₀ (by positivity)]
      norm_num
      linarith
    have hhigh : size * (1 + Single.slack) / (longest * (1 - Single.slack))
        ≤ (2 : ℚ) ^ (22 : Int) := by
      rw [hslack, div_le_iff₀ (by linarith)]
      norm_num
      linarith
    have hdiv := (Single.between_natCast hsize (by omega)).div
      (Single.between_natCast (Nat.lt_trans hsize hlong) (by omega))
      (mul_pos (by linarith) hpos) (mul_pos (by linarith) hpos)
      (le_trans (by norm_num) hlow) (hhigh.trans (by norm_num))
    refine hdiv.mono ?_ ?_
    · rw [hslack] at hlow ⊢
      norm_num at hlow ⊢
      linarith
    · have hfactor : (1 + Single.slack) / (1 - Single.slack) * (1 + Single.slack)
          ≤ 1 + 4 * Single.slack := by
        rw [hslack]
        norm_num
      rw [mul_div_mul_comm, mul_assoc]
      exact mul_le_mul_of_nonneg_left hfactor (by positivity)
  -- the new length before it is cut to a whole number
  have hlength : (Scalar.truncate ((edge : Float32) * ((size : Float32) / (longest : Float32))) : ℚ)
      < size + 1 := by
    have hbound : edge * (1 + Single.slack) * (size / longest * (1 + 4 * Single.slack))
        ≤ size * (1 + 6 * Single.slack) := by
      have hfactor : (1 + Single.slack) * (1 + 4 * Single.slack) ≤ 1 + 6 * Single.slack := by
        rw [hslack]
        norm_num
      calc edge * (1 + Single.slack) * (size / longest * (1 + 4 * Single.slack))
          = edge / longest * size * ((1 + Single.slack) * (1 + 4 * Single.slack)) := by ring
        _ ≤ 1 * size * (1 + 6 * Single.slack) := by
            have hshare : (edge : ℚ) / longest ≤ 1 := (div_le_one (by linarith)).2 he'
            gcongr
        _ = size * (1 + 6 * Single.slack) := by rw [one_mul]
    have hmul := (Single.between_natCast hedge (by omega)).mul hscale
      (mul_pos (by linarith) hpos) (by positivity) (by rw [hslack]; norm_num; linarith)
      (hbound.trans (by rw [hslack]; norm_num; linarith))
    refine lt_of_le_of_lt
      (hmul.truncate_le.trans (mul_le_mul_of_nonneg_right hbound hpos'.le)) ?_
    rw [hslack]
    linarith
  have hle : Scalar.truncate ((edge : Float32) * ((size : Float32) / (longest : Float32)))
      ≤ size := Nat.lt_succ_iff.1 (by exact_mod_cast hlength)
  exact Nat.max_le.2 ⟨hsize, hle⟩

/-- A texture with edges that are not zero and that are counted in 32 bits. -/
def Measured {α : Type} (t : Texture α) : Prop :=
  (0 < t.image.width ∧ t.image.width < 2 ^ 32) ∧ 0 < t.image.height ∧ t.image.height < 2 ^ 32

/-- **A texture that was made small enough for a page does fit.** -/
theorem fits_fitWithin {size : Nat} {t : Texture Float32} (hsize : 0 < size)
    (hsize' : size ≤ 2 ^ 20) (ht : t.Measured) : (t.fitWithin size).Fits size := by
  obtain ⟨⟨hw, hw'⟩, hh, hh'⟩ := ht
  by_cases hfit : t.image.width ≤ size ∧ t.image.height ≤ size
  · simp only [fitWithin, if_pos hfit]
    exact hfit
  · simp only [fitWithin, if_neg hfit]
    have hlong : size < max t.image.width t.image.height := by omega
    have hlong' : max t.image.width t.image.height < 2 ^ 32 := by omega
    exact ⟨scaledEdge_le hsize hsize' hlong hlong' hw (Nat.le_max_left ..),
      scaledEdge_le hsize hsize' hlong hlong' hh (Nat.le_max_right ..)⟩

end Texture

namespace AtlasBuilder

/-- A texture fits as it is packed unless it stays below the limit and is wider or higher than the
page. -/
theorem fits_asPacked_iff {size limit : Nat} {t : Texture Float32} (hsize : 0 < size)
    (hsize' : size ≤ 2 ^ 20) (ht : t.Measured) :
    (asPacked size limit t).Fits size ↔ (t.area < limit → t.Fits size) := by
  by_cases hlt : t.area < limit
  · simp only [asPacked, if_pos hlt]
    exact ⟨fun h _ => h, fun h => h hlt⟩
  · simp only [asPacked, if_neg hlt]
    exact ⟨fun _ h => absurd h hlt, fun _ => Texture.fits_fitWithin hsize hsize' ht⟩

/-- A build fails exactly because of a texture that does not fit as it is packed. -/
theorem build_ok_iff_fits {α : Type} [Scalar α] [Gamma α] (size : Nat) (fill : Float32)
    (mipLevels : Nat) (added : List (Named α)) :
    (∃ atlas, (ofTextures size fill mipLevels added).build = .ok atlas ∧
        ∀ id ∈ added.map Prod.fst, id ∈ atlas.entries.keys) ↔
      ∀ id t, lastAdded added id = some t →
        (asPacked (max 1 size) (areaLimit (max 1 size) fill) t).Fits (max 1 size) := by
  obtain ⟨pages, hpages, hbuild⟩ | ⟨id, t, ht, hfit, hbuild⟩ :=
    build_cases size fill mipLevels added
  · constructor
    · intro _ id t ht
      rw [lastAdded, ← Table.get?_ofList] at ht
      exact hpages.fits (Table.get?_eq_some_iff.1 ht)
    · intro _
      refine ⟨_, hbuild, fun id hid => ?_⟩
      rw [mem_keys_assemble hpages, Table.mem_keys_ofList, List.map_append, List.mem_append]
      exact Or.inr hid
  · constructor
    · rintro ⟨atlas, hok, -⟩
      rw [hbuild] at hok
      cases hok
    · intro hall
      exact absurd (hall id t ht) hfit

/-- **A build succeeds exactly if every texture fits as it is packed**; on a page that is not too
large, that is if every texture that stays below the limit is no wider and no higher than the
page. -/
theorem build_ok_iff (size : Nat) (fill : Float32) (mipLevels : Nat)
    (added : List (Named Float32)) :
    ((∃ atlas, (ofTextures size fill mipLevels added).build = .ok atlas ∧
        ∀ id ∈ added.map Prod.fst, id ∈ atlas.entries.keys) ↔
      ∀ id t, lastAdded added id = some t →
        (asPacked (max 1 size) (areaLimit (max 1 size) fill) t).Fits (max 1 size)) ∧
    (max 1 size ≤ 2 ^ 20 → ∀ t : Texture Float32, t.Measured →
      ((asPacked (max 1 size) (areaLimit (max 1 size) fill) t).Fits (max 1 size) ↔
        (t.area < areaLimit (max 1 size) fill → t.Fits (max 1 size)))) := by
  refine ⟨build_ok_iff_fits size fill mipLevels added, fun hsize t ht => ?_⟩
  exact fits_asPacked_iff (Nat.le_max_left 1 size) hsize ht

/-- A bar that is twice as wide as a page of 16 texels. -/
def barTextures : List (Named Float32) :=
  [(⟨"minecraft", "block/bar"⟩, .still (Raster.fill 32 1 ⟨9, 9, 9, 255⟩))]

/-- The bar stays below the limit of 248 texels and stops the build. -/
theorem build_bar :
    (ofTextures 16 ((97 : Nat) / (100 : Nat)) 0 barTextures).build
      = .error (.noRoom ⟨"minecraft", "block/bar"⟩ 16) := by
  obtain ⟨pages, hpages, -⟩ | ⟨id, t, ht, hfit, hbuild⟩ :=
    build_cases 16 ((97 : Nat) / (100 : Nat) : Float32) 0 barTextures
  · have hbar : (Table.ofList (reserved ++ barTextures)).get? ⟨"minecraft", "block/bar"⟩
        = some (.still (Raster.fill 32 1 ⟨9, 9, 9, 255⟩)) := by
      rw [Table.get?_ofList]
      rfl
    exact absurd (hpages.fits (Table.get?_eq_some_iff.1 hbar)) (by decide +kernel)
  · -- every other texture fits as it is packed
    have hall : ∀ s ∈ reserved ++ barTextures, s.1 = ⟨"minecraft", "block/bar"⟩ ∨
        (asPacked (max 1 16) (areaLimit (max 1 16) ((97 : Nat) / (100 : Nat))) s.2).Fits
          (max 1 16) := by
      decide +kernel
    obtain ⟨before, after, hsplit, -⟩ := List.lookup_eq_some_iff.1 ht
    have hmem : (id, t) ∈ reserved ++ barTextures := List.mem_reverse.1 (hsplit ▸ by simp)
    obtain rfl := (hall _ hmem).resolve_right hfit
    exact hbuild

end AtlasBuilder

end VoxelBake
