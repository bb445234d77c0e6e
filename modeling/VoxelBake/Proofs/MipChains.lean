/-
**How long a chain of copies is.**

Copies of an image are made by halving the last one again, until there are as many as were asked for
or the last one is a single texel.  Halving divides the longer edge by two, and the shorter one too
unless it is one already; so the number of copies is the binary logarithm of the longer edge, if no
fewer are asked for.  No copy is empty, and what its texels look at lies inside of the image before
it.

Main definitions:

* `Mip.addCopy`, `Mip.chainStepwise` — **copies made one after another**, each from the last one.

Main results:

* `Mip.log2_longer_half` — halving shortens the longer edge by a factor of two;
* `Mip.chain_eq_levels` — a chain lists the levels up to the first single texel;
* `Mip.chainStepwise_eq` — the copies made one after another are the chain;
* `Mip.chain_sizes` — **number and size of the copies, and where their texels look**.
-/
import VoxelBake.Proofs.MipLevels

set_option relaxedAutoImplicit false
set_option autoImplicit false

namespace VoxelBake.Mip

/-! ### Halving the longer edge -/

theorem log2_longer_half {w h : Nat} (hmore : ¬ (w = 1 ∧ h = 1)) (hw : 0 < w) (hh : 0 < h) :
    Nat.log2 (max w h) = Nat.log2 (max (halfEdge w) (halfEdge h)) + 1 := by
  have hhalf : max (halfEdge w) (halfEdge h) = max w h / 2 := by
    simp only [halfEdge]
    omega
  rw [hhalf, Nat.log2_def (max w h), if_pos (by omega)]

/-- After as many halvings as the binary logarithm of the longer edge says, and not before, both
edges are one. -/
theorem levelEdge_eq_one_iff {w h : Nat} (hw : 0 < w) (hh : 0 < h) (k : Nat) :
    levelEdge w k = 1 ∧ levelEdge h k = 1 ↔ Nat.log2 (max w h) ≤ k := by
  have hone : ∀ {edge : Nat}, 0 < edge → (levelEdge edge k = 1 ↔ edge < 2 ^ (k + 1)) := by
    intro edge hpos
    rw [levelEdge_eq hpos, Nat.pow_succ, Nat.mul_comm, ← Nat.div_lt_iff_lt_mul (Nat.two_pow_pos k)]
    omega
  rw [hone hw, hone hh, ← Nat.lt_succ_iff, Nat.log2_lt (by omega), Nat.max_lt]

/-! ### Chains -/

section Chains

variable (α : Type) [Scalar α] [Gamma α]

/-- A chain lists the levels of an image, up to the first that is a single texel. -/
theorem chain_eq_levels (levels : Nat) {r : Raster} (hw : 0 < r.width) (hh : 0 < r.height) :
    chain α levels r = (List.range (min levels (Nat.log2 (max r.width r.height)))).map
      fun k => level α (k + 1) r := by
  induction levels generalizing r with
  | zero => rw [Nat.zero_min]; rfl
  | succ levels ih =>
      by_cases hone : r.width = 1 ∧ r.height = 1
      · rw [chain, if_pos hone, hone.1, hone.2]
        rfl
      · have hhead : chain α (levels + 1) r = halve α r :: chain α levels (halve α r) := by
          rw [chain, if_neg hone]
        have hrest := ih (r := halve α r) (Nat.le_max_left 1 _) (Nat.le_max_left 1 _)
        have hlog : Nat.log2 (max r.width r.height)
            = Nat.log2 (max (halve α r).width (halve α r).height) + 1 :=
          log2_longer_half hone hw hh
        rw [hhead, hrest, hlog, Nat.succ_min_succ, List.range_succ_eq_map, List.map_cons,
          List.map_map]
        rfl

/-- The image and its copies are its levels. -/
theorem getElem?_cons_chain {levels k : Nat} {r : Raster} (hw : 0 < r.width) (hh : 0 < r.height)
    (hk : k ≤ min levels (Nat.log2 (max r.width r.height))) :
    (r :: chain α levels r)[k]? = some (level α k r) := by
  cases k with
  | zero => rfl
  | succ k =>
      rw [List.getElem?_cons_succ, chain_eq_levels α levels hw hh, List.getElem?_map,
        List.getElem?_range hk]
      rfl

/-- A copy of an image is one of its levels. -/
theorem eq_level_of_getElem?_chain {levels k : Nat} {r next : Raster} (hw : 0 < r.width)
    (hh : 0 < r.height) (h : (chain α levels r)[k]? = some next) :
    k < min levels (Nat.log2 (max r.width r.height)) ∧ next = level α (k + 1) r := by
  rw [chain_eq_levels α levels hw hh] at h
  obtain ⟨hk, hnext⟩ := List.getElem?_eq_some_iff.1 h
  rw [List.getElem_map, List.getElem_range] at hnext
  rw [List.length_map, List.length_range] at hk
  exact ⟨hk, hnext.symm⟩

/-! ### Copies made one after another -/

/-- One more copy: the last one is halved, or the image itself if there is none, unless it is a
single texel. -/
def addCopy (r : Raster) (done : List Raster) : List Raster :=
  if (done.getLastD r).width = 1 ∧ (done.getLastD r).height = 1 then done
  else done ++ [halve α (done.getLastD r)]

/-- The copies of an image, made one after another. -/
def chainStepwise (levels : Nat) (r : Raster) : List Raster :=
  (List.range levels).foldl (fun done _ => addCopy α r done) []

theorem getLastD_levels (n : Nat) (r : Raster) :
    ((List.range n).map fun k => level α (k + 1) r).getLastD r = level α n r := by
  cases n with
  | zero => rfl
  | succ n => rw [List.range_succ, List.map_append, List.map_singleton, List.getLastD_concat]

/-- One more copy of an image is its next level, unless there is a single texel left. -/
theorem addCopy_levels {r : Raster} (hw : 0 < r.width) (hh : 0 < r.height) (n : Nat) :
    addCopy α r ((List.range n).map fun k => level α (k + 1) r)
      = (List.range (if Nat.log2 (max r.width r.height) ≤ n then n else n + 1)).map
        fun k => level α (k + 1) r := by
  rw [addCopy, getLastD_levels, width_level, height_level]
  simp only [levelEdge_eq_one_iff hw hh]
  split
  · rfl
  · rw [List.range_succ, List.map_append, List.map_singleton, level_succ]

/-- **Copies made one after another are the chain.**  Once the last copy is a single texel nothing
more is added. -/
theorem chainStepwise_eq (levels : Nat) {r : Raster} (hw : 0 < r.width) (hh : 0 < r.height) :
    chainStepwise α levels r = chain α levels r := by
  rw [chain_eq_levels α levels hw hh]
  induction levels with
  | zero => rw [Nat.zero_min]; rfl
  | succ levels ih =>
      have hlast : chainStepwise α (levels + 1) r = addCopy α r (chainStepwise α levels r) := by
        rw [chainStepwise, List.range_succ, List.foldl_append]
        rfl
      have hcount : ∀ log : Nat, (if log ≤ min levels log then min levels log
          else min levels log + 1) = min (levels + 1) log := by
        intro log
        split <;> omega
      rw [hlast, ih, addCopy_levels α hw hh, hcount]

/-- **Number and size of the copies.**  A chain has as many copies as were asked for, but no more
than the binary logarithm of the longer edge.  Copy number `k` has edges divided by `2 ^ k`, rounded
down, but at least one.  Each of its texels is the blend of four texels of the image before it, all
of which lie inside of that image. -/
theorem chain_sizes (levels : Nat) {r : Raster} (hw : 0 < r.width) (hh : 0 < r.height) :
    chainStepwise α levels r = chain α levels r ∧
    (chain α levels r).length = min levels (Nat.log2 (max r.width r.height)) ∧
    ∀ k next, (chain α levels r)[k]? = some next →
      next.width = max 1 (r.width / 2 ^ (k + 1)) ∧
      next.height = max 1 (r.height / 2 ^ (k + 1)) ∧
      ∃ prev, (r :: chain α levels r)[k]? = some prev ∧
        ∀ x y, x < next.width → y < next.height →
          next.texel x y
            = blend α ((taps prev.width prev.height x y).map fun p => prev.texel p.1 p.2) x y ∧
          ∀ p ∈ taps prev.width prev.height x y, p.1 < prev.width ∧ p.2 < prev.height := by
  refine ⟨chainStepwise_eq α levels hw hh, ?_, fun k next hnext => ?_⟩
  · rw [chain_eq_levels α levels hw hh, List.length_map, List.length_range]
  · obtain ⟨hk, rfl⟩ := eq_level_of_getElem?_chain α hw hh hnext
    have hprevw : 0 < (level α k r).width := by
      rw [width_level, levelEdge_eq hw]
      exact Nat.le_max_left 1 _
    have hprevh : 0 < (level α k r).height := by
      rw [height_level, levelEdge_eq hh]
      exact Nat.le_max_left 1 _
    rw [width_level, height_level]
    refine ⟨levelEdge_eq hw _, levelEdge_eq hh _, level α k r,
      getElem?_cons_chain α hw hh hk.le, fun x y hx hy => ⟨?_, fun p => taps_inside hprevw hprevh⟩⟩
    rw [level_succ]
    refine texel_halve α ?_ ?_
    · rwa [← level_succ, width_level]
    · rwa [← level_succ, height_level]

end Chains

/-- A poster with more columns than rows, and neither a power of two. -/
def poster : Raster := Raster.generate 5 3 fun x y => ⟨UInt8.ofNat x, UInt8.ofNat y, 0, 255⟩

theorem chain_sizes_poster :
    0 < poster.width ∧ 0 < poster.height ∧ (chain Float32 4 poster).length = 2 ∧
    ∀ next, (chain Float32 4 poster)[1]? = some next → next.width = 1 ∧ next.height = 1 := by
  have hw : 0 < poster.width := by decide
  have hh : 0 < poster.height := by decide
  obtain ⟨-, hlength, hcopies⟩ := chain_sizes Float32 4 hw hh
  refine ⟨hw, hh, hlength, fun next hnext => ?_⟩
  obtain ⟨hwidth, hheight, -⟩ := hcopies 1 next hnext
  exact ⟨hwidth, hheight⟩

end VoxelBake.Mip
