/-
**Smaller copies have no dark fringe.**

A transparent texel still stores some colour, most often black.  If it were averaged in, the edge of
a leaf would grow darker from copy to copy.  But only visible texels are blended, so images that
differ in nothing that can be seen have the same copies.  Nor does a blend that is kept vanish
later: its opacity is the average of opacities of at least one, and is rounded to at least one
again.  So which texels of a copy are visible follows from which texels of the image before it are,
whatever their colours and however opaque they are.

Main definitions:

* `Raster.Agrees` — two images of the same size whose texels stand in a given relation;
* `Texel.LooksLike`, `Texel.SameOutline` — **texels that cannot be told apart, and texels of which
  both or none are visible**;
* `Mip.visibleTaps` — how many of the places that a texel of a copy looks at are visible.

Main results:

* `Mip.blend_congr` — a blend does not depend on hidden colours;
* `Mip.isVisible_blend` — averaging and rounding hides nothing that is kept;
* `Mip.no_dark_fringe` — **copies show nothing hidden, and hide nothing but by the rule**.
-/
import Mathlib.Algebra.Order.Field.Basic
import Mathlib.Algebra.Order.Ring.Rat
import Mathlib.Data.List.Forall2
import Mathlib.Tactic.Linarith
import VoxelBake.Proofs.MipLevels

set_option relaxedAutoImplicit false
set_option autoImplicit false

namespace VoxelBake

/-! ### Images that agree -/

namespace Texel

/-- Two texels that cannot be told apart: they are equally opaque, and have the same colour unless
they are transparent. -/
def LooksLike (t u : Texel) : Prop :=
  t.alpha = u.alpha ∧ (t.alpha ≠ 0 → t.red = u.red ∧ t.green = u.green ∧ t.blue = u.blue)

/-- Two texels of which both are visible or none is. -/
def SameOutline (t u : Texel) : Prop := t.isVisible = u.isVisible

instance (t u : Texel) : Decidable (t.LooksLike u) := inferInstanceAs (Decidable (_ ∧ _))

instance (t u : Texel) : Decidable (t.SameOutline u) := inferInstanceAs (Decidable (_ = _))

theorem isVisible_iff {t : Texel} : t.isVisible = true ↔ t.alpha ≠ 0 := bne_iff_ne

theorem LooksLike.sameOutline {t u : Texel} (h : t.LooksLike u) : t.SameOutline u :=
  congrArg (· != 0) h.1

theorem LooksLike.eq_of_isVisible {t u : Texel} (h : t.LooksLike u) (hv : t.isVisible = true) :
    t = u := by
  obtain ⟨ha, hcolour⟩ := h
  obtain ⟨hr, hg, hb⟩ := hcolour (isVisible_iff.1 hv)
  cases t
  cases u
  rw [Texel.mk.injEq]
  exact ⟨hr, hg, hb, ha⟩

theorem LooksLike.refl (t : Texel) : t.LooksLike t := ⟨rfl, fun _ => ⟨rfl, rfl, rfl⟩⟩

end Texel

namespace Raster

/-- Two images of the same size, all texels of which are related. -/
def Agrees (R : Texel → Texel → Prop) (r s : Raster) : Prop :=
  (r.width = s.width ∧ r.height = s.height) ∧
    ∀ x < r.width, ∀ y < r.height, R (r.texel x y) (s.texel x y)

instance (R : Texel → Texel → Prop) [∀ t u, Decidable (R t u)] (r s : Raster) :
    Decidable (r.Agrees R s) := inferInstanceAs (Decidable (_ ∧ _))

/-- Outside of images that agree both are transparent. -/
theorem Agrees.texel {R : Texel → Texel → Prop} {r s : Raster} (h : r.Agrees R s)
    (hclear : R Texel.clear Texel.clear) (x y : Nat) : R (r.texel x y) (s.texel x y) :=
  texel_related hclear h.1.1 h.1.2 fun hx hy => h.2 x hx y hy

end Raster

namespace Mip

/-! ### Hidden colours -/

section Hidden

variable (α : Type) [Scalar α] [Gamma α]

/-- Texels that look alike pair by pair have the same visible ones among them. -/
theorem filter_isVisible_congr {ts us : List Texel} (h : List.Forall₂ Texel.LooksLike ts us) :
    ts.filter Texel.isVisible = us.filter Texel.isVisible := by
  induction h with
  | nil => rfl
  | @cons t u ts us hhead _ ih =>
      have hvisible : t.isVisible = u.isVisible := hhead.sameOutline
      cases ht : t.isVisible with
      | true =>
          obtain rfl : t = u := hhead.eq_of_isVisible ht
          rw [List.filter_cons_of_pos ht, List.filter_cons_of_pos ht, ih]
      | false =>
          have hhidden : ¬ t.isVisible = true := Bool.eq_false_iff.1 ht
          rw [List.filter_cons_of_neg hhidden, List.filter_cons_of_neg (hvisible ▸ hhidden), ih]

/-- **A blend does not depend on hidden colours.** -/
theorem blend_congr {ts us : List Texel} (h : List.Forall₂ Texel.LooksLike ts us) (x y : Nat) :
    blend α ts x y = blend α us x y := by
  simp only [blend, filter_isVisible_congr h]

theorem halve_congr {r s : Raster} (h : r.Agrees Texel.LooksLike s) : halve α r = halve α s := by
  have hblend : ∀ x y,
      blend α ((taps r.width r.height x y).map fun p => r.texel p.1 p.2) x y
        = blend α ((taps r.width r.height x y).map fun p => s.texel p.1 p.2) x y := by
    refine fun x y => blend_congr α ?_ x y
    rw [List.forall₂_map_left_iff, List.forall₂_map_right_iff, List.forall₂_same]
    exact fun p _ => h.texel (Texel.LooksLike.refl _) p.1 p.2
  simp only [halve, hblend]
  rw [h.1.1, h.1.2]

/-- Images that cannot be told apart have the same copies. -/
theorem chain_congr {r s : Raster} (h : r.Agrees Texel.LooksLike s) (levels : Nat) :
    chain α levels r = chain α levels s := by
  cases levels with
  | zero => rfl
  | succ levels => simp only [chain, halve_congr α h, h.1.1, h.1.2]

end Hidden

/-! ### Opacity of a blend -/

theorem add_length_le_foldl {measure : Texel → Rat} {ts : List Texel}
    (h : ∀ t ∈ ts, 1 ≤ measure t) (start : Rat) :
    start + ts.length ≤ ts.foldl (fun s t => s + measure t) start := by
  induction ts generalizing start with
  | nil => simp
  | cons t ts ih =>
      obtain ⟨hfirst, hrest⟩ := List.forall_mem_cons.1 h
      have hlength : ((t :: ts).length : Rat) = 1 + ts.length := by
        rw [List.length_cons, Nat.cast_succ, add_comm]
      calc start + ((t :: ts).length : Rat)
          = start + 1 + ts.length := by rw [hlength, add_assoc]
        _ ≤ start + measure t + ts.length := by linarith
        _ ≤ (t :: ts).foldl (fun s t => s + measure t) start := ih hrest _

/-- The average of values of at least one is at least one. -/
theorem one_le_mean {measure : Texel → Rat} {ts : List Texel} (hne : ts ≠ [])
    (h : ∀ t ∈ ts, 1 ≤ measure t) : 1 ≤ mean measure ts := by
  have hpos : (0 : Rat) < ts.length := by exact_mod_cast List.length_pos_iff.2 hne
  have htotal : (ts.length : Rat) ≤ total measure ts := by
    simpa [total] using add_length_le_foldl h ((0 : Nat) : Rat)
  exact (one_le_div hpos).2 htotal

/-- A value of at least one is not rounded to zero. -/
theorem one_le_nearestUpTo {cap : Nat} (hcap : 1 ≤ cap) {x : Rat} (hx : 1 ≤ x) :
    1 ≤ Scalar.nearestUpTo cap x := by
  have htruncate : 1 ≤ Scalar.truncate x := by
    have hfloor : (1 : Int) ≤ x.floor := Rat.le_floor_iff.2 (by exact_mod_cast hx)
    exact (Int.le_toNat (Int.le_trans (by decide) hfloor)).2 hfloor
  unfold Scalar.nearestUpTo
  split
  · exact hcap
  · refine Nat.le_min.2 ⟨hcap, ?_⟩
    split <;> omega

theorem nearestUpTo_le {α : Type} [Scalar α] (cap : Nat) (x : α) :
    Scalar.nearestUpTo cap x ≤ cap := by
  unfold Scalar.nearestUpTo
  split
  · exact Nat.le_refl cap
  · exact Nat.min_le_left _ _

theorem toChannel_ne_zero {x : Rat} (hx : 1 ≤ x) : toChannel x ≠ 0 := by
  have hone : 1 ≤ Scalar.nearestUpTo 255 x := one_le_nearestUpTo (by decide) hx
  have hcap : Scalar.nearestUpTo 255 x ≤ 255 := nearestUpTo_le 255 x
  intro hzero
  have hnat := congrArg UInt8.toNat hzero
  rw [toChannel, UInt8.toNat_ofNat'] at hnat
  simp at hnat
  omega

theorem isKept_iff {visible x y : Nat} :
    isKept visible x y = true ↔ 3 ≤ visible ∨ visible = 2 ∧ (x + y) % 2 = 0 := by
  simp [isKept]

/-! ### Outlines of the copies -/

/-- How many of the four places that the texel at column `x` and row `y` of the halved image looks
at are visible. -/
def visibleTaps (r : Raster) (x y : Nat) : Nat :=
  (taps r.width r.height x y).countP fun p => (r.texel p.1 p.2).isVisible

theorem visibleTaps_congr {r s : Raster} (h : r.Agrees Texel.SameOutline s) (x y : Nat) :
    visibleTaps r x y = visibleTaps s x y := by
  have htexel : ∀ p : Nat × Nat, (r.texel p.1 p.2).isVisible = (s.texel p.1 p.2).isVisible :=
    fun p => h.texel rfl p.1 p.2
  simp only [visibleTaps, htexel, h.1.1, h.1.2]

section Visible

variable [Gamma Rat]

/-- **A blend is visible just if it is kept.**  Averaging and rounding does not hide it. -/
theorem isVisible_blend (ts : List Texel) (x y : Nat) :
    (blend Rat ts x y).isVisible = isKept (ts.countP Texel.isVisible) x y := by
  rw [List.countP_eq_length_filter]
  cases hkept : isKept (ts.filter Texel.isVisible).length x y with
  | false => simp [blend, hkept, Texel.isVisible, Texel.clear]
  | true =>
      have hne : ts.filter Texel.isVisible ≠ [] := by
        intro hnil
        rw [hnil, isKept_iff] at hkept
        simp at hkept
      have hmean : 1 ≤ mean (fun t => (channel t.alpha : Rat)) (ts.filter Texel.isVisible) := by
        refine one_le_mean hne fun t ht => ?_
        have halpha := Texel.isVisible_iff.1 (List.mem_filter.1 ht).2
        have hpos : 0 < t.alpha.toNat := by
          refine Nat.pos_of_ne_zero fun hz => halpha (UInt8.toNat_inj.1 hz)
        exact Nat.one_le_cast.2 hpos
      rw [Texel.isVisible_iff]
      simpa only [blend, hkept, if_true] using toChannel_ne_zero hmean

theorem isVisible_texel_halve {r : Raster} {x y : Nat} (hx : x < (halve Rat r).width)
    (hy : y < (halve Rat r).height) :
    ((halve Rat r).texel x y).isVisible = isKept (visibleTaps r x y) x y := by
  rw [texel_halve Rat hx hy, isVisible_blend, List.countP_map]
  rfl

/-- Images with the same outline, halved, have the same outline. -/
theorem sameOutline_halve {r s : Raster} (h : r.Agrees Texel.SameOutline s) :
    (halve Rat r).Agrees Texel.SameOutline (halve Rat s) := by
  have hw : (halve Rat r).width = (halve Rat s).width := congrArg halfEdge h.1.1
  have hh : (halve Rat r).height = (halve Rat s).height := congrArg halfEdge h.1.2
  refine ⟨⟨hw, hh⟩, fun x hx y hy => ?_⟩
  rw [Texel.SameOutline, isVisible_texel_halve hx hy, visibleTaps_congr h,
    isVisible_texel_halve (hw ▸ hx) (hh ▸ hy)]

/-- Images with the same outline have copies with the same outlines. -/
theorem sameOutline_chain (levels : Nat) {r s : Raster} (h : r.Agrees Texel.SameOutline s) :
    List.Forall₂ (Raster.Agrees Texel.SameOutline) (chain Rat levels r) (chain Rat levels s) := by
  induction levels generalizing r s with
  | zero => exact List.Forall₂.nil
  | succ levels ih =>
      rw [chain, chain, ← h.1.1, ← h.1.2]
      split
      · exact List.Forall₂.nil
      · exact List.Forall₂.cons (sameOutline_halve h) (ih (sameOutline_halve h))

end Visible

/-- **Copies show nothing hidden, and hide nothing but by the rule.**  Images that cannot be told
apart have the same copies.  A texel of a copy is visible just if at least three of the four that it
is computed from are, or two of them on every other place; so images with the same outline have
copies with the same outlines. -/
theorem no_dark_fringe :
    (∀ (α : Type) [Scalar α] [Gamma α] (r s : Raster), r.Agrees Texel.LooksLike s →
      ∀ levels, chain α levels r = chain α levels s) ∧
    ∀ [Gamma Rat],
      (∀ (levels k : Nat) (r prev next : Raster), (r :: chain Rat levels r)[k]? = some prev →
        (chain Rat levels r)[k]? = some next → ∀ x < next.width, ∀ y < next.height,
          ((next.texel x y).isVisible = true ↔
            3 ≤ visibleTaps prev x y ∨ visibleTaps prev x y = 2 ∧ (x + y) % 2 = 0)) ∧
      ∀ r s : Raster, r.Agrees Texel.SameOutline s → ∀ levels,
        List.Forall₂ (Raster.Agrees Texel.SameOutline) (chain Rat levels r)
          (chain Rat levels s) := by
  refine ⟨fun α _ _ r s h levels => chain_congr α h levels, ?_⟩
  refine ⟨fun levels k r prev next hprev hnext x hx y hy => ?_,
    fun r s h levels => sameOutline_chain levels h⟩
  obtain ⟨prev', hprev', rfl⟩ := exists_eq_halve Rat hnext
  obtain rfl : prev' = prev := Option.some.inj (hprev'.symm.trans hprev)
  rw [isVisible_texel_halve hx hy, isKept_iff]

/-- Three columns of a leaf, as opaque as given, beside a column of a hidden colour. -/
def leaf (opacity hidden : UInt8) : Raster :=
  Raster.generate 4 4 fun x _ => if x < 3 then ⟨60, 120, 40, opacity⟩ else ⟨hidden, 0, hidden, 0⟩

/-- Intensities that are stored as they are. -/
@[reducible] def straight : Gamma Rat := ⟨id, id⟩

theorem no_dark_fringe_leaf :
    (leaf 255 0).Agrees Texel.LooksLike (leaf 255 200) ∧
    chain Float32 2 (leaf 255 0) = chain Float32 2 (leaf 255 200) ∧
    (∃ next, (@chain Rat _ straight 2 (leaf 255 0))[0]? = some next ∧
      (next.texel 1 0).isVisible = false ∧ (next.texel 1 1).isVisible = true) ∧
    (leaf 255 0).Agrees Texel.SameOutline (leaf 1 0) ∧
    List.Forall₂ (Raster.Agrees Texel.SameOutline) (@chain Rat _ straight 2 (leaf 255 0))
      (@chain Rat _ straight 2 (leaf 1 0)) := by
  have hlooks : (leaf 255 0).Agrees Texel.LooksLike (leaf 255 200) := by decide +kernel
  have houtline : (leaf 255 0).Agrees Texel.SameOutline (leaf 1 0) := by decide +kernel
  obtain ⟨hcopies, hvisible⟩ := no_dark_fringe
  obtain ⟨hrule, hsame⟩ := @hvisible straight
  have htexel := hrule 2 0 (leaf 255 0) _ _ rfl rfl
  refine ⟨hlooks, hcopies Float32 _ _ hlooks 2, ⟨_, rfl, ?_, ?_⟩, houtline, hsame _ _ houtline 2⟩
  · have htaps : visibleTaps (leaf 255 0) 1 0 = 2 := by decide +kernel
    rw [Bool.eq_false_iff, Ne, htexel 1 (by decide) 0 (by decide), htaps]
    decide
  · have htaps : visibleTaps (leaf 255 0) 1 1 = 2 := by decide +kernel
    rw [htexel 1 (by decide) 1 (by decide), htaps]
    decide

end Mip

end VoxelBake
