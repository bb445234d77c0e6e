/-
**Packed rectangles lie inside the square and apart from each other.**

Rectangles are put on shelves: a cursor moves to the right along a shelf and, where a rectangle does
not fit beside the last one, down to a new shelf below everything on the old one.  What the cursor
still has before it is the invariant: every later rectangle lies to the right of it on its shelf or
below the shelf (`Shelf.Ahead`).  A rectangle that was just put down ends before that region begins,
so it is apart from all later ones, whatever the order of the rectangles and whatever their sizes.

Main definitions:

* `Rect.Covers`, `Rect.Within`, `Rect.Before`, `Rect.Disjoint` — rectangles counted in texels;
* `Shelf.region` — the rectangle of a placed thing;
* `Shelf.Ahead` — a rectangle that the cursor has before it;
* `Shelf.Packed` — **a packing**: nothing lost, everything inside, no two rectangles over each
  other.

Main results:

* `Shelf.put_spec`, `Shelf.putAll_spec` — one rectangle, and rectangles one after another;
* `Shelf.packPage_packed` — **what is found on any of the squares is a packing**;
* `Shelf.exists_packPage_singleton` — a single rectangle is packed if it fits.
-/
import Mathlib.Data.List.Pairwise
import VoxelBake.Atlas.Basic
import VoxelBake.Atlas.Shelf

set_option relaxedAutoImplicit false
set_option autoImplicit false

namespace VoxelBake

/-! ### Rectangles counted in texels -/

namespace Rect

/-- Whether a texel lies in a rectangle. -/
def Covers (r : Rect Nat) (x y : Nat) : Prop :=
  r.x ≤ x ∧ x < r.x + r.width ∧ r.y ≤ y ∧ y < r.y + r.height

/-- The rectangle lies in the square with the given edge. -/
def Within (r : Rect Nat) (edge : Nat) : Prop := r.x + r.width ≤ edge ∧ r.y + r.height ≤ edge

/-- The first rectangle ends before the second one begins, from left to right or downwards. -/
def Before (r s : Rect Nat) : Prop := r.x + r.width ≤ s.x ∨ r.y + r.height ≤ s.y

/-- No texel lies in both rectangles. -/
def Disjoint (r s : Rect Nat) : Prop := ∀ x y, r.Covers x y → ¬ s.Covers x y

variable {r s : Rect Nat}

theorem Within.mono {edge limit : Nat} (h : r.Within edge) (hle : edge ≤ limit) :
    r.Within limit :=
  ⟨Nat.le_trans h.1 hle, Nat.le_trans h.2 hle⟩

theorem Before.disjoint (h : r.Before s) : r.Disjoint s := by
  intro x y hr hs
  simp only [Before, Covers] at h hr hs
  omega

theorem Disjoint.symm (h : r.Disjoint s) : s.Disjoint r := fun x y hs hr => h x y hr hs

end Rect

namespace Shelf

/-! ### One rectangle -/

/-- A rectangle that the cursor has before it: to the right on its shelf, or below the shelf. -/
def Ahead (c : Cursor) (r : Rect Nat) : Prop :=
  (r.y = c.y ∧ c.x ≤ r.x) ∨ c.y + c.height ≤ r.y

/-- The rectangle of a given size at a place. -/
def rectAt (e : Extent) (s : Spot) : Rect Nat := ⟨s.x, s.y, e.width, e.height⟩

/-- **One step of the cursor.**  The rectangle lies in the square and before the old cursor, and it
ends before everything that the new cursor has before it. -/
theorem put_spec {edge : Nat} {c c' : Cursor} {e : Extent} {spot : Spot}
    (h : put edge c e = some (spot, c')) :
    (rectAt e spot).Within edge ∧ Ahead c (rectAt e spot) ∧
      ∀ r, Ahead c' r → (rectAt e spot).Before r ∧ Ahead c r := by
  simp only [put] at h
  split at h
  · cases h
  · rename_i hfit
    simp only [Option.some.injEq, Prod.mk.injEq] at h
    obtain ⟨rfl, rfl⟩ := h
    -- the cursor stays on its shelf or begins a new one
    by_cases hroom : edge < c.x + e.width
    · simp only [Cursor.makeRoom, hroom, if_true] at hfit ⊢
      refine ⟨?_, Or.inr (Nat.le_refl _), ?_⟩
      · simp only [rectAt, Rect.Within]
        omega
      · intro r hr
        simp only [Ahead, rectAt, Rect.Before] at hr ⊢
        omega
    · simp only [Cursor.makeRoom, hroom, if_false] at hfit ⊢
      refine ⟨?_, Or.inl ⟨rfl, Nat.le_refl _⟩, ?_⟩
      · simp only [rectAt, Rect.Within]
        omega
      · intro r hr
        simp only [Ahead, rectAt, Rect.Before] at hr ⊢
        omega

/-- A rectangle that fits into the square can always be put on an empty one. -/
theorem put_start {edge : Nat} {e : Extent} (hw : e.width ≤ edge) (hh : e.height ≤ edge) :
    ∃ out, put edge Cursor.start e = some out := by
  have hroom : ¬ edge < 0 + e.width := by omega
  have hfit : ¬ (edge < e.width ∨ edge < 0 + e.height) := by omega
  simp only [put, Cursor.start, Cursor.makeRoom, hroom, if_false, hfit]
  exact ⟨_, rfl⟩

/-! ### Rectangles one after another -/

section Packing

variable {ι : Type} (size : ι → Extent)

/-- The rectangle of a placed thing. -/
def region (p : ι × Spot) : Rect Nat := rectAt (size p.1) p.2

/-- **A packing** of things on a square: nothing is lost, every rectangle lies inside, and of two
rectangles the first one ends before the second one begins. -/
structure Packed (edge : Nat) (items : List ι) (placed : List (ι × Spot)) : Prop where
  /-- Everything has a place. -/
  perm : (placed.map Prod.fst).Perm items
  /-- Every place is in the square. -/
  within : ∀ p ∈ placed, (region size p).Within edge
  /-- No rectangle begins before the ones put down earlier end. -/
  before : placed.Pairwise fun p q => (region size p).Before (region size q)

variable {size}

theorem Packed.mono {edge limit : Nat} {items : List ι} {placed : List (ι × Spot)}
    (h : Packed size edge items placed) (hle : edge ≤ limit) : Packed size limit items placed where
  perm := h.perm
  within p hp := (h.within p hp).mono hle
  before := h.before

theorem Packed.disjoint {edge : Nat} {items : List ι} {placed : List (ι × Spot)}
    (h : Packed size edge items placed) {p q : ι × Spot} (hp : p ∈ placed) (hq : q ∈ placed)
    (hne : p ≠ q) : (region size p).Disjoint (region size q) := by
  have : Std.Symm fun p q : ι × Spot => (region size p).Disjoint (region size q) :=
    ⟨fun _ _ hpq => hpq.symm⟩
  have happart : placed.Pairwise fun p q => (region size p).Disjoint (region size q) :=
    h.before.imp fun hpq => hpq.disjoint
  exact happart.forall hp hq hne

/-- Rectangles put down from a cursor on keep their order, lie before the cursor and inside the
square, and end one before the other. -/
theorem putAll_spec {edge : Nat} {items : List ι} :
    ∀ {c : Cursor} {placed : List (ι × Spot)}, putAll size edge c items = some placed →
      placed.map Prod.fst = items ∧
      (∀ p ∈ placed, (region size p).Within edge ∧ Ahead c (region size p)) ∧
      placed.Pairwise fun p q => (region size p).Before (region size q) := by
  induction items with
  | nil =>
      intro c placed h
      obtain rfl := Option.some.inj h
      simp
  | cons i rest ih =>
      intro c placed h
      simp only [putAll, Option.bind_eq_bind, Option.bind_eq_some_iff, Option.some.injEq] at h
      obtain ⟨⟨spot, c'⟩, hput, others, hothers, rfl⟩ := h
      obtain ⟨hwithin, hahead, hlater⟩ := put_spec hput
      obtain ⟨hfst, hplaced, hpair⟩ := ih hothers
      refine ⟨by simp [hfst], ?_, ?_⟩
      · intro p hp
        rcases List.mem_cons.1 hp with rfl | hp
        · exact ⟨hwithin, hahead⟩
        · exact ⟨(hplaced p hp).1, (hlater _ (hplaced p hp).2).2⟩
      · refine List.pairwise_cons.2 ⟨?_, hpair⟩
        intro p hp
        exact (hlater _ (hplaced p hp).2).1

theorem pack_packed {edge : Nat} {items : List ι} {placed : List (ι × Spot)}
    (h : pack size edge items = some placed) : Packed size edge items placed := by
  obtain ⟨hfst, hplaced, hpair⟩ := putAll_spec h
  refine ⟨?_, fun p hp => (hplaced p hp).1, hpair⟩
  rw [hfst]
  exact List.mergeSort_perm items _

theorem exists_pack_singleton {edge : Nat} {i : ι} (hw : (size i).width ≤ edge)
    (hh : (size i).height ≤ edge) : ∃ placed, pack size edge [i] = some placed := by
  obtain ⟨⟨spot, c⟩, hput⟩ := put_start hw hh
  refine ⟨[(i, spot)], ?_⟩
  simp [pack, tallestFirst, putAll, hput]

/-! ### Squares of growing size -/

theorem le_of_mem_edgesFrom {limit fuel edge e : Nat} (h : e ∈ edgesFrom limit fuel edge) :
    e ≤ limit := by
  induction fuel generalizing edge with
  | zero =>
      obtain rfl := List.mem_singleton.1 h
      exact Nat.le_refl _
  | succ fuel ih =>
      simp only [edgesFrom] at h
      split at h
      · rename_i hlt
        rcases List.mem_cons.1 h with rfl | h
        · exact Nat.le_of_lt hlt
        · exact ih h
      · obtain rfl := List.mem_singleton.1 h
        exact Nat.le_refl _

/-- The largest square is tried last. -/
theorem mem_edgesFrom (limit fuel edge : Nat) : limit ∈ edgesFrom limit fuel edge := by
  induction fuel generalizing edge with
  | zero => exact List.mem_singleton.2 rfl
  | succ fuel ih =>
      simp only [edgesFrom]
      split
      · exact List.mem_cons_of_mem _ (ih _)
      · exact List.mem_singleton.2 rfl

/-- **What is found on any of the squares is a packing of the largest one.** -/
theorem packPage_packed {limit : Nat} {items : List ι} {placed : List (ι × Spot)}
    (h : packPage size limit items = some placed) : Packed size limit items placed := by
  obtain ⟨edge, hedge, hpack⟩ := List.exists_of_findSome?_eq_some h
  exact (pack_packed hpack).mono (le_of_mem_edgesFrom hedge)

/-- A single rectangle is packed if it fits into the largest square. -/
theorem exists_packPage_singleton {limit : Nat} {i : ι} (hw : (size i).width ≤ limit)
    (hh : (size i).height ≤ limit) : ∃ placed, packPage size limit [i] = some placed := by
  cases h : packPage size limit [i] with
  | some placed => exact ⟨placed, rfl⟩
  | none =>
      obtain ⟨placed, hp⟩ := exists_pack_singleton hw hh
      have hnone := List.findSome?_eq_none_iff.1 h limit (mem_edgesFrom _ _ _)
      rw [hp] at hnone
      cases hnone

end Packing

end Shelf

end VoxelBake
