/-
**The search for a square that holds everything.**

Squares of growing size are tried until the rectangles fit.  The first edge is doubled until the
square has the area of the rectangles or reaches the limit; after a failure the edge is doubled
again, up to the limit, which need be neither a power of two nor as large as the first edge.
Written as a machine that does one such step at a time (`Shelf.Search.step`) these are two loops.
Every step but the last two doubles the edge, so that they end after no more steps than the limit
has binary digits, and one; and the limit itself is tried before the search is given up.

Main definitions:

* `Rect.cells` — the texels of a rectangle, to be counted;
* `Shelf.totalArea`, `Shelf.squares` — the area that decides which square comes first, and the edges
  of the squares;
* `Shelf.Search`, `Shelf.Search.step` — **the search, step by step**;
* `Shelf.Search.through` — where the search leads if given squares are tried.

Main results:

* `Shelf.firstEdge_eq_of_le`, `Shelf.edgesFrom_eq_of_le` — edges do not depend on the fuel that they
  are computed with;
* `Shelf.pairwise_edges`, `Shelf.getLast?_edges` — edges grow, up to the limit;
* `Shelf.Search.exists_iterate_squares` — the machine tries these squares, and ends;
* `Shelf.totalArea_le_of_pack` — squares smaller than that area are passed over for good reason;
* `Shelf.packPage_search` — **which squares are tried, and what comes of it**.
-/
import Mathlib.Algebra.GroupWithZero.Nat
import Mathlib.Data.Finset.Prod
import Mathlib.Logic.Function.Iterate
import Mathlib.Order.Interval.Finset.Nat
import VoxelBake.Proofs.ShelfPacking

set_option relaxedAutoImplicit false
set_option autoImplicit false

namespace VoxelBake

namespace Rect

/-- The texels of a rectangle. -/
def cells (r : Rect Nat) : Finset (Nat × Nat) :=
  Finset.Ico r.x (r.x + r.width) ×ˢ Finset.Ico r.y (r.y + r.height)

theorem mem_cells {r : Rect Nat} {c : Nat × Nat} : c ∈ r.cells ↔ r.Covers c.1 c.2 := by
  simp only [cells, Finset.mem_product, Finset.mem_Ico, Covers, and_assoc]

theorem card_cells (r : Rect Nat) : r.cells.card = r.width * r.height := by
  simp [cells]

end Rect

namespace Shelf

/-! ### The edges of the squares -/

section Edges

variable {area limit fuel more edge : Nat}

theorem le_double (h : limit ≤ edge * 2 ^ (fuel + 1)) : limit ≤ 2 * edge * 2 ^ fuel := by
  rwa [Nat.mul_comm 2, Nat.mul_assoc, ← Nat.pow_succ']

theorem le_min_mul (h : limit ≤ edge * 2 ^ fuel) : limit ≤ min edge limit * 2 ^ fuel := by
  rcases Nat.le_total edge limit with hle | hle
  · rwa [Nat.min_eq_left hle]
  · rw [Nat.min_eq_right hle]
    exact Nat.le_mul_of_pos_right limit (Nat.two_pow_pos fuel)

theorem firstEdge_of_stop (h : ¬ (edge * edge < area ∧ edge < limit)) (fuel : Nat) :
    firstEdge area limit fuel edge = min edge limit := by
  cases fuel with
  | zero => rfl
  | succ fuel => rw [firstEdge, if_neg h]

theorem edgesFrom_of_le (h : limit ≤ edge) (fuel : Nat) : edgesFrom limit fuel edge = [limit] := by
  cases fuel with
  | zero => rfl
  | succ fuel => rw [edgesFrom, if_neg (Nat.not_lt.2 h)]

/-- Fuel with which doubling reaches the limit is not used up below the limit. -/
theorem exists_fuel_eq_succ (h : limit ≤ edge * 2 ^ fuel) (hlt : edge < limit) :
    ∃ fewer, fuel = fewer + 1 := by
  cases fuel with
  | zero => omega
  | succ fewer => exact ⟨fewer, rfl⟩

/-- **The first edge does not depend on the fuel** with which it is computed, as long as doubling
reaches the limit. -/
theorem firstEdge_eq_of_le (h : limit ≤ edge * 2 ^ fuel) (hmore : limit ≤ edge * 2 ^ more) :
    firstEdge area limit fuel edge = firstEdge area limit more edge := by
  induction fuel generalizing edge more with
  | zero =>
      have hstop : ¬ (edge * edge < area ∧ edge < limit) := by omega
      rw [firstEdge_of_stop hstop, firstEdge_of_stop hstop]
  | succ fuel ih =>
      by_cases hgo : edge * edge < area ∧ edge < limit
      · obtain ⟨more, rfl⟩ := exists_fuel_eq_succ hmore hgo.2
        rw [firstEdge, firstEdge, if_pos hgo, if_pos hgo]
        exact ih (le_double h) (le_double hmore)
      · rw [firstEdge_of_stop hgo, firstEdge_of_stop hgo]

/-- **The edges do not depend on the fuel** with which they are computed, as long as doubling
reaches the limit. -/
theorem edgesFrom_eq_of_le (h : limit ≤ edge * 2 ^ fuel) (hmore : limit ≤ edge * 2 ^ more) :
    edgesFrom limit fuel edge = edgesFrom limit more edge := by
  induction fuel generalizing edge more with
  | zero =>
      have hle : limit ≤ edge := by omega
      rw [edgesFrom_of_le hle, edgesFrom_of_le hle]
  | succ fuel ih =>
      by_cases hlt : edge < limit
      · obtain ⟨more, rfl⟩ := exists_fuel_eq_succ hmore hlt
        rw [edgesFrom, edgesFrom, if_pos hlt, if_pos hlt,
          ih (le_min_mul (le_double h)) (le_min_mul (le_double hmore))]
      · have hle := Nat.not_lt.1 hlt
        rw [edgesFrom_of_le hle, edgesFrom_of_le hle]

theorem firstEdge_le : firstEdge area limit fuel edge ≤ limit := by
  induction fuel generalizing edge with
  | zero => exact Nat.min_le_right ..
  | succ fuel ih =>
      rw [firstEdge]
      split
      · exact ih
      · exact Nat.min_le_right ..

/-- Doubling makes no edge smaller, but for the limit. -/
theorem min_le_firstEdge : min edge limit ≤ firstEdge area limit fuel edge := by
  induction fuel generalizing edge with
  | zero => exact Nat.le_refl _
  | succ fuel ih =>
      rw [firstEdge]
      split
      · exact Nat.le_trans (by omega) ih
      · exact Nat.le_refl _

theorem edge_le_of_mem_edgesFrom {e : Nat} (hle : edge ≤ limit)
    (h : e ∈ edgesFrom limit fuel edge) : edge ≤ e := by
  induction fuel generalizing edge with
  | zero =>
      obtain rfl := List.mem_singleton.1 h
      exact hle
  | succ fuel ih =>
      rw [edgesFrom] at h
      split at h
      · rcases List.mem_cons.1 h with rfl | h
        · exact Nat.le_refl _
        · have hnext := ih (Nat.min_le_right ..) h
          omega
      · obtain rfl := List.mem_singleton.1 h
        exact hle

/-- Edges grow. -/
theorem pairwise_edgesFrom (hpos : 0 < edge) (hle : edge ≤ limit) :
    (edgesFrom limit fuel edge).Pairwise (· < ·) := by
  induction fuel generalizing edge with
  | zero => exact List.pairwise_singleton _ _
  | succ fuel ih =>
      rw [edgesFrom]
      split
      · rename_i hlt
        refine List.pairwise_cons.2 ⟨fun e he => ?_, ih (by omega) (Nat.min_le_right ..)⟩
        have hnext := edge_le_of_mem_edgesFrom (Nat.min_le_right ..) he
        omega
      · exact List.pairwise_singleton _ _

theorem getLast?_edgesFrom : (edgesFrom limit fuel edge).getLast? = some limit := by
  induction fuel generalizing edge with
  | zero => rfl
  | succ fuel ih =>
      rw [edgesFrom]
      split
      · rw [List.getLast?_cons, ih, Option.getD_some]
      · rfl

/-- **The squares that are tried grow.** -/
theorem pairwise_edges (area limit : Nat) : (edges area limit).Pairwise (· < ·) := by
  rcases Nat.eq_zero_or_pos limit with rfl | hpos
  · rw [edges, edgesFrom_of_le (Nat.zero_le _)]
    exact List.pairwise_singleton _ _
  · have hfirst : min smallestEdge limit ≤ firstEdge area limit limit smallestEdge :=
      min_le_firstEdge
    refine pairwise_edgesFrom ?_ firstEdge_le
    simp only [smallestEdge] at hfirst ⊢
    omega

/-- **The largest square is tried last.** -/
theorem getLast?_edges (area limit : Nat) : (edges area limit).getLast? = some limit :=
  getLast?_edgesFrom

end Edges

/-! ### One square after another -/

section Packing

variable {ι : Type} (size : ι → Extent) (items : List ι) (limit : Nat)

/-- The area of all rectangles together. -/
def totalArea : Nat := (items.map fun i => (size i).area).foldr (· + ·) 0

/-- The edges of the squares that may be tried, in order. -/
def squares : List Nat := edges (totalArea size items) limit

/-- Where the search for a square stands. -/
inductive Search (ι : Type)
  /-- No square was tried; the edge may be doubled before the first one is. -/
  | sizing (edge : Nat)
  /-- The rectangles fit on none of the squares that were tried; the next one has the given edge. -/
  | trying (tried : List Nat) (edge : Nat)
  /-- Places were found on the last of the squares, or on none of them. -/
  | ended (tried : List Nat) (found : Option (List (ι × Spot)))

namespace Search

/-- One step: the first edge is doubled or settled, or one square is tried. -/
def step : Search ι → Search ι
  | sizing edge =>
      if edge * edge < totalArea size items ∧ edge < limit then sizing (2 * edge)
      else trying [] (min edge limit)
  | trying tried edge =>
      match pack size edge items with
      | some placed => ended (tried ++ [edge]) (some placed)
      | none =>
          if edge < limit then trying (tried ++ [edge]) (min (2 * edge) limit)
          else ended (tried ++ [edge]) none
  | ended tried found => ended tried found

/-- Where the search leads if given squares are tried one after another. -/
def through (tried : List Nat) : List Nat → Search ι
  | [] => ended tried none
  | edge :: rest =>
      match pack size edge items with
      | some placed => ended (tried ++ [edge]) (some placed)
      | none => through (tried ++ [edge]) rest

/-- On the largest square the search ends. -/
theorem step_trying_limit (tried : List Nat) :
    step size items limit (trying tried limit) = through size items tried [limit] := by
  rw [step, through]
  cases pack size limit items with
  | some placed => rfl
  | none => exact if_neg (Nat.lt_irrefl limit)

/-- Squares are tried up to the limit. -/
theorem exists_iterate_trying {fuel edge : Nat} (tried : List Nat) (hle : edge ≤ limit)
    (h : limit ≤ edge * 2 ^ fuel) :
    ∃ n ≤ fuel + 1, (step size items limit)^[n] (trying tried edge)
      = through size items tried (edgesFrom limit fuel edge) := by
  induction fuel generalizing tried edge with
  | zero =>
      obtain rfl : edge = limit := by omega
      exact ⟨1, Nat.le_refl _, step_trying_limit size items edge tried⟩
  | succ fuel ih =>
      rcases Nat.eq_or_lt_of_le hle with rfl | hlt
      · rw [edgesFrom_of_le (Nat.le_refl _)]
        exact ⟨1, by omega, step_trying_limit size items edge tried⟩
      · rw [edgesFrom, if_pos hlt, through]
        cases hpack : pack size edge items with
        | some placed =>
            refine ⟨1, by omega, ?_⟩
            rw [Function.iterate_one, step, hpack]
        | none =>
            obtain ⟨n, hn, hrun⟩ :=
              ih (tried ++ [edge]) (Nat.min_le_right ..) (le_min_mul (le_double h))
            refine ⟨n + 1, by omega, ?_⟩
            simp only [Function.iterate_succ_apply, step, hpack, if_pos hlt, hrun]

/-- If the first edge is not doubled any more, squares are tried from it on. -/
theorem exists_iterate_of_stop {fuel edge : Nat} (h : limit ≤ edge * 2 ^ fuel)
    (hstop : ¬ (edge * edge < totalArea size items ∧ edge < limit)) :
    ∃ n ≤ fuel + 2, (step size items limit)^[n] (sizing edge)
      = through size items [] (edgesFrom limit fuel (min edge limit)) := by
  obtain ⟨n, hn, hrun⟩ :=
    exists_iterate_trying size items limit [] (Nat.min_le_right edge limit) (le_min_mul h)
  refine ⟨n + 1, by omega, ?_⟩
  rw [Function.iterate_succ_apply, step, if_neg hstop, hrun]

/-- **The first edge is doubled until its square is large enough, and squares are tried from it
on.** -/
theorem exists_iterate_sizing {fuel edge : Nat} (h : limit ≤ edge * 2 ^ fuel) :
    ∃ n ≤ fuel + 2, (step size items limit)^[n] (sizing edge)
      = through size items [] (edgesFrom limit fuel
          (firstEdge (totalArea size items) limit fuel edge)) := by
  induction fuel generalizing edge with
  | zero =>
      have hstop : ¬ (edge * edge < totalArea size items ∧ edge < limit) := by omega
      rw [firstEdge_of_stop hstop]
      exact exists_iterate_of_stop size items limit h hstop
  | succ fuel ih =>
      by_cases hgo : edge * edge < totalArea size items ∧ edge < limit
      · obtain ⟨n, hn, hrun⟩ := ih (le_double h)
        refine ⟨n + 1, by omega, ?_⟩
        -- one doubling more or less of fuel makes no difference to the squares
        have hfirst : limit
            ≤ firstEdge (totalArea size items) limit fuel (2 * edge) * 2 ^ fuel :=
          (le_min_mul (le_double h)).trans (Nat.mul_le_mul_right _ min_le_firstEdge)
        have hmore := hfirst.trans (Nat.mul_le_mul_left _ (Nat.pow_le_pow_right Nat.two_pos
          (Nat.le_succ fuel)))
        rw [Function.iterate_succ_apply, step, if_pos hgo, hrun, firstEdge, if_pos hgo,
          edgesFrom_eq_of_le hfirst hmore]
      · rw [firstEdge_of_stop hgo]
        exact exists_iterate_of_stop size items limit h hgo

/-- **The search tries the squares one after another**, and ends after no more steps than the limit
has binary digits, and one. -/
theorem exists_iterate_squares :
    ∃ n ≤ Nat.log2 limit + 2, (step size items limit)^[n] (sizing smallestEdge)
      = through size items [] (squares size items limit) := by
  have hlog : limit ≤ smallestEdge * 2 ^ Nat.log2 limit := by
    have hlt : limit < 2 ^ (Nat.log2 limit + 1) := Nat.lt_log2_self
    rw [Nat.pow_succ] at hlt
    rw [smallestEdge]
    omega
  have hlimit : limit ≤ smallestEdge * 2 ^ limit := by
    have hlt : limit < 2 ^ limit := Nat.lt_two_pow_self
    rw [smallestEdge]
    omega
  obtain ⟨n, hn, hrun⟩ := exists_iterate_sizing size items limit hlog
  refine ⟨n, hn, hrun.trans ?_⟩
  have hfirst : ∀ {fuel : Nat}, limit ≤ smallestEdge * 2 ^ fuel →
      limit ≤ firstEdge (totalArea size items) limit limit smallestEdge * 2 ^ fuel := fun h =>
    (le_min_mul h).trans (Nat.mul_le_mul_right _ min_le_firstEdge)
  rw [squares, edges, firstEdge_eq_of_le hlog hlimit,
    edgesFrom_eq_of_le (hfirst hlog) (hfirst hlimit)]

/-- Squares on which nothing fits are passed over. -/
theorem through_append_of_none {before : List Nat} (h : ∀ e ∈ before, pack size e items = none)
    (tried rest : List Nat) :
    through size items tried (before ++ rest) = through size items (tried ++ before) rest := by
  induction before generalizing tried with
  | nil => rw [List.nil_append, List.append_nil]
  | cons e before ih =>
      obtain ⟨he, hbefore⟩ := List.forall_mem_cons.1 h
      rw [List.cons_append, through, he]
      simp only [ih hbefore, List.append_assoc, List.singleton_append]

end Search

/-! ### What is found -/

theorem packPage_eq_findSome? :
    packPage size limit items
      = (squares size items limit).findSome? fun edge => pack size edge items := rfl

/-- The first rectangle on a square comes to its top left corner. -/
theorem eq_corner_of_put {edge : Nat} {e : Extent} {spot : Spot} {c : Cursor}
    (h : put edge Cursor.start e = some (spot, c)) : spot = ⟨0, 0⟩ := by
  have hcorner : (Cursor.start.makeRoom edge e.width).x = 0 ∧
      (Cursor.start.makeRoom edge e.width).y = 0 := by
    rw [Cursor.makeRoom]
    split <;> exact ⟨rfl, rfl⟩
  rw [put] at h
  split at h
  · cases h
  · obtain ⟨rfl, -⟩ := Prod.mk.inj (Option.some.inj h)
    rw [hcorner.1, hcorner.2]

theorem eq_corner_of_pack {edge : Nat} {i : ι} {placed : List (ι × Spot)}
    (h : pack size edge [i] = some placed) : placed = [(i, ⟨0, 0⟩)] := by
  rw [pack, tallestFirst, List.mergeSort_singleton] at h
  simp only [putAll, Option.bind_eq_bind, Option.bind_eq_some_iff, Option.some.injEq] at h
  obtain ⟨⟨spot, c⟩, hput, others, rfl, rfl⟩ := h
  rw [eq_corner_of_put hput]

/-- Rectangles apart from each other cover as many texels as their areas say. -/
theorem exists_card_eq {placed : List (ι × Spot)}
    (h : placed.Pairwise fun p q => (region size p).Before (region size q)) :
    ∃ cells : Finset (Nat × Nat), cells.card = (placed.map fun p => (size p.1).area).sum ∧
      ∀ c ∈ cells, ∃ p ∈ placed, (region size p).Covers c.1 c.2 := by
  induction placed with
  | nil => exact ⟨∅, rfl, nofun⟩
  | cons p placed ih =>
      obtain ⟨hp, hplaced⟩ := List.pairwise_cons.1 h
      obtain ⟨cells, hcard, hcells⟩ := ih hplaced
      have hown : ∀ c, c ∈ (region size p).cells ↔ (region size p).Covers c.1 c.2 :=
        fun _ => Rect.mem_cells
      have hapart : Disjoint (region size p).cells cells := by
        refine Finset.disjoint_left.2 fun c hc hother => ?_
        obtain ⟨q, hq, hcovers⟩ := hcells c hother
        exact (hp q hq).disjoint c.1 c.2 ((hown c).1 hc) hcovers
      refine ⟨(region size p).cells ∪ cells, ?_, ?_⟩
      · rw [Finset.card_union_of_disjoint hapart, hcard, List.map_cons, List.sum_cons,
          Rect.card_cells]
        rfl
      · intro c hc
        rcases Finset.mem_union.1 hc with hc | hc
        · exact ⟨p, List.mem_cons_self, (hown c).1 hc⟩
        · obtain ⟨q, hq, hcovers⟩ := hcells c hc
          exact ⟨q, List.mem_cons_of_mem _ hq, hcovers⟩

/-- **What is packed on a square has no larger area than the square.** -/
theorem totalArea_le_of_pack {edge : Nat} {placed : List (ι × Spot)}
    (h : pack size edge items = some placed) : totalArea size items ≤ edge * edge := by
  have hpacked := pack_packed h
  obtain ⟨cells, hcard, hcells⟩ := exists_card_eq size hpacked.before
  have harea : totalArea size items = (placed.map fun p => (size p.1).area).sum := by
    have hperm := (hpacked.perm.map fun i => (size i).area).sum_eq
    rw [totalArea, ← List.sum_eq_foldr, ← hperm, List.map_map]
    rfl
  have hsquare : cells ⊆ Finset.range edge ×ˢ Finset.range edge := by
    intro c hc
    obtain ⟨p, hp, hcovers⟩ := hcells c hc
    have hwithin := hpacked.within p hp
    simp only [Rect.Covers, Rect.Within] at hcovers hwithin
    rw [Finset.mem_product, Finset.mem_range, Finset.mem_range]
    omega
  have hle := Finset.card_le_card hsquare
  rwa [hcard, Finset.card_product, Finset.card_range, ← harea] at hle

theorem pack_eq_none_of_lt {edge : Nat} (h : edge * edge < totalArea size items) :
    pack size edge items = none := by
  rw [Option.eq_none_iff_forall_ne_some]
  intro placed hplaced
  exact Nat.not_lt.2 (totalArea_le_of_pack size items hplaced) h

/-- **Which squares are tried, and what comes of it.**  The squares grow and end with the limit;
squares that are passed over before the first one are too small.  The search ends, after no more
steps than the limit has binary digits and one.  It has then tried the squares up to the first one
on which the rectangles can be packed, and has the places on it, which lie inside; or it has tried
all squares in vain, the limit included.  A single rectangle that is no wider and no higher than
the limit always comes to the top left corner. -/
theorem packPage_search :
    ((squares size items limit).Pairwise (· < ·) ∧
      (squares size items limit).getLast? = some limit ∧
      ∀ edge, edge * edge < totalArea size items → pack size edge items = none) ∧
    (∃ n ≤ Nat.log2 limit + 2, ∃ tried,
      (Search.step size items limit)^[n] (.sizing smallestEdge)
          = .ended tried (packPage size limit items) ∧
        tried <+: squares size items limit ∧
        (∀ placed, packPage size limit items = some placed →
          ∃ before edge, tried = before ++ [edge] ∧ (∀ e ∈ before, pack size e items = none) ∧
            pack size edge items = some placed ∧ Packed size edge items placed) ∧
        (packPage size limit items = none → tried = squares size items limit)) ∧
    (packPage size limit items = none ↔
      ∀ edge ∈ squares size items limit, pack size edge items = none) ∧
    ∀ i, (size i).width ≤ limit → (size i).height ≤ limit →
      packPage size limit [i] = some [(i, ⟨0, 0⟩)] := by
  refine ⟨⟨pairwise_edges _ _, getLast?_edges _ _, fun _ => pack_eq_none_of_lt size items⟩, ?_,
    List.findSome?_eq_none_iff, ?_⟩
  · obtain ⟨n, hn, hrun⟩ := Search.exists_iterate_squares size items limit
    refine ⟨n, hn, ?_⟩
    rw [hrun]
    cases hpage : packPage size limit items with
    | some placed =>
        rw [packPage_eq_findSome?, List.findSome?_eq_some_iff] at hpage
        obtain ⟨before, edge, after, hsplit, hpack, hbefore⟩ := hpage
        refine ⟨before ++ [edge], ?_, ⟨after, ?_⟩, ?_, nofun⟩
        · rw [hsplit, Search.through_append_of_none size items hbefore]
          simp only [Search.through, hpack, List.nil_append]
        · rw [List.append_assoc, List.singleton_append]
          exact hsplit.symm
        · rintro placed' heq
          cases heq
          exact ⟨before, edge, rfl, hbefore, hpack, pack_packed hpack⟩
    | none =>
        have hnone : ∀ e ∈ squares size items limit, pack size e items = none :=
          List.findSome?_eq_none_iff.1 hpage
        refine ⟨squares size items limit, ?_, List.prefix_rfl, nofun, fun _ => rfl⟩
        have hall := Search.through_append_of_none size items hnone [] []
        rwa [List.append_nil, List.nil_append] at hall
  · intro i hw hh
    obtain ⟨placed, hplaced⟩ := exists_packPage_singleton hw hh
    obtain ⟨edge, -, hpack⟩ := List.exists_of_findSome?_eq_some hplaced
    rw [hplaced, eq_corner_of_pack size hpack]

/-- Two strips that together need a square of seventeen and three texels. -/
def strips : List Extent := [⟨3, 17⟩, ⟨20, 3⟩]

/-- On a page of twenty texels the strips fit on the second square that is tried, which is the page
itself; one of them alone comes to the corner. -/
theorem packPage_search_strips :
    squares id strips 20 = [16, 20] ∧
    packPage id 20 strips = some [(⟨3, 17⟩, ⟨0, 0⟩), (⟨20, 3⟩, ⟨0, 17⟩)] ∧
    (∃ n ≤ 6, (Search.step id strips 20)^[n] (.sizing 16)
      = .ended [16, 20] (packPage id 20 strips)) ∧
    packPage id 20 [(⟨20, 3⟩ : Extent)] = some [(⟨20, 3⟩, ⟨0, 0⟩)] := by
  have hsorted : tallestFirst id strips = strips := List.mergeSort_of_pairwise (by decide)
  have hsmall : pack id 16 strips = none := by
    rw [pack, hsorted]
    rfl
  have hpage : pack id 20 strips = some [(⟨3, 17⟩, ⟨0, 0⟩), (⟨20, 3⟩, ⟨0, 17⟩)] := by
    rw [pack, hsorted]
    rfl
  have hsquares : squares id strips 20 = [16, 20] := by decide
  have hfound : packPage id 20 strips = some [(⟨3, 17⟩, ⟨0, 0⟩), (⟨20, 3⟩, ⟨0, 17⟩)] := by
    rw [packPage_eq_findSome?, hsquares]
    simp only [List.findSome?, hsmall, hpage]
  obtain ⟨-, ⟨n, hn, tried, hrun, hprefix, hsome, -⟩, -, hsingle⟩ := packPage_search id strips 20
  refine ⟨hsquares, hfound, ⟨n, hn, ?_⟩, hsingle ⟨20, 3⟩ (by decide) (by decide)⟩
  obtain ⟨before, edge, rfl, -, hpack, -⟩ := hsome _ hfound
  obtain ⟨after, hafter⟩ := hsquares ▸ hprefix
  rcases before with _ | ⟨first, _ | ⟨second, rest⟩⟩
  · obtain ⟨rfl, -⟩ : edge = 16 ∧ after = [20] := by simpa using hafter
    rw [hsmall] at hpack
    cases hpack
  · obtain ⟨rfl, rfl, -⟩ : first = 16 ∧ edge = 20 ∧ after = [] := by simpa using hafter
    exact hrun
  · simp at hafter

end Packing

end Shelf

end VoxelBake
