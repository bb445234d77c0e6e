/-
**Pages are filled one after another, in the order of the textures and below the limit.**

Textures are taken in the order in which they were first added.  A page takes textures while their
area stays below the limit, gives the last ones back until the rest can be packed, and is then
closed for good.  Written as a machine that does one such step at a time
(`AtlasBuilder.Stage.step`) this is a loop within a loop; that every page keeps at least one texture
makes it end, after no more steps than the square of the number of textures.

What a page keeps is a group of consecutive textures, so page numbers never fall in the order of the
textures.  Groups are not empty, so no number is left out, and giving back textures only makes the
area of a group smaller.

Main definitions:

* `AtlasBuilder.Stage`, `AtlasBuilder.Stage.step` — **the distribution of textures, step by step**;
* `AtlasBuilder.inOrder` — the textures in the order in which their names were first added;
* `AtlasBuilder.pageNumbers`, `AtlasBuilder.texturesOn` — on which pages they lie, and which of them
  lie on a page;
* `AtlasBuilder.numbering` — the number of each page as often as the page has textures.

Main results:

* `AtlasBuilder.Stage.exists_iterate_paginate` — the steps come to an end, with the same pages;
* `AtlasBuilder.Paginated.map_number` — pages are numbered in the order of the textures;
* `AtlasBuilder.Paginated.filter_number` — the textures of one page are a group below the limit;
* `AtlasBuilder.pages_filled_in_order` — **order, numbers and area of the pages of an atlas**.
-/
import Mathlib.Logic.Function.Iterate
import VoxelBake.Proofs.AtlasCompletion

set_option relaxedAutoImplicit false
set_option autoImplicit false

namespace VoxelBake

namespace AtlasBuilder

variable {α : Type}

/-! ### One step after another -/

/-- Where the distribution of textures stands. -/
inductive Stage (α : Type)
  /-- Of the textures left, `taken` stay below the limit together; their area is `used`. -/
  | gathering (pages : List (List (Named α × Spot))) (left : List (Named α)) (taken used : Nat)
  /-- The first texture and `more` of the others are to be packed on a page. -/
  | fitting (pages : List (List (Named α × Spot))) (first : Named α) (others : List (Named α))
      (more : Nat)
  /-- Every texture has a place. -/
  | finished (pages : List (List (Named α × Spot)))
  /-- There is no place for a texture. -/
  | refused (fault : AtlasFault)

theorem prefixLength_le (limit used : Nat) (ts : List (Named α)) :
    prefixLength limit used ts ≤ ts.length := by
  induction ts generalizing used with
  | nil => exact Nat.le_refl 0
  | cons t ts ih =>
      simp only [prefixLength, List.length_cons]
      split
      · exact Nat.succ_le_succ (ih _)
      · exact Nat.zero_le _

namespace Stage

variable [Scalar α]

/-- What follows once no further texture is taken.  If there are textures left, a page is tried;
the first texture is made smaller for it if not even that one was taken. -/
def gathered (size : Nat) (pages : List (List (Named α × Spot))) : List (Named α) → Nat → Stage α
  | [], _ => finished pages
  | first :: others, 0 => fitting pages (first.1, first.2.fitWithin size) others 0
  | first :: others, taken + 1 => fitting pages first others taken

/-- One step: one more texture is looked at, or one more group is tried. -/
def step (size limit : Nat) : Stage α → Stage α
  | gathering pages left taken used =>
      match left[taken]? with
      | some t =>
          if used + t.2.area < limit then gathering pages left (taken + 1) (used + t.2.area)
          else gathered size pages left taken
      | none => gathered size pages left taken
  | fitting pages first others more =>
      match Shelf.packPage extent size ((first :: others).take (more + 1)) with
      | some placed => gathering (pages ++ [placed]) (others.drop more) 0 0
      | none =>
          match more with
          | 0 => refused (.noRoom first.1 size)
          | more + 1 => fitting pages first others more
  | finished pages => finished pages
  | refused fault => refused fault

/-- Where some pages lead that were cut back. -/
def cut (size : Nat) (pages : List (List (Named α × Spot))) (first : Named α)
    (others : List (Named α)) : Option (Nat × List (Named α × Spot)) → Stage α
  | some (taken, placed) => gathering (pages ++ [placed]) ((first :: others).drop taken) 0 0
  | none => refused (.noRoom first.1 size)

/-- The end, with pages or with a fault. -/
def settled (pages : List (List (Named α × Spot))) :
    Except AtlasFault (List (List (Named α × Spot))) → Stage α
  | .ok later => finished (pages ++ later)
  | .error fault => refused fault

omit [Scalar α] in
theorem settled_append (pages : List (List (Named α × Spot))) (placed : List (Named α × Spot))
    (later : Except AtlasFault (List (List (Named α × Spot)))) :
    settled (pages ++ [placed]) later = settled pages (later.map (placed :: ·)) := by
  cases later with
  | ok later => simp [settled, Except.map]
  | error fault => rfl

variable (size limit : Nat)

/-- The textures are looked at one by one, until one would reach the limit. -/
theorem iterate_gathering (pages : List (List (Named α × Spot))) (before after : List (Named α))
    (used : Nat) :
    (step size limit)^[prefixLength limit used after + 1]
        (gathering pages (before ++ after) before.length used)
      = gathered size pages (before ++ after) (before.length + prefixLength limit used after) := by
  induction after generalizing before used with
  | nil => simp [prefixLength, step]
  | cons t after ih =>
      by_cases hlt : used + t.2.area < limit
      · have hmore : prefixLength limit used (t :: after)
            = prefixLength limit (used + t.2.area) after + 1 := by simp [prefixLength, hlt]
        have hstep : step size limit (gathering pages (before ++ t :: after) before.length used)
            = gathering pages ((before ++ [t]) ++ after) (before ++ [t]).length
              (used + t.2.area) := by
          simp [step, hlt]
        rw [hmore, Function.iterate_succ_apply, hstep, ih]
        simp [Nat.add_assoc, Nat.add_comm 1]
      · have hstop : prefixLength limit used (t :: after) = 0 := by simp [prefixLength, hlt]
        simp [hstop, step, hlt]

/-- Groups are tried from the longest to the shortest. -/
theorem exists_iterate_fitting (pages : List (List (Named α × Spot))) (first : Named α)
    (others : List (Named α)) (more : Nat) :
    ∃ n ≤ more + 1, (step size limit)^[n] (fitting pages first others more)
      = cut size pages first others (cutBack size (first :: others) (more + 1)) := by
  induction more with
  | zero =>
      refine ⟨1, Nat.le_refl _, ?_⟩
      rw [Function.iterate_one, step, cutBack]
      cases Shelf.packPage extent size ((first :: others).take (0 + 1)) <;> rfl
  | succ more ih =>
      rw [cutBack]
      cases hpack : Shelf.packPage extent size ((first :: others).take (more + 1 + 1)) with
      | some placed =>
          refine ⟨1, by omega, ?_⟩
          rw [Function.iterate_one, step, hpack]
          rfl
      | none =>
          obtain ⟨n, hn, hrun⟩ := ih
          refine ⟨n + 1, by omega, ?_⟩
          rw [Function.iterate_succ_apply, step, hpack]
          exact hrun

/-- The group that is tried first once the textures were looked at; its first texture may have been
made smaller. -/
theorem exists_gathered_eq (pages : List (List (Named α × Spot))) (first : Named α)
    (others : List (Named α)) :
    ∃ first' more, first'.1 = first.1 ∧ more ≤ others.length ∧
      nextGroup size limit first others = (first' :: others, more + 1) ∧
      gathered size pages (first :: others) (prefixLength limit 0 (first :: others))
        = fitting pages first' others more := by
  have hle := prefixLength_le limit 0 (first :: others)
  rw [nextGroup]
  cases hn : prefixLength limit 0 (first :: others) with
  | zero => exact ⟨(first.1, first.2.fitWithin size), 0, rfl, Nat.zero_le _, rfl, rfl⟩
  | succ more =>
      rw [hn] at hle
      exact ⟨first, more, rfl, Nat.le_of_succ_le_succ hle, rfl, rfl⟩

/-- **One page** costs one step for each texture that is looked at, and one for each group that is
tried. -/
theorem exists_iterate_page (pages : List (List (Named α × Spot))) (first : Named α)
    (others : List (Named α)) :
    ∃ n ≤ 2 * others.length + 3, ∃ first' more, first'.1 = first.1 ∧
      nextGroup size limit first others = (first' :: others, more + 1) ∧
      (step size limit)^[n] (gathering pages (first :: others) 0 0)
        = cut size pages first' others (cutBack size (first' :: others) (more + 1)) := by
  have hlook : (step size limit)^[prefixLength limit 0 (first :: others) + 1]
      (gathering pages (first :: others) 0 0)
        = gathered size pages (first :: others) (prefixLength limit 0 (first :: others)) := by
    simpa using iterate_gathering size limit pages [] (first :: others) 0
  have hlooks := prefixLength_le limit 0 (first :: others)
  rw [List.length_cons] at hlooks
  obtain ⟨first', more, hname, hmore, hgroup, hfitting⟩ :=
    exists_gathered_eq size limit pages first others
  obtain ⟨k, hk, hcut⟩ := exists_iterate_fitting size limit pages first' others more
  refine ⟨k + (prefixLength limit 0 (first :: others) + 1), by omega, first', more, hname, hgroup,
    ?_⟩
  rw [Function.iterate_add_apply, hlook, hfitting, hcut]

/-- **The steps come to an end, with the same pages or the same fault.** -/
theorem exists_iterate_paginate (fuel : Nat) :
    ∀ (ts : List (Named α)) (pages : List (List (Named α × Spot))), ts.length ≤ fuel →
      ∃ n ≤ (ts.length + 1) ^ 2, (step size limit)^[n] (gathering pages ts 0 0)
        = settled pages (paginate size limit fuel ts) := by
  -- each page keeps a texture, so fewer are left for the next one
  induction fuel with
  | zero =>
      intro ts pages hlen
      obtain rfl := List.length_eq_zero_iff.1 (Nat.le_zero.1 hlen)
      exact ⟨1, Nat.le_refl _, by simp [step, gathered, paginate, settled]⟩
  | succ fuel ih =>
      intro ts pages hlen
      cases ts with
      | nil => exact ⟨1, Nat.le_refl _, by simp [step, gathered, paginate, settled]⟩
      | cons first others =>
          obtain ⟨k, hk, first', more, hname, hgroup, hpage⟩ :=
            exists_iterate_page size limit pages first others
          have hsquare : (others.length + 1 + 1) ^ 2
              = (others.length + 1) ^ 2 + (2 * others.length + 3) := by ring
          rw [List.length_cons, hsquare, paginate]
          simp only [hgroup]
          cases hcut : cutBack size (first' :: others) (more + 1) with
          | none =>
              rw [hcut, cut, hname] at hpage
              exact ⟨k, hk.trans (Nat.le_add_left _ _), hpage⟩
          | some out =>
              obtain ⟨taken, placed⟩ := out
              rw [hcut] at hpage
              obtain ⟨hpos, -, -⟩ := cutBack_spec hcut
              have hleft : ((first' :: others).drop taken).length ≤ others.length := by
                rw [List.length_drop, List.length_cons]
                omega
              obtain ⟨n, hn, hrest⟩ := ih _ (pages ++ [placed])
                (hleft.trans (Nat.le_of_succ_le_succ hlen))
              have hn' := hn.trans (Nat.pow_le_pow_left (Nat.add_le_add_right hleft 1) 2)
              refine ⟨n + k, Nat.add_le_add hn' hk, ?_⟩
              rw [Function.iterate_add_apply, hpage, cut, hrest]
              exact settled_append pages placed _

end Stage

/-! ### Numbers of pages -/

section Numbering

variable {β : Type}

/-- The number of each page, from `n` on, as often as there are things on the page. -/
def numbering : Nat → List (List β) → List Nat
  | _, [] => []
  | n, page :: pages => List.replicate page.length n ++ numbering (n + 1) pages

theorem le_of_mem_numbering {n k : Nat} {pages : List (List β)} (h : k ∈ numbering n pages) :
    n ≤ k := by
  induction pages generalizing n with
  | nil => cases h
  | cons page pages ih =>
      rcases List.mem_append.1 h with h | h
      · exact (List.eq_of_mem_replicate h).ge
      · exact (Nat.le_succ n).trans (ih h)

/-- Numbers never fall. -/
theorem pairwise_numbering (n : Nat) (pages : List (List β)) :
    (numbering n pages).Pairwise (· ≤ ·) := by
  induction pages generalizing n with
  | nil => exact List.Pairwise.nil
  | cons page pages ih =>
      refine List.pairwise_append.2 ⟨List.pairwise_replicate.2 (Or.inr (Nat.le_refl n)), ih _, ?_⟩
      intro i hi j hj
      rw [List.eq_of_mem_replicate hi]
      exact (Nat.le_succ n).trans (le_of_mem_numbering hj)

/-- No number is left out if there is something on every page. -/
theorem mem_numbering_iff {n k : Nat} {pages : List (List β)} (h : ∀ page ∈ pages, page ≠ []) :
    k ∈ numbering n pages ↔ n ≤ k ∧ k < n + pages.length := by
  induction pages generalizing n with
  | nil =>
      simp only [numbering, List.not_mem_nil, List.length_nil, false_iff]
      omega
  | cons page pages ih =>
      have hpage : page.length ≠ 0 := by simpa using h page (List.mem_cons_self ..)
      rw [numbering, List.mem_append, List.mem_replicate,
        ih fun page hp => h page (List.mem_cons_of_mem _ hp), List.length_cons]
      omega

theorem head?_numbering {n : Nat} {pages : List (List β)} (h : ∀ page ∈ pages, page ≠ [])
    (hne : pages ≠ []) : (numbering n pages).head? = some n := by
  cases pages with
  | nil => exact absurd rfl hne
  | cons page pages =>
      have hpage : page.length ≠ 0 := by simpa using h page (List.mem_cons_self ..)
      simp [numbering, List.head?_replicate, hpage]

end Numbering

/-! ### The textures of a page -/

section Numbers

variable [Scalar α] {size limit : Nat} {number : Identifier → Nat}

/-- The number of a name is the number of its page, where pages are counted from `first` on. -/
def NumberedFrom (first : Nat) (number : Identifier → Nat)
    (pages : List (List (Named α × Spot))) : Prop :=
  ∀ (n : Nat) (placed : List (Named α × Spot)), pages[n]? = some placed → ∀ p ∈ placed,
    number p.1.1 = first + n

omit [Scalar α] in
theorem NumberedFrom.tail {first : Nat} {placed : List (Named α × Spot)}
    {pages : List (List (Named α × Spot))} (h : NumberedFrom first number (placed :: pages)) :
    NumberedFrom (first + 1) number pages := by
  intro n placed' hn p hp
  rw [h (n + 1) placed' hn p hp]
  omega

/-- The textures of a group have the number of their page. -/
theorem NumberedFrom.head {first : Nat} {group : List (Named α)} {placed : List (Named α × Spot)}
    {pages : List (List (Named α × Spot))} (h : NumberedFrom first number (placed :: pages))
    (hpacked : Shelf.Packed extent size (group.map (namedAsPacked size limit)) placed) :
    ∀ t ∈ group, number t.1 = first := by
  intro t ht
  obtain ⟨p, hp, heq⟩ := List.mem_map.1 (hpacked.perm.mem_iff.2 (List.mem_map_of_mem ht))
  have hname : p.1.1 = t.1 := by rw [heq, namedAsPacked]
  rw [← hname]
  exact h 0 placed rfl p hp

namespace Paginated

variable {ts : List (Named α)} {pages : List (List (Named α × Spot))}

theorem ne_nil_of_mem (h : Paginated size limit ts pages) :
    ∀ placed ∈ pages, placed ≠ [] := by
  rintro placed hplaced rfl
  obtain ⟨group, -, hgroup, hpacked⟩ := h.exists_group hplaced
  have hnil : group = [] := by simpa using hpacked.perm.length_eq.symm
  rcases hgroup with ⟨t, rfl, -⟩ | ⟨hne, -⟩
  · cases hnil
  · exact hne hnil

/-- **Pages are numbered in the order of the textures.** -/
theorem map_number (h : Paginated size limit ts pages) {first : Nat}
    (hnumber : NumberedFrom first number pages) :
    ts.map (fun t => number t.1) = numbering first pages := by
  induction h generalizing first with
  | done => rfl
  | @page group rest placed pages _ hpacked _ ih =>
      have hlength : placed.length = group.length := by simpa using hpacked.perm.length_eq
      have hgroup : group.map (fun t => number t.1) = List.replicate placed.length first := by
        rw [hlength, ← List.map_const']
        exact List.map_congr_left (hnumber.head hpacked)
      rw [List.map_append, hgroup, ih hnumber.tail, numbering]

/-- **The textures of one page are a group.** -/
theorem filter_number (h : Paginated size limit ts pages) {first : Nat}
    (hnumber : NumberedFrom first number pages) (n : Nat) :
    ts.filter (fun t => number t.1 = n) = [] ∨
      PageGroup limit (ts.filter fun t => number t.1 = n) := by
  induction h generalizing first with
  | done => exact Or.inl rfl
  | @page group rest placed pages hgroup hpacked hrest ih =>
      have hhead := hnumber.head hpacked
      have htail := hrest.map_number hnumber.tail
      rw [List.filter_append]
      by_cases hn : n = first
      · subst hn
        -- later textures have larger numbers
        have hnone : rest.filter (fun t => number t.1 = n) = [] := by
          refine List.filter_eq_nil_iff.2 fun t ht hnum => ?_
          have hmem : number t.1 ∈ numbering (n + 1) pages := htail ▸ List.mem_map_of_mem ht
          have hle := le_of_mem_numbering hmem
          rw [decide_eq_true_iff] at hnum
          omega
        have hall : group.filter (fun t => number t.1 = n) = group :=
          List.filter_eq_self.2 fun t ht => decide_eq_true (hhead t ht)
        rw [hnone, hall, List.append_nil]
        exact Or.inr hgroup
      · have hnone : group.filter (fun t => number t.1 = n) = [] := by
          refine List.filter_eq_nil_iff.2 fun t ht hnum => hn ?_
          rw [← hhead t ht, of_decide_eq_true hnum]
        rw [hnone, List.nil_append]
        exact ih hnumber.tail

end Paginated

end Numbers

/-! ### The pages of an atlas -/

/-- The textures in the order in which their names were first added, the reserved ones before all
others; each is the one that was last added under its name. -/
def inOrder (added : List (Named α)) : List (Named α) :=
  ((reserved ++ added).map Prod.fst).eraseDups.filterMap fun id =>
    (lastAdded added id).map (id, ·)

/-- Textures wait for their page in this order. -/
theorem entries_ofList_reserved (added : List (Named α)) :
    (Table.ofList (reserved ++ added)).entries = inOrder added := by
  rw [Table.entries_eq_filterMap, Table.keys_ofList]
  simp only [Table.get?_ofList]
  rfl

/-- The names in this order. -/
theorem map_fst_inOrder (added : List (Named α)) :
    (inOrder added).map Prod.fst = ((reserved ++ added).map Prod.fst).eraseDups := by
  rw [← entries_ofList_reserved, ← Table.keys_ofList]
  rfl

theorem reserved_isPrefix (added : List (Named α)) :
    [Identifier.blank, Identifier.vacant, Identifier.missing]
      <+: (inOrder added).map Prod.fst := by
  rw [map_fst_inOrder, List.map_append, List.eraseDups_append]
  exact List.prefix_append ..

theorem inOrder_ne_nil (added : List (Named α)) : inOrder added ≠ [] := by
  intro hnil
  have hprefix := reserved_isPrefix added
  rw [hnil, List.map_nil, List.prefix_nil] at hprefix
  cases hprefix

section Building

variable [Scalar α]

/-- The numbers of the pages on which the textures lie, in their order. -/
def pageNumbers (added : List (Named α)) (atlas : Atlas α) : List Nat :=
  (inOrder added).map fun t => (atlas.entry t.1).page

/-- The textures on one page, in their order. -/
def texturesOn (added : List (Named α)) (atlas : Atlas α) (n : Nat) : List (Named α) :=
  (inOrder added).filter fun t => (atlas.entry t.1).page = n

variable [Gamma α]

/-- Entries name the pages on which the textures were placed. -/
theorem numberedFrom_assemble {size limit : Nat} (mipLevels : Nat)
    {textures : Table Identifier (Texture α)} {pages : List (List (Named α × Spot))}
    (h : Paginated size limit textures.entries pages) :
    NumberedFrom 0 (fun id => ((assemble size mipLevels pages).entry id).page) pages := by
  intro n placed hplaced p hp
  have hentry : (assemble size mipLevels pages).entries.get? p.1.1 = some (entryOf size n p) :=
    (get?_assemble h).2 ⟨p, n, placed, hplaced, hp, rfl, rfl⟩
  simp [Atlas.entry, hentry, entryOf]

/-- A build goes through the stages of the distribution up to its pages. -/
theorem exists_iterate_build {size : Nat} {fill : Float32} {mipLevels : Nat}
    {added : List (Named α)} {atlas : Atlas α}
    (h : (ofTextures size fill mipLevels added).build = .ok atlas) :
    ∃ pages, Paginated (max 1 size) (areaLimit (max 1 size) fill) (inOrder added) pages ∧
      atlas = assemble (max 1 size) mipLevels pages ∧
      ∃ n ≤ ((inOrder added).length + 1) ^ 2,
        (Stage.step (max 1 size) (areaLimit (max 1 size) fill))^[n]
          (.gathering [] (inOrder added) 0 0) = .finished pages := by
  obtain ⟨pages, hpaginate, rfl⟩ := build_eq_ok_iff.1 h
  rw [entries_ofList_reserved] at hpaginate
  obtain ⟨n, hn, hrun⟩ := Stage.exists_iterate_paginate (max 1 size)
    (areaLimit (max 1 size) fill) (inOrder added).length (inOrder added) [] (Nat.le_refl _)
  rw [hpaginate] at hrun
  exact ⟨pages, paginate_spec (Nat.le_refl _) hpaginate, rfl, n, hn, hrun⟩

/-- **Pages are filled one after another, in the order of the textures and below the limit.**  A
build that succeeds has gone through no more stages than the square of the number of textures.  The
numbers of the pages never fall in the order of the textures; they begin with zero, and every page
has a texture.  On a page with several textures these stay below the limit together, and none of
them was made smaller. -/
theorem pages_filled_in_order (size : Nat) (fill : Float32) (mipLevels : Nat)
    (added : List (Named α)) {atlas : Atlas α}
    (h : (ofTextures size fill mipLevels added).build = .ok atlas) :
    (∃ pages, ∃ n ≤ ((inOrder added).length + 1) ^ 2,
      (Stage.step (max 1 size) (areaLimit (max 1 size) fill))^[n]
          (.gathering [] (inOrder added) 0 0) = .finished pages ∧
        atlas = assemble (max 1 size) mipLevels pages) ∧
    [Identifier.blank, Identifier.vacant, Identifier.missing]
      <+: (inOrder added).map Prod.fst ∧
    (∀ t ∈ inOrder added, t.1 ∈ atlas.entries.keys) ∧
    (pageNumbers added atlas).Pairwise (· ≤ ·) ∧
    (pageNumbers added atlas).head? = some 0 ∧
    (∀ n, n ∈ pageNumbers added atlas ↔ n < atlas.pages.length) ∧
    ∀ n, 1 < (texturesOn added atlas n).length →
      totalArea (texturesOn added atlas n) < areaLimit (max 1 size) fill ∧
      ∀ t ∈ texturesOn added atlas n,
        asPacked (max 1 size) (areaLimit (max 1 size) fill) t.2 = t.2 := by
  obtain ⟨pages, hpages, rfl, n, hn, hrun⟩ := exists_iterate_build h
  have hplaced := hpages.ne_nil_of_mem
  have hpages' := hpages
  rw [← entries_ofList_reserved] at hpages'
  have hnumber := numberedFrom_assemble mipLevels hpages'
  have hnumbers : pageNumbers added (assemble (max 1 size) mipLevels pages)
      = numbering 0 pages := hpages.map_number hnumber
  have hne : pages ≠ [] := by
    rintro rfl
    exact inOrder_ne_nil added (List.map_eq_nil_iff.1 hnumbers)
  refine ⟨⟨pages, n, hn, hrun, rfl⟩, reserved_isPrefix added, ?_, ?_, ?_, ?_, ?_⟩
  · intro t ht
    rw [mem_keys_assemble hpages', Table.keys, entries_ofList_reserved]
    exact List.mem_map_of_mem ht
  · rw [hnumbers]
    exact pairwise_numbering 0 pages
  · rw [hnumbers]
    exact head?_numbering hplaced hne
  · intro k
    rw [hnumbers, mem_numbering_iff hplaced]
    simp [assemble]
  · intro k hk
    rcases hpages.filter_number hnumber k with hnil | hgroup
    · rw [texturesOn, hnil] at hk
      cases hk
    · rcases hgroup with ⟨t, hone, -⟩ | ⟨-, hlt⟩
      · rw [texturesOn, hone] at hk
        exact absurd hk (Nat.lt_irrefl 1)
      · refine ⟨hlt, fun t ht => ?_⟩
        exact if_pos (Nat.lt_of_le_of_lt (area_le_totalArea ht) hlt)

end Building

/-- The textures with the poster are too large together for a single page. -/
theorem pages_filled_in_order_poster :
    ∃ atlas : Atlas Float32,
      (ofTextures 64 ((1 : Nat) : Float32) 0 posterTextures).build = .ok atlas ∧
      (pageNumbers posterTextures atlas).Pairwise (· ≤ ·) ∧
      0 ∈ pageNumbers posterTextures atlas ∧ 1 ∈ pageNumbers posterTextures atlas := by
  obtain ⟨atlas, hbuild, -⟩ :=
    (build_ok_iff_fits 64 ((1 : Nat) : Float32) 0 posterTextures).2 fun id t ht => by
      have hall : ∀ t ∈ reserved ++ posterTextures, (asPacked (max 1 64)
          (areaLimit (max 1 64) ((1 : Nat) : Float32)) t.2).Fits (max 1 64) := by decide +kernel
      obtain ⟨l₁, l₂, hl, -⟩ := List.lookup_eq_some_iff.1 ht
      exact hall (id, t) (List.mem_reverse.1 (hl ▸ by simp))
  obtain ⟨-, -, -, hrise, hhead, hpages, hareas⟩ :=
    pages_filled_in_order 64 ((1 : Nat) : Float32) 0 posterTextures hbuild
  refine ⟨atlas, hbuild, hrise, List.mem_of_mem_head? hhead, (hpages 1).2 ?_⟩
  by_contra hone
  have hall : texturesOn posterTextures atlas 0 = inOrder posterTextures := by
    refine List.filter_eq_self.2 fun t ht => decide_eq_true ?_
    have hlt := (hpages _).1 (List.mem_map_of_mem ht)
    omega
  have hlt := (hareas 0 (by rw [hall]; decide +kernel)).1
  rw [hall] at hlt
  exact absurd hlt (by decide +kernel)

end AtlasBuilder

end VoxelBake
