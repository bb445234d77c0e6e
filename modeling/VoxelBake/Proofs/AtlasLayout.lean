/-
**Every texture of an atlas lies on its page, whole and undisturbed.**

Textures are distributed on pages in the order in which they were added.  Each page takes a group of
consecutive textures: some that stay below the limit together, or a single one that reaches it alone
and is made smaller for that (`AtlasBuilder.PageGroup`).  The groups together are all textures
(`AtlasBuilder.Paginated`), and each group is a packing of its page.  Textures are then drawn one
after another; since no rectangle of a packing disturbs another one, each texel that was drawn
stays.

Main definitions:

* `AtlasBuilder.ofTextures`, `AtlasBuilder.lastAdded` — a builder after some additions, and the
  texture that it then holds under a name;
* `Texture.Fits`, `AtlasBuilder.asPacked` — when a texture fits on a page, and how it is packed;
* `AtlasBuilder.PageGroup`, `AtlasBuilder.Paginated` — **what pagination does**;
* `Rect.scaled`, `Atlas.Holds` — **how an atlas holds a texture**.

Main results:

* `AtlasBuilder.paginate_spec` — pages are packings of consecutive groups;
* `AtlasBuilder.paginate_error` — pagination gives up only because of a texture that does not fit;
* `AtlasBuilder.texel_drawPage` — drawing keeps every texture of a packing;
* `AtlasBuilder.build_layout` — **a built atlas holds each texture that was added, once, apart from
  all others and texel by texel**.
-/
import Mathlib.Algebra.GroupWithZero.Nat
import Mathlib.Algebra.Order.BigOperators.Group.List
import Mathlib.Algebra.Order.Group.Nat
import Mathlib.Data.List.Nodup
import VoxelBake.Atlas.Builder
import VoxelBake.Proofs.ShelfPacking

set_option relaxedAutoImplicit false
set_option autoImplicit false

namespace VoxelBake

/-! ### Drawing over an image -/

namespace Raster

variable {base top : Raster} {x₀ y₀ x y : Nat}

/-- A texel under the image that is laid on. -/
theorem texel_paste_of_covers {r : Rect Nat} (hr : r = ⟨x₀, y₀, top.width, top.height⟩)
    (hx : x < base.width) (hy : y < base.height) (h : r.Covers x y) :
    (base.paste top x₀ y₀).texel x y = top.texel (x - x₀) (y - y₀) := by
  subst hr
  rw [texel_paste hx hy]
  exact if_pos h

/-- A texel beside the image that is laid on. -/
theorem texel_paste_of_not_covers {r : Rect Nat} (hr : r = ⟨x₀, y₀, top.width, top.height⟩)
    (h : ¬ r.Covers x y) : (base.paste top x₀ y₀).texel x y = base.texel x y := by
  subst hr
  have hw : (base.paste top x₀ y₀).width = base.width := rfl
  have hh : (base.paste top x₀ y₀).height = base.height := rfl
  refine texel_related rfl hw hh fun hx hy => ?_
  rw [hw] at hx
  rw [hh] at hy
  rw [texel_paste hx hy]
  exact if_neg h

end Raster

/-- Whether a texture is small enough for a page with the given edge. -/
def Texture.Fits {α : Type} (t : Texture α) (edge : Nat) : Prop :=
  t.image.width ≤ edge ∧ t.image.height ≤ edge

instance {α : Type} (t : Texture α) (edge : Nat) : Decidable (t.Fits edge) :=
  inferInstanceAs (Decidable (_ ∧ _))

namespace AtlasBuilder

variable {α : Type}

/-! ### Groups of textures -/

/-- The area of some textures together. -/
def totalArea (ts : List (Named α)) : Nat := (ts.map fun t => t.2.area).sum

theorem area_le_totalArea {ts : List (Named α)} {t : Named α} (h : t ∈ ts) :
    t.2.area ≤ totalArea ts :=
  List.le_sum_of_mem (List.mem_map_of_mem h)

/-- The textures that are taken at first stay below the limit together, and so do fewer of them. -/
theorem totalArea_take_lt {limit : Nat} {ts : List (Named α)} :
    ∀ {used m : Nat}, 0 < m → m ≤ prefixLength limit used ts →
      used + totalArea (ts.take m) < limit := by
  induction ts with
  | nil =>
      intro used m hm hle
      exact absurd hle (Nat.not_le_of_lt hm)
  | cons t ts ih =>
      intro used m hm hle
      simp only [prefixLength] at hle
      split at hle
      · rename_i hlt
        obtain ⟨k, rfl⟩ : ∃ k, m = k + 1 := ⟨m - 1, by omega⟩
        rcases Nat.eq_zero_or_pos k with rfl | hk
        · simpa [totalArea] using hlt
        · have := ih hk (Nat.le_of_succ_le_succ hle)
          simpa [totalArea, Nat.add_assoc] using this
      · omega

/-- What a page takes is the largest number of textures, from `n` downwards, that can be packed. -/
theorem cutBack_spec {size n taken : Nat} {ts : List (Named α)} {placed : List (Named α × Spot)}
    (h : cutBack size ts n = some (taken, placed)) :
    0 < taken ∧ taken ≤ n ∧ Shelf.packPage extent size (ts.take taken) = some placed := by
  induction n with
  | zero => cases h
  | succ n ih =>
      simp only [cutBack] at h
      split at h
      · rename_i hpack
        simp only [Option.some.injEq, Prod.mk.injEq] at h
        obtain ⟨rfl, rfl⟩ := h
        exact ⟨Nat.succ_pos n, Nat.le_refl _, hpack⟩
      · obtain ⟨hpos, hle, hpack⟩ := ih h
        exact ⟨hpos, Nat.le_succ_of_le hle, hpack⟩

/-- A group of textures for one page: a single texture that reaches the limit alone, or some that
stay below it together. -/
def PageGroup (limit : Nat) (group : List (Named α)) : Prop :=
  (∃ t, group = [t] ∧ limit ≤ t.2.area) ∨ (group ≠ [] ∧ totalArea group < limit)

/-- In a group with a texture that reaches the limit there is nothing else. -/
theorem PageGroup.eq_singleton {limit : Nat} {group : List (Named α)} (h : PageGroup limit group)
    {t : Named α} (ht : t ∈ group) (ha : limit ≤ t.2.area) : group = [t] := by
  rcases h with ⟨s, rfl, -⟩ | ⟨-, hlt⟩
  · obtain rfl := List.mem_singleton.1 ht
    rfl
  · have := area_le_totalArea ht
    omega

/-! ### Pages -/

variable [Scalar α]

/-- A texture as it is packed: made small enough for a page if it reaches the limit alone. -/
def asPacked (size limit : Nat) (t : Texture α) : Texture α :=
  if t.area < limit then t else t.fitWithin size

/-- A texture that fits on a page is packed as it is. -/
theorem asPacked_of_fits {size : Nat} {t : Texture α} (h : t.Fits size) (limit : Nat) :
    asPacked size limit t = t := by
  have hfit : t.fitWithin size = t := by
    rw [Texture.fitWithin]
    exact if_pos h
  rw [asPacked, hfit, ite_self]

/-- A texture as it is packed, under its name. -/
def namedAsPacked (size limit : Nat) (t : Named α) : Named α := (t.1, asPacked size limit t.2)

/-- **What pagination does**: the textures fall into consecutive groups, and each page is a packing
of one group. -/
inductive Paginated (size limit : Nat) : List (Named α) → List (List (Named α × Spot)) → Prop
  | done : Paginated size limit [] []
  | page {group rest : List (Named α)} {placed : List (Named α × Spot)}
      {pages : List (List (Named α × Spot))} :
      PageGroup limit group →
      Shelf.Packed extent size (group.map (namedAsPacked size limit)) placed →
      Paginated size limit rest pages → Paginated size limit (group ++ rest) (placed :: pages)

theorem map_namedAsPacked_of_lt {size limit : Nat} {ts : List (Named α)}
    (h : totalArea ts < limit) : ts.map (namedAsPacked size limit) = ts := by
  have hsame : ∀ t ∈ ts, namedAsPacked size limit t = t := by
    intro t ht
    have hlt : t.2.area < limit := Nat.lt_of_le_of_lt (area_le_totalArea ht) h
    simp [namedAsPacked, asPacked, hlt]
  exact (List.map_congr_left hsame).trans (List.map_id _)

/-- The textures on which one page is tried, cut back to those that it takes. -/
theorem nextGroup_spec {size limit taken : Nat} {first : Named α} {rest : List (Named α)}
    {placed : List (Named α × Spot)}
    (h : cutBack size (nextGroup size limit first rest).1 (nextGroup size limit first rest).2
      = some (taken, placed)) :
    0 < taken ∧ PageGroup limit ((first :: rest).take taken) ∧
      Shelf.Packed extent size (((first :: rest).take taken).map (namedAsPacked size limit))
        placed ∧
      (nextGroup size limit first rest).1.drop taken = (first :: rest).drop taken := by
  simp only [nextGroup] at h ⊢
  cases hn : prefixLength limit 0 (first :: rest) with
  | zero =>
      simp only [hn] at h ⊢
      obtain ⟨hpos, hle, hpack⟩ := cutBack_spec h
      obtain rfl : taken = 1 := by omega
      -- not even the first texture stays below the limit
      have ha : ¬ first.2.area < limit := by
        intro hlt
        simp [prefixLength, hlt] at hn
      refine ⟨hpos, Or.inl ⟨first, rfl, Nat.le_of_not_lt ha⟩, ?_, rfl⟩
      have hfit : namedAsPacked size limit first = (first.1, first.2.fitWithin size) := by
        simp [namedAsPacked, asPacked, ha]
      simpa [hfit] using Shelf.packPage_packed hpack
  | succ n =>
      simp only [hn] at h ⊢
      obtain ⟨hpos, hle, hpack⟩ := cutBack_spec h
      have hlt : totalArea ((first :: rest).take taken) < limit := by
        have := totalArea_take_lt hpos (hn ▸ hle)
        omega
      refine ⟨hpos, Or.inr ⟨?_, hlt⟩, ?_, trivial⟩
      · obtain ⟨k, rfl⟩ : ∃ k, taken = k + 1 := ⟨taken - 1, by omega⟩
        simp
      · rw [map_namedAsPacked_of_lt hlt]
        exact Shelf.packPage_packed hpack

theorem paginate_spec {size limit fuel : Nat} :
    ∀ {ts : List (Named α)} {pages : List (List (Named α × Spot))}, ts.length ≤ fuel →
      paginate size limit fuel ts = .ok pages → Paginated size limit ts pages := by
  induction fuel with
  | zero =>
      intro ts pages hlen h
      obtain rfl := List.length_eq_zero_iff.1 (Nat.le_zero.1 hlen)
      cases h
      exact .done
  | succ fuel ih =>
      intro ts pages hlen h
      cases ts with
      | nil =>
          cases h
          exact .done
      | cons first rest =>
          simp only [paginate] at h
          split at h
          · cases h
          · rename_i taken placed hcut
            obtain ⟨hpos, hgroup, hpacked, hdrop⟩ := nextGroup_spec hcut
            rw [hdrop] at h
            cases hrest : paginate size limit fuel ((first :: rest).drop taken) with
            | error e =>
                rw [hrest] at h
                cases h
            | ok later =>
                rw [hrest] at h
                cases h
                have hlater := ih (by simp at hlen ⊢; omega) hrest
                have hall := Paginated.page hgroup hpacked hlater
                rwa [List.take_append_drop] at hall

namespace Paginated

variable {size limit : Nat} {ts : List (Named α)} {pages : List (List (Named α × Spot))}

/-- Every page is a packing of a group of the textures. -/
theorem exists_group (h : Paginated size limit ts pages) {placed : List (Named α × Spot)}
    (hp : placed ∈ pages) :
    ∃ group, group ⊆ ts ∧ PageGroup limit group ∧
      Shelf.Packed extent size (group.map (namedAsPacked size limit)) placed := by
  induction h with
  | done => cases hp
  | @page group rest placed' pages hgroup hpacked _ ih =>
      rcases List.mem_cons.1 hp with rfl | hp
      · exact ⟨group, List.subset_append_left _ _, hgroup, hpacked⟩
      · obtain ⟨group', hsub, hg, hpk⟩ := ih hp
        exact ⟨group', List.subset_append_of_subset_right _ hsub, hg, hpk⟩

/-- All textures have a place, and only one. -/
theorem perm (h : Paginated size limit ts pages) :
    (pages.flatten.map Prod.fst).Perm (ts.map (namedAsPacked size limit)) := by
  induction h with
  | done => exact .refl _
  | page _ hpacked _ ih =>
      rw [List.flatten_cons, List.map_append, List.map_append]
      exact hpacked.perm.append ih

end Paginated

/-! ### When pagination gives up -/

omit [Scalar α] in
/-- A page takes at least its first texture if that one fits. -/
theorem exists_cutBack {size n : Nat} {first : Named α} {rest : List (Named α)} (hn : 0 < n)
    (h : first.2.Fits size) : ∃ out, cutBack size (first :: rest) n = some out := by
  induction n with
  | zero => exact absurd hn (Nat.lt_irrefl 0)
  | succ n ih =>
      simp only [cutBack]
      cases hpack : Shelf.packPage extent size ((first :: rest).take (n + 1)) with
      | some placed => exact ⟨_, rfl⟩
      | none =>
          refine ih (Nat.pos_of_ne_zero fun hz => ?_)
          subst hz
          obtain ⟨placed, hp⟩ : ∃ placed, Shelf.packPage extent size [first] = some placed :=
            Shelf.exists_packPage_singleton h.1 h.2
          rw [List.take_succ_cons, List.take_zero, hp] at hpack
          cases hpack

/-- The first texture on which a page is tried is packed, and there is at least one. -/
theorem nextGroup_head (size limit : Nat) (first : Named α) (rest : List (Named α)) :
    (nextGroup size limit first rest).1 = namedAsPacked size limit first :: rest ∧
      0 < (nextGroup size limit first rest).2 := by
  by_cases hlt : first.2.area < limit
  · have hn : prefixLength limit 0 (first :: rest) = prefixLength limit first.2.area rest + 1 := by
      simp [prefixLength, hlt]
    simp [nextGroup, hn, namedAsPacked, asPacked, hlt]
  · have hn : prefixLength limit 0 (first :: rest) = 0 := by simp [prefixLength, hlt]
    simp [nextGroup, hn, namedAsPacked, asPacked, hlt]

/-- **Pagination gives up only because of a texture that does not fit on a page as it is packed**,
and says which one. -/
theorem paginate_error {size limit fuel : Nat} :
    ∀ {ts : List (Named α)} {e : AtlasFault}, paginate size limit fuel ts = .error e →
      ∃ t ∈ ts, e = .noRoom t.1 size ∧ ¬ (asPacked size limit t.2).Fits size := by
  induction fuel with
  | zero =>
      intro ts e h
      cases h
  | succ fuel ih =>
      intro ts e h
      cases ts with
      | nil => cases h
      | cons first rest =>
          obtain ⟨hhead, hpos⟩ := nextGroup_head size limit first rest
          simp only [paginate] at h
          split at h
          · rename_i hcut
            refine ⟨first, List.mem_cons_self .., (Except.error.inj h).symm, fun hfit => ?_⟩
            obtain ⟨out, hout⟩ : ∃ out, cutBack size (namedAsPacked size limit first :: rest)
                (nextGroup size limit first rest).2 = some out := exists_cutBack hpos hfit
            rw [hhead, hout] at hcut
            cases hcut
          · rename_i taken placed hcut
            rw [(nextGroup_spec hcut).2.2.2] at h
            cases hrest : paginate size limit fuel ((first :: rest).drop taken) with
            | ok later =>
                rw [hrest] at h
                cases h
            | error e' =>
                rw [hrest] at h
                obtain ⟨t, ht, he, hfit⟩ := ih hrest
                exact ⟨t, List.mem_of_mem_drop ht, (Except.error.inj h).symm.trans he, hfit⟩

/-- What has a place fits on a page. -/
theorem Paginated.fits {size limit : Nat} {ts : List (Named α)}
    {pages : List (List (Named α × Spot))} (h : Paginated size limit ts pages) {t : Named α}
    (ht : t ∈ ts) : (asPacked size limit t.2).Fits size := by
  obtain ⟨p, hp, heq⟩ := List.mem_map.1 (h.perm.mem_iff.2 (List.mem_map_of_mem ht))
  obtain ⟨placed, hplaced, hmem⟩ := List.mem_flatten.1 hp
  obtain ⟨group, -, -, hpacked⟩ := h.exists_group hplaced
  have hwithin := hpacked.within p hmem
  have himage : p.1.2 = asPacked size limit t.2 := congrArg Prod.snd heq
  rw [← himage]
  exact ⟨Nat.le_trans (Nat.le_add_left _ _) hwithin.1,
    Nat.le_trans (Nat.le_add_left _ _) hwithin.2⟩

/-! ### Drawing pages -/

section Drawing

variable {size : Nat} {placed : List (Named α × Spot)}

/-- The rectangle of a placed texture. -/
abbrev rect (p : Named α × Spot) : Rect Nat := Shelf.region extent p

omit [Scalar α] in
theorem size_foldl_paste (placed : List (Named α × Spot)) (base : Raster) :
    (placed.foldl (fun image p => image.paste p.1.2.image p.2.x p.2.y) base).width = base.width ∧
      (placed.foldl (fun image p => image.paste p.1.2.image p.2.x p.2.y) base).height
        = base.height := by
  induction placed generalizing base with
  | nil => exact ⟨rfl, rfl⟩
  | cons p placed ih => exact ih (base.paste p.1.2.image p.2.x p.2.y)

omit [Scalar α] in
/-- Texels that no texture covers stay as they are. -/
theorem texel_foldl_paste {x y : Nat} (h : ∀ p ∈ placed, ¬ (rect p).Covers x y) (base : Raster) :
    (placed.foldl (fun image p => image.paste p.1.2.image p.2.x p.2.y) base).texel x y
      = base.texel x y := by
  induction placed generalizing base with
  | nil => rfl
  | cons p placed ih =>
      rw [List.foldl_cons, ih (fun q hq => h q (List.mem_cons_of_mem _ hq)),
        Raster.texel_paste_of_not_covers rfl (h p (List.mem_cons_self ..))]

omit [Scalar α] in
/-- **Drawing keeps every texture of a packing**, texel by texel. -/
theorem texel_drawPage {ts : List (Named α)} (h : Shelf.Packed extent size ts placed)
    {p : Named α × Spot} (hp : p ∈ placed) {x y : Nat} (hx : x < p.1.2.image.width)
    (hy : y < p.1.2.image.height) :
    (drawPage size placed).texel (p.2.x + x) (p.2.y + y) = p.1.2.image.texel x y := by
  obtain ⟨earlier, later, rfl⟩ := List.append_of_mem hp
  have hcovers : (rect p).Covers (p.2.x + x) (p.2.y + y) :=
    ⟨Nat.le_add_right _ _, Nat.add_lt_add_left hx _, Nat.le_add_right _ _,
      Nat.add_lt_add_left hy _⟩
  -- what is drawn later lies elsewhere
  have hlater : ∀ q ∈ later, ¬ (rect q).Covers (p.2.x + x) (p.2.y + y) := by
    intro q hq
    have hbefore := (List.pairwise_append.1 h.before).2.1
    exact ((List.pairwise_cons.1 hbefore).1 q hq).disjoint _ _ hcovers
  have hwithin := h.within p hp
  obtain ⟨hw, hh⟩ := size_foldl_paste earlier (Raster.clear size size)
  have hx' : p.2.x + x < size := Nat.lt_of_lt_of_le hcovers.2.1 hwithin.1
  have hy' : p.2.y + y < size := Nat.lt_of_lt_of_le hcovers.2.2.2 hwithin.2
  rw [drawPage, List.foldl_append, List.foldl_cons, texel_foldl_paste hlater,
    Raster.texel_paste_of_covers rfl (hw.symm ▸ hx') (hh.symm ▸ hy') hcovers,
    Nat.add_sub_cancel_left, Nat.add_sub_cancel_left]

end Drawing

/-! ### The table of entries -/

section Entries

variable {size mipLevels : Nat} {pages : List (List (Named α × Spot))}

/-- The entry under a name is that of a texture placed on one of the pages. -/
def EntryOf (size : Nat) (pages : List (List (Named α × Spot))) (id : Identifier) (e : Entry α)
    (p : Named α × Spot) : Prop :=
  ∃ n placed, pages[n]? = some placed ∧ p ∈ placed ∧ p.1.1 = id ∧ e = entryOf size n p

/-- All entries, page by page. -/
def entryList (size : Nat) (pages : List (List (Named α × Spot))) :
    List (Identifier × Entry α) :=
  pages.zipIdx.flatMap fun page => page.1.map fun p => (p.1.1, entryOf size page.2 p)

theorem map_fst_entryList :
    (entryList size pages).map Prod.fst = (pages.flatten.map Prod.fst).map Prod.fst := by
  have hpage : ∀ page : List (Named α × Spot) × Nat,
      (page.1.map fun p => (p.1.1, entryOf (α := α) size page.2 p)).map Prod.fst
        = page.1.map fun p => p.1.1 := by
    intro page
    simp [Function.comp_def]
  calc (entryList size pages).map Prod.fst
      = pages.zipIdx.flatMap fun page => page.1.map fun p => p.1.1 := by
        rw [entryList, List.map_flatMap]
        simp only [hpage]
    _ = (pages.zipIdx.map Prod.fst).flatMap fun placed => placed.map fun p => p.1.1 := by
        rw [List.flatMap_map]
    _ = (pages.flatten.map Prod.fst).map Prod.fst := by
        rw [List.zipIdx_map_fst, List.map_map, List.map_flatten, List.flatMap_def]
        rfl

theorem mem_entryList {id : Identifier} {e : Entry α} :
    (id, e) ∈ entryList size pages ↔ ∃ p, EntryOf size pages id e p := by
  simp only [entryList, List.mem_flatMap, List.mem_map, Prod.mk.injEq, EntryOf]
  constructor
  · rintro ⟨⟨placed, n⟩, hpage, p, hp, hid, he⟩
    exact ⟨p, n, placed, List.mem_zipIdx_iff_getElem?.1 hpage, hp, hid, he.symm⟩
  · rintro ⟨p, n, placed, hpage, hp, hid, he⟩
    exact ⟨(placed, n), List.mem_zipIdx_iff_getElem?.2 hpage, p, hp, hid, he.symm⟩

/-- What has an entry on a page is placed with everything else that has one. -/
theorem EntryOf.exists_placed {id : Identifier} {e : Entry α} {p : Named α × Spot}
    (h : EntryOf size pages id e p) :
    ∃ placed ∈ pages, p ∈ placed ∧ ∀ id' e' p', EntryOf size pages id' e' p' →
      e'.page = e.page → p' ∈ placed := by
  obtain ⟨n, placed, hn, hmem, rfl, rfl⟩ := h
  refine ⟨placed, List.mem_of_getElem? hn, hmem, ?_⟩
  rintro id' e' p' ⟨n', placed', hn', hmem', rfl, rfl⟩ hpage
  obtain rfl : n' = n := hpage
  obtain rfl : placed' = placed := Option.some.inj (hn'.symm.trans hn)
  exact hmem'

theorem EntryOf.name_eq {id : Identifier} {e : Entry α} {p : Named α × Spot}
    (h : EntryOf size pages id e p) : p.1.1 = id := by
  obtain ⟨-, -, -, -, hid, -⟩ := h
  exact hid

end Entries

end AtlasBuilder

/-! ### What an atlas owes to a texture -/

section Holding

variable {α : Type} [Scalar α]

/-- A rectangle counted in texels, in units of a page with the given edge. -/
def Rect.scaled (r : Rect Nat) (edge : Nat) : Rect α where
  x := (r.x : α) / (edge : α)
  y := (r.y : α) / (edge : α)
  width := (r.width : α) / (edge : α)
  height := (r.height : α) / (edge : α)

/-- **How an atlas holds a texture**: its entry names one of the pages and a rectangle inside it,
and in this rectangle the page shows the texture, texel by texel. -/
structure Atlas.Holds (a : Atlas α) (t : Texture α) (e : Entry α) (r : Rect Nat) : Prop where
  width_eq : r.width = t.image.width
  height_eq : r.height = t.image.height
  bounds_eq : e.bounds = r.scaled a.size
  animation_eq : e.animation = t.animation
  within : r.Within a.size
  texels : ∃ page, a.pages[e.page]? = some page ∧ page.image.width = a.size ∧
    page.image.height = a.size ∧ ∀ x y, x < r.width → y < r.height →
      page.image.texel (r.x + x) (r.y + y) = t.image.texel x y

end Holding

namespace AtlasBuilder

variable {α : Type}

/-! ### The textures of a builder -/

/-- A builder to which some textures were added one after another. -/
def ofTextures (size : Nat) (fill : Float32) (mipLevels : Nat) (added : List (Named α)) :
    AtlasBuilder α :=
  added.foldl (fun b t => b.add t.1 t.2) (start size fill mipLevels)

/-- The texture last added under a name, where the reserved textures were added first. -/
def lastAdded (added : List (Named α)) (id : Identifier) : Option (Texture α) :=
  (reserved ++ added).reverse.lookup id

theorem ofTextures_eq (size : Nat) (fill : Float32) (mipLevels : Nat) (added : List (Named α)) :
    ofTextures size fill mipLevels added
      = { start (α := α) size fill mipLevels with
          textures := Table.ofList (reserved ++ added) } := by
  have grow : ∀ (added : List (Named α)) (b : AtlasBuilder α),
      added.foldl (fun b t => b.add t.1 t.2) b
        = { b with textures := added.foldl (fun s t => s.insert t.1 t.2) b.textures } := by
    intro added
    induction added with
    | nil => intro b; rfl
    | cons t added ih => intro b; exact ih (b.add t.1 t.2)
  simp only [ofTextures, grow, Table.ofList, List.foldl_append]
  rfl

section Building

variable [Scalar α] {size limit mipLevels : Nat} {pages : List (List (Named α × Spot))}
  {textures : Table Identifier (Texture α)}

/-- Pages of the textures of a table name each texture once. -/
theorem nodup_entryList (h : Paginated size limit textures.entries pages) :
    ((entryList size pages).map Prod.fst).Nodup := by
  rw [map_fst_entryList, (h.perm.map Prod.fst).nodup_iff, List.map_map]
  exact textures.nodup_keys

/-- A name has one place. -/
theorem EntryOf.unique (h : Paginated size limit textures.entries pages) {id : Identifier}
    {e e' : Entry α} {p p' : Named α × Spot} (hp : EntryOf size pages id e p)
    (hp' : EntryOf size pages id e' p') : p' = p := by
  have hnodup : (pages.flatten.map fun p => p.1.1).Nodup := by
    have hnames := nodup_entryList h
    rwa [map_fst_entryList, List.map_map] at hnames
  obtain ⟨n, placed, hn, hmem, hname, -⟩ := hp
  obtain ⟨n', placed', hn', hmem', hname', -⟩ := hp'
  exact List.inj_on_of_nodup_map hnodup
    (List.mem_flatten_of_mem (List.mem_of_getElem? hn') hmem')
    (List.mem_flatten_of_mem (List.mem_of_getElem? hn) hmem) (hname'.trans hname.symm)

/-- Every name has a rectangle of its own. -/
theorem exists_places (h : Paginated size limit textures.entries pages) :
    ∃ place : Identifier → Rect Nat, ∀ id (e : Entry α) p, EntryOf size pages id e p →
      place id = rect p := by
  have hplace : ∀ id, ∃ r : Rect Nat, ∀ (e : Entry α) p, EntryOf size pages id e p →
      r = rect p := by
    intro id
    by_cases hex : ∃ (e : Entry α) (p : Named α × Spot), EntryOf size pages id e p
    · obtain ⟨e, p, hp⟩ := hex
      exact ⟨rect p, fun e' p' hp' => by rw [EntryOf.unique h hp hp']⟩
    · exact ⟨⟨0, 0, 0, 0⟩, fun e p hp => absurd ⟨e, p, hp⟩ hex⟩
  choose place hplace using hplace
  exact ⟨place, hplace⟩

/-- A placed texture is the texture of its name, made smaller if it had to be; in that case nothing
else is on its page. -/
theorem exists_texture (h : Paginated size limit textures.entries pages) {id : Identifier}
    {e : Entry α} {p : Named α × Spot} (hp : EntryOf size pages id e p) :
    ∃ t, textures.get? id = some t ∧ p.1.2 = asPacked size limit t ∧
      (limit ≤ t.area → ∀ id' e' p', EntryOf size pages id' e' p' → e'.page = e.page →
        id' = id) := by
  obtain ⟨placed, hplaced, hmem, hsame⟩ := hp.exists_placed
  obtain ⟨group, hsub, hgroup, hpacked⟩ := h.exists_group hplaced
  obtain ⟨t, ht, heq⟩ := List.mem_map.1 (hpacked.perm.mem_iff.1 (List.mem_map_of_mem hmem))
  have hname : t.1 = id := (congrArg Prod.fst heq).trans hp.name_eq
  refine ⟨t.2, Table.get?_eq_some_iff.2 (hname ▸ hsub ht), (congrArg Prod.snd heq).symm, ?_⟩
  intro ha id' e' p' hp' hpage
  -- the group is this texture alone
  have hlen := hpacked.perm.length_eq
  rw [hgroup.eq_singleton ht ha, List.length_map, List.length_map, List.length_singleton] at hlen
  obtain ⟨q, rfl⟩ := List.length_eq_one_iff.1 hlen
  rw [← hp'.name_eq, ← hp.name_eq, List.mem_singleton.1 (hsame id' e' p' hp' hpage),
    List.mem_singleton.1 hmem]

variable [Gamma α]

theorem get?_assemble (h : Paginated size limit textures.entries pages) {id : Identifier}
    {e : Entry α} :
    (assemble size mipLevels pages).entries.get? id = some e ↔
      ∃ p, EntryOf size pages id e p := by
  have hentries : (assemble size mipLevels pages).entries.entries = entryList size pages :=
    Table.entries_ofList (nodup_entryList h)
  rw [Table.get?_eq_some_iff, hentries, mem_entryList]

theorem mem_keys_assemble (h : Paginated size limit textures.entries pages) {id : Identifier} :
    id ∈ (assemble size mipLevels pages).entries.keys ↔ id ∈ textures.keys := by
  have hkeys : (assemble size mipLevels pages).entries.keys
      = (entryList size pages).map Prod.fst := by
    rw [Table.keys]
    exact congrArg (List.map Prod.fst) (Table.entries_ofList (nodup_entryList h))
  rw [hkeys, map_fst_entryList, (h.perm.map Prod.fst).mem_iff, List.map_map]
  exact Iff.rfl

/-- The atlas holds every placed texture in the rectangle where it was placed. -/
theorem holds_assemble (h : Paginated size limit textures.entries pages) {id : Identifier}
    {e : Entry α} {p : Named α × Spot} (hp : EntryOf size pages id e p) :
    (assemble size mipLevels pages).Holds p.1.2 e (rect p) := by
  obtain ⟨n, placed, hpage, hmem, rfl, rfl⟩ := hp
  obtain ⟨group, -, -, hpacked⟩ := h.exists_group (List.mem_of_getElem? hpage)
  refine ⟨rfl, rfl, rfl, rfl, hpacked.within p hmem, ?_⟩
  refine ⟨⟨drawPage size placed, Mip.chain α mipLevels (drawPage size placed)⟩, ?_, ?_, ?_, ?_⟩
  · simp [assemble, entryOf, hpage]
  · exact (size_foldl_paste placed _).1
  · exact (size_foldl_paste placed _).2
  · intro x y hx hy
    exact texel_drawPage hpacked hmem hx hy

omit [Gamma α] in
/-- Two textures on one page lie apart from each other. -/
theorem disjoint_of_page_eq (h : Paginated size limit textures.entries pages)
    {id id' : Identifier} {e e' : Entry α} {p p' : Named α × Spot}
    (hp : EntryOf size pages id e p) (hp' : EntryOf size pages id' e' p')
    (hpage : e'.page = e.page) (hne : id' ≠ id) : (rect p).Disjoint (rect p') := by
  obtain ⟨placed, hplaced, hmem, hsame⟩ := hp.exists_placed
  obtain ⟨group, -, -, hpacked⟩ := h.exists_group hplaced
  refine hpacked.disjoint hmem (hsame id' e' p' hp' hpage) fun heq => hne ?_
  rw [← hp'.name_eq, ← hp.name_eq, heq]

/-- A build distributes the textures on pages and draws these. -/
theorem build_eq_ok_iff {size : Nat} {fill : Float32} {added : List (Named α)} {atlas : Atlas α} :
    (ofTextures size fill mipLevels added).build = .ok atlas ↔
      ∃ pages, paginate (max 1 size) (areaLimit (max 1 size) fill)
          (Table.ofList (reserved ++ added)).entries.length
          (Table.ofList (reserved ++ added)).entries = .ok pages ∧
        assemble (max 1 size) mipLevels pages = atlas := by
  rw [ofTextures_eq, build]
  simp only [start, Table.size]
  cases paginate (max 1 size) (areaLimit (max 1 size) fill)
      (Table.ofList (reserved ++ added)).entries.length
      (Table.ofList (reserved ++ added)).entries with
  | error e => simp [Except.map]
  | ok pages => simp [Except.map]

/-- **What a build comes to**: an atlas of all textures, or a texture that does not fit on a page
even as it is packed. -/
theorem build_cases (size : Nat) (fill : Float32) (mipLevels : Nat) (added : List (Named α)) :
    (∃ pages, Paginated (max 1 size) (areaLimit (max 1 size) fill)
        (Table.ofList (reserved ++ added)).entries pages ∧
      (ofTextures size fill mipLevels added).build
        = .ok (assemble (max 1 size) mipLevels pages)) ∨
    ∃ id t, lastAdded added id = some t ∧
      ¬ (asPacked (max 1 size) (areaLimit (max 1 size) fill) t).Fits (max 1 size) ∧
      (ofTextures size fill mipLevels added).build = .error (.noRoom id (max 1 size)) := by
  rw [ofTextures_eq, build]
  cases hp : paginate (max 1 size) (areaLimit (max 1 size) fill)
      (Table.ofList (reserved ++ added)).size (Table.ofList (reserved ++ added)).entries with
  | ok pages =>
      refine Or.inl ⟨pages, paginate_spec (Nat.le_refl _) hp, ?_⟩
      simp only [start, hp]
      rfl
  | error e =>
      obtain ⟨t, ht, rfl, hfit⟩ := paginate_error hp
      refine Or.inr ⟨t.1, t.2, ?_, hfit, ?_⟩
      · rw [lastAdded, ← Table.get?_ofList]
        exact Table.get?_eq_some_iff.2 ht
      · simp only [start, hp]
        rfl

/-- A built atlas has entries for the reserved textures and the added ones and for nothing else. -/
theorem mem_keys_build {size : Nat} {fill : Float32} {mipLevels : Nat} {added : List (Named α)}
    {atlas : Atlas α} (h : (ofTextures size fill mipLevels added).build = .ok atlas)
    {id : Identifier} :
    id ∈ atlas.entries.keys ↔ id ∈ (reserved (α := α)).map Prod.fst ∨ id ∈ added.map Prod.fst := by
  obtain ⟨pages, hpages, hbuild⟩ | ⟨id', t, -, -, hbuild⟩ := build_cases size fill mipLevels added
  · rw [hbuild] at h
    cases h
    rw [mem_keys_assemble hpages, Table.mem_keys_ofList, List.map_append, List.mem_append]
  · rw [hbuild] at h
    cases h

/-- A built atlas holds the texture of each of its names. -/
theorem exists_holds {size : Nat} {fill : Float32} {mipLevels : Nat} {added : List (Named α)}
    {atlas : Atlas α} (h : (ofTextures size fill mipLevels added).build = .ok atlas)
    {id : Identifier} {e : Entry α} (he : atlas.entries.get? id = some e) :
    0 < atlas.size ∧ ∃ t place, lastAdded added id = some t ∧
      atlas.Holds (asPacked atlas.size (areaLimit atlas.size fill) t) e place := by
  obtain ⟨pages, hpages, hbuild⟩ | ⟨id', t, -, -, hbuild⟩ := build_cases size fill mipLevels added
  · obtain rfl : assemble (max 1 size) mipLevels pages = atlas := by
      rw [hbuild] at h
      exact Except.ok.inj h
    obtain ⟨p, hp⟩ := (get?_assemble hpages).1 he
    obtain ⟨t, ht, hpt, -⟩ := exists_texture hpages hp
    refine ⟨Nat.le_max_left 1 size, t, rect p, ?_, hpt ▸ holds_assemble hpages hp⟩
    rw [lastAdded, ← Table.get?_ofList, ht]
  · rw [hbuild] at h
    cases h

/-- **A built atlas holds each texture that was added, once, apart from all others and texel by
texel.**  It has entries for the reserved textures and the added ones and for nothing else.  Every
texture has a rectangle of its own; it is the one that was last added under its name, made smaller
if it reached the limit of a page, and then it is alone on its page. -/
theorem build_layout (size : Nat) (fill : Float32) (mipLevels : Nat) (added : List (Named α))
    {atlas : Atlas α} (h : (ofTextures size fill mipLevels added).build = .ok atlas) :
    atlas.size = max 1 size ∧
    atlas.entries.keys.Nodup ∧
    (∀ id, id ∈ atlas.entries.keys ↔
      id ∈ [Identifier.blank, Identifier.vacant, Identifier.missing] ∨ id ∈ added.map Prod.fst) ∧
    ∃ place : Identifier → Rect Nat, ∀ id e, atlas.entries.get? id = some e →
      (∃ t, lastAdded added id = some t ∧
        atlas.Holds (asPacked atlas.size (areaLimit atlas.size fill) t) e (place id) ∧
        (areaLimit atlas.size fill ≤ t.area →
          ∀ id' e', atlas.entries.get? id' = some e' → e'.page = e.page → id' = id)) ∧
      ∀ id' e', atlas.entries.get? id' = some e' → e'.page = e.page → id' ≠ id →
        (place id).Disjoint (place id') := by
  obtain ⟨pages, hpages, hbuild⟩ | ⟨id, t, -, -, hbuild⟩ :=
    build_cases size fill mipLevels added
  swap
  · rw [hbuild] at h
    cases h
  obtain rfl : assemble (max 1 size) mipLevels pages = atlas := by
    rw [hbuild] at h
    exact Except.ok.inj h
  obtain ⟨place, hplace⟩ := exists_places hpages
  refine ⟨rfl, Table.nodup_keys _, ?_, place, ?_⟩
  · intro id
    rw [mem_keys_assemble hpages, Table.mem_keys_ofList, List.map_append, List.mem_append]
    exact Iff.rfl
  · intro id e he
    obtain ⟨p, hp⟩ := (get?_assemble hpages).1 he
    rw [hplace id e p hp]
    constructor
    · obtain ⟨t, ht, hpt, halone⟩ := exists_texture hpages hp
      refine ⟨t, ?_, ?_, fun ha id' e' he' hpage => ?_⟩
      · rw [lastAdded, ← Table.get?_ofList, ht]
      · exact hpt ▸ holds_assemble hpages hp
      · obtain ⟨p', hp'⟩ := (get?_assemble hpages).1 he'
        exact halone ha id' e' p' hp' hpage
    · intro id' e' he' hpage hne
      obtain ⟨p', hp'⟩ := (get?_assemble hpages).1 he'
      rw [hplace id' e' p' hp']
      exact disjoint_of_page_eq hpages hp hp' hpage hne

end Building

/-- Some additions: a poster that is wider than a page of 64 texels and reaches its area, and sand,
added twice. -/
def posterTextures : List (Named Float32) :=
  [(⟨"minecraft", "block/sand"⟩, .still (Raster.fill 20 24 ⟨219, 207, 163, 255⟩)),
    (⟨"minecraft", "block/poster"⟩, .still (Raster.fill 96 48 ⟨200, 16, 46, 255⟩)),
    (⟨"minecraft", "block/sand"⟩, .still (Raster.fill 24 20 ⟨219, 207, 163, 255⟩))]

theorem build_layout_poster :
    ∃ atlas : Atlas Float32,
      (ofTextures 64 ((1 : Nat) : Float32) 0 posterTextures).build = .ok atlas ∧
      atlas.entries.keys.Nodup ∧
      ∃ e r t, atlas.entries.get? ⟨"minecraft", "block/poster"⟩ = some e ∧
        lastAdded posterTextures ⟨"minecraft", "block/poster"⟩ = some t ∧
        areaLimit atlas.size ((1 : Nat) : Float32) ≤ t.area ∧
        atlas.Holds (asPacked atlas.size (areaLimit atlas.size ((1 : Nat) : Float32)) t) e r := by
  obtain ⟨pages, -, hbuild⟩ | ⟨id, t, ht, hfit, -⟩ :=
    build_cases 64 ((1 : Nat) : Float32) 0 posterTextures
  · obtain ⟨hsize, hnodup, hkeys, place, hplace⟩ := build_layout 64 _ 0 posterTextures hbuild
    refine ⟨_, hbuild, hnodup, ?_⟩
    have hkey := (hkeys ⟨"minecraft", "block/poster"⟩).2 (Or.inr (by decide))
    obtain ⟨e, he⟩ := Option.isSome_iff_exists.1 (Table.contains_eq_true_iff.2 hkey)
    obtain ⟨⟨t, ht, hholds, -⟩, -⟩ := hplace _ e he
    refine ⟨e, place _, t, he, ht, ?_, hholds⟩
    obtain rfl : _ = t := Option.some.inj ht
    rw [hsize]
    decide +kernel
  · -- every texture fits as it is packed
    exfalso
    have hall : ∀ t ∈ reserved ++ posterTextures, (asPacked (max 1 64)
        (areaLimit (max 1 64) ((1 : Nat) : Float32)) t.2).Fits (max 1 64) := by decide +kernel
    obtain ⟨l₁, l₂, hl, -⟩ := List.lookup_eq_some_iff.1 ht
    exact hfit (hall (id, t) (List.mem_reverse.1 (hl ▸ by simp)))

end AtlasBuilder

end VoxelBake
