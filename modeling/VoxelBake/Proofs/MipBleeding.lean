/-
**Smaller copies of a page do not mix textures.**

Let all textures of an atlas, and its pages, have edges that can be halved `L` times without
remainder.  Then the textures lie at multiples of `2 ^ L`, and a texel of one of the first `L`
levels of a page is computed from a block that lies in one texture as a whole, or in none.  What a
level shows over a texture therefore is the same in any other atlas of textures with the same names
and sizes, whatever the other textures show.

Main definitions:

* `Rect.Contains`, `Rect.Avoids` — a rectangle that covers some texels, or none of them;
* `Mip.ComputedFrom` — the texels that a texel of a level is computed from.

Main results:

* `Rect.Aligned.contains_or_avoids` — a footprint lies in an aligned rectangle or outside of it;
* `AtlasBuilder.mips_never_bleed` — **smaller copies of a page do not mix textures**.
-/
import VoxelBake.Proofs.MipLevels
import VoxelBake.Proofs.PackingBySize

set_option relaxedAutoImplicit false
set_option autoImplicit false

namespace VoxelBake

/-! ### Footprints and rectangles -/

namespace Rect

/-- The rectangle covers all of some texels. -/
def Contains (r : Rect Nat) (places : List (Nat × Nat)) : Prop :=
  ∀ p ∈ places, r.Covers p.1 p.2

/-- The rectangle covers none of some texels. -/
def Avoids (r : Rect Nat) (places : List (Nat × Nat)) : Prop :=
  ∀ p ∈ places, ¬ r.Covers p.1 p.2

theorem Aligned.mono {d d' : Nat} {r : Rect Nat} (h : r.Aligned d) (hd : d' ∣ d) :
    r.Aligned d' :=
  ⟨⟨Nat.dvd_trans hd h.1.1, Nat.dvd_trans hd h.1.2⟩, Nat.dvd_trans hd h.2.1,
    Nat.dvd_trans hd h.2.2⟩

/-- **A footprint lies in an aligned rectangle as a whole, or not at all.** -/
theorem Aligned.contains_or_avoids {r : Rect Nat} {size k x y : Nat} (h : r.Aligned (2 ^ k))
    (hsize : 2 ^ k ∣ size) (hx : x < size / 2 ^ k) (hy : y < size / 2 ^ k) :
    r.Contains (Mip.footprint size size k x y) ∨ r.Avoids (Mip.footprint size size k x y) := by
  -- all texels of the footprint are in the same block as its first one
  have hblock : ∀ p ∈ Mip.footprint size size k x y,
      r.Covers p.1 p.2 ↔ r.Covers (x * 2 ^ k) (y * 2 ^ k) := by
    intro p hp
    obtain ⟨hp1, hp2⟩ := (Mip.mem_footprint_iff hsize hsize hx hy).1 hp
    have hpos := Nat.two_pow_pos k
    exact h.covers_congr hpos (by rw [hp1, Nat.mul_div_cancel _ hpos])
      (by rw [hp2, Nat.mul_div_cancel _ hpos])
  by_cases hc : r.Covers (x * 2 ^ k) (y * 2 ^ k)
  · exact Or.inl fun p hp => (hblock p hp).2 hc
  · exact Or.inr fun p hp hcov => hc ((hblock p hp).1 hcov)

end Rect

/-- A texel of an image that shows level `k` of a page is computed from some texels of the page: a
page of the same size that agrees with it on these has the same texel on its level `k`. -/
def Mip.ComputedFrom (α : Type) [Scalar α] [Gamma α] (page image : Raster) (k x y : Nat)
    (places : List (Nat × Nat)) : Prop :=
  ∀ other : Raster, other.width = page.width → other.height = page.height →
    (∀ p ∈ places, other.texel p.1 p.2 = page.texel p.1 p.2) →
    (Mip.level α k other).texel x y = image.texel x y

namespace AtlasBuilder

variable {α : Type} [Scalar α]

/-! ### Two atlases with the same outlines -/

/-- What has a place in one of two atlases with the same outlines has the same place in the
other. -/
theorem EntryOf.transfer {size : Nat} {pages pages' : List (List (Named α × Spot))}
    (h : pages'.map layout = pages.map layout) {name : Identifier} {e : Entry α}
    {p : Named α × Spot} (hp : EntryOf size pages name e p) :
    ∃ p', EntryOf size pages' name (entryOf size e.page p') p' ∧ rect p' = rect p ∧
      (entryOf size e.page p' : Entry α).bounds = e.bounds := by
  obtain ⟨n, placed, hn, hmem, hname, rfl⟩ := hp
  -- the same page, without its texels
  have hlayout : (pages'.map layout)[n]? = some (layout placed) := by
    rw [h, List.getElem?_map, hn, Option.map_some]
  rw [List.getElem?_map, Option.map_eq_some_iff] at hlayout
  obtain ⟨placed', hn', hplaced⟩ := hlayout
  have hmem' : Prod.map outline id p ∈ layout placed' := by
    rw [hplaced]
    exact List.mem_map_of_mem hmem
  obtain ⟨p', hp', heq⟩ := List.mem_map.1 hmem'
  obtain ⟨⟨hname', hw, hh⟩, hspot⟩ : (p'.1.1 = p.1.1 ∧
      p'.1.2.image.width = p.1.2.image.width ∧ p'.1.2.image.height = p.1.2.image.height) ∧
      p'.2 = p.2 := by
    simpa [Prod.map, outline, extent, Prod.ext_iff] using heq
  refine ⟨p', ⟨n, placed', hn', hp', hname'.trans hname, rfl⟩, ?_, ?_⟩
  · simp only [rect, Shelf.region, Shelf.rectAt, extent, hw, hh, hspot]
  · simp only [entryOf, hw, hh, hspot]

/-! ### Levels of a drawn page -/

section Pages

variable {size limit mipLevels k : Nat} {pages : List (List (Named α × Spot))}
  {placed placed' : List (Named α × Spot)}

omit [Scalar α] in
theorem width_drawPage (size : Nat) (placed : List (Named α × Spot)) :
    (drawPage size placed).width = size :=
  (size_foldl_paste placed _).1

omit [Scalar α] in
theorem height_drawPage (size : Nat) (placed : List (Named α × Spot)) :
    (drawPage size placed).height = size :=
  (size_foldl_paste placed _).2

omit [Scalar α] in
/-- Under a texture of a packing the page shows this texture. -/
theorem texel_drawPage_of_covers {ts : List (Named α)} (h : Shelf.Packed extent size ts placed)
    {p : Named α × Spot} (hp : p ∈ placed) {x y : Nat} (hc : (rect p).Covers x y) :
    (drawPage size placed).texel x y = p.1.2.image.texel (x - (rect p).x) (y - (rect p).y) := by
  obtain ⟨hx, hx', hy, hy'⟩ := hc
  have hpage := texel_drawPage h hp (x := x - (rect p).x) (y := y - (rect p).y)
    (Nat.sub_lt_left_of_lt_add hx hx') (Nat.sub_lt_left_of_lt_add hy hy')
  have hxe : p.2.x + (x - (rect p).x) = x := Nat.add_sub_cancel' hx
  have hye : p.2.y + (y - (rect p).y) = y := Nat.add_sub_cancel' hy
  rwa [hxe, hye] at hpage

omit [Scalar α] in
/-- On a page of aligned textures a footprint lies in one of them, or outside of all of them. -/
theorem footprint_cases {x y : Nat} (h : ∀ p ∈ placed, (rect p).Aligned (2 ^ k))
    (hsize : 2 ^ k ∣ size) (hx : x < size / 2 ^ k) (hy : y < size / 2 ^ k) :
    (∃ p ∈ placed, (rect p).Contains (Mip.footprint size size k x y)) ∨
      ∀ p ∈ placed, (rect p).Avoids (Mip.footprint size size k x y) := by
  by_cases hex : ∃ p ∈ placed, (rect p).Contains (Mip.footprint size size k x y)
  · exact Or.inl hex
  · refine Or.inr fun p hp => ?_
    exact ((h p hp).contains_or_avoids hsize hx hy).resolve_left fun hc => hex ⟨p, hp, hc⟩

variable [Gamma α]

/-- Over a texture that lies in the same place of two pages both have the same levels. -/
theorem texel_level_drawPage {ts ts' : List (Named α)} (h : Shelf.Packed extent size ts placed)
    (h' : Shelf.Packed extent size ts' placed') {p p' : Named α × Spot} (hp : p ∈ placed)
    (hp' : p' ∈ placed') (hrect : rect p' = rect p) (himage : p'.1.2.image = p.1.2.image)
    {x y : Nat} (hc : (rect p).Contains (Mip.footprint size size k x y)) :
    (Mip.level α k (drawPage size placed')).texel x y
      = (Mip.level α k (drawPage size placed)).texel x y := by
  refine Mip.texel_level_congr α (by rw [width_drawPage, width_drawPage])
    (by rw [height_drawPage, height_drawPage]) fun q hq => ?_
  rw [width_drawPage, height_drawPage] at hq
  rw [texel_drawPage_of_covers h' hp' (hrect ▸ hc q hq), texel_drawPage_of_covers h hp (hc q hq),
    hrect, himage]

/-- A texel of a level of a page is computed from its footprint. -/
theorem computedFrom_drawPage (placed : List (Named α × Spot)) (x y : Nat) :
    Mip.ComputedFrom α (drawPage size placed) (Mip.level α k (drawPage size placed)) k x y
      (Mip.footprint size size k x y) := by
  intro other hw hh hsame
  refine Mip.texel_level_congr α hw hh fun p hp => hsame p ?_
  rwa [width_drawPage, height_drawPage] at hp

theorem getElem?_pages_assemble {n : Nat} {page : Page} :
    (assemble size mipLevels pages : Atlas α).pages[n]? = some page ↔
      ∃ placed, pages[n]? = some placed ∧
        page = ⟨drawPage size placed, Mip.chain α mipLevels (drawPage size placed)⟩ := by
  rw [assemble, List.getElem?_map, Option.map_eq_some_iff]
  exact exists_congr fun placed => and_congr_right fun _ => eq_comm

/-- Level `k` of a page whose edge can be halved `k` times without remainder. -/
theorem level?_drawPage (placed : List (Named α × Spot)) (hpos : 0 < size) (hsize : 2 ^ k ∣ size)
    (hk : k ≤ mipLevels) :
    Page.level? ⟨drawPage size placed, Mip.chain α mipLevels (drawPage size placed)⟩ k
      = some (Mip.level α k (drawPage size placed)) :=
  Mip.getElem?_levels α (by rwa [width_drawPage]) (by rwa [width_drawPage]) hk

theorem level?_assemble {n : Nat} (hn : pages[n]? = some placed) (hpos : 0 < size)
    (hsize : 2 ^ k ∣ size) (hk : k ≤ mipLevels) :
    (assemble size mipLevels pages : Atlas α).level? n k
      = some (Mip.level α k (drawPage size placed)) := by
  rw [Atlas.level?, getElem?_pages_assemble.2 ⟨placed, hn, rfl⟩, Option.bind_some,
    level?_drawPage placed hpos hsize hk]

/-- The edges of a level of a page. -/
theorem size_level_drawPage (placed : List (Named α × Spot)) (hpos : 0 < size)
    (hsize : 2 ^ k ∣ size) :
    (Mip.level α k (drawPage size placed)).width = size / 2 ^ k ∧
      (Mip.level α k (drawPage size placed)).height = size / 2 ^ k := by
  rw [Mip.width_level, Mip.height_level, width_drawPage, height_drawPage,
    Mip.levelEdge_of_dvd hpos hsize]
  exact ⟨rfl, rfl⟩

end Pages

/-! ### Whole atlases -/

section Building

variable [Gamma α] {mipLevels : Nat}

/-- Textures with the same outlines are built to pages with the same outlines. -/
theorem build_of_outline {size : Nat} {fill : Float32} (mipLevels : Nat)
    {added added' : List (Named α)} (h : added'.map outline = added.map outline)
    {pages : List (List (Named α × Spot))}
    (hpages : paginate (max 1 size) (areaLimit (max 1 size) fill)
      (Table.ofList (reserved ++ added)).entries.length
      (Table.ofList (reserved ++ added)).entries = .ok pages) :
    ∃ pages', Paginated (max 1 size) (areaLimit (max 1 size) fill)
        (Table.ofList (reserved ++ added')).entries pages' ∧
      pages'.map layout = pages.map layout ∧
      (ofTextures size fill mipLevels added').build
        = .ok (assemble (max 1 size) mipLevels pages') := by
  have hentries := outline_entries_ofList h
  have hlength : (Table.ofList (reserved ++ added')).entries.length
      = (Table.ofList (reserved ++ added)).entries.length := by
    simpa using congrArg List.length hentries
  have hlayout : (paginate (max 1 size) (areaLimit (max 1 size) fill)
        (Table.ofList (reserved ++ added')).entries.length
        (Table.ofList (reserved ++ added')).entries).map (List.map layout)
      = (paginate (max 1 size) (areaLimit (max 1 size) fill)
        (Table.ofList (reserved ++ added)).entries.length
        (Table.ofList (reserved ++ added)).entries).map (List.map layout) := by
    rw [hlength]
    exact layout_paginate hentries
  rw [hpages] at hlayout
  cases hpages' : paginate (max 1 size) (areaLimit (max 1 size) fill)
      (Table.ofList (reserved ++ added')).entries.length
      (Table.ofList (reserved ++ added')).entries with
  | error e =>
      rw [hpages'] at hlayout
      cases hlayout
  | ok pages' =>
      rw [hpages'] at hlayout
      exact ⟨pages', paginate_spec (Nat.le_refl _) hpages', Except.ok.inj hlayout,
        build_eq_ok_iff.2 ⟨pages', hpages', rfl⟩⟩

/-- What a texel of a level is computed from lies in one texture of its page or outside of all of
them. -/
theorem footprint_entries {size limit k n x y : Nat} {pages : List (List (Named α × Spot))}
    {textures : Table Identifier (Texture α)} (h : Paginated size limit textures.entries pages)
    {place : Identifier → Rect Nat}
    (hplace : ∀ id (e : Entry α) p, EntryOf size pages id e p → place id = rect p)
    {placed : List (Named α × Spot)} (hn : pages[n]? = some placed)
    (haligned : ∀ p ∈ placed, (rect p).Aligned (2 ^ k)) (hsize : 2 ^ k ∣ size)
    (hx : x < size / 2 ^ k) (hy : y < size / 2 ^ k) :
    (∃ id e, (assemble size mipLevels pages).entries.get? id = some e ∧ e.page = n ∧
        (place id).Contains (Mip.footprint size size k x y)) ∨
      ∀ id e, (assemble size mipLevels pages).entries.get? id = some e → e.page = n →
        (place id).Avoids (Mip.footprint size size k x y) := by
  rcases footprint_cases haligned hsize hx hy with ⟨p, hp, hin⟩ | hout
  · have hentry : EntryOf size pages p.1.1 (entryOf size n p : Entry α) p :=
      ⟨n, placed, hn, hp, rfl, rfl⟩
    refine Or.inl ⟨p.1.1, entryOf size n p, (get?_assemble h).2 ⟨p, hentry⟩, rfl, ?_⟩
    rwa [hplace _ _ p hentry]
  · refine Or.inr fun id e he hpage => ?_
    obtain ⟨p, hp⟩ := (get?_assemble h).1 he
    rw [hplace id e p hp]
    obtain ⟨m, placed', hm, hmem, -, rfl⟩ := hp
    obtain rfl : m = n := hpage
    obtain rfl : placed' = placed := Option.some.inj (hm.symm.trans hn)
    exact hout p hmem

/-- Two atlases with the same outlines have the same levels over a texture that is the same in
both. -/
theorem level_of_layout_eq {size limit k : Nat} {pages pages' : List (List (Named α × Spot))}
    {textures textures' : Table Identifier (Texture α)}
    (h : Paginated size limit textures.entries pages)
    (h' : Paginated size limit textures'.entries pages')
    {id : Identifier} {e e' : Entry α} {p p' : Named α × Spot} (hp : EntryOf size pages id e p)
    (hp' : EntryOf size pages' id e' p') (hpage : e'.page = e.page) (hrect : rect p' = rect p)
    (hsame : textures'.get? id = textures.get? id) (haligned : (rect p).Aligned (2 ^ k))
    (hpos : 0 < size) (hsize : 2 ^ k ∣ size) (hk : k ≤ mipLevels) :
    ∃ image image', (assemble size mipLevels pages : Atlas α).level? e.page k = some image ∧
      (assemble size mipLevels pages' : Atlas α).level? e.page k = some image' ∧
      ∀ x y, x < image.width → y < image.height →
        ¬ (rect p).Avoids (Mip.footprint size size k x y) →
        image'.texel x y = image.texel x y := by
  obtain ⟨t, ht, hpt, -⟩ := exists_texture h hp
  obtain ⟨t', ht', hpt', -⟩ := exists_texture h' hp'
  obtain rfl : t' = t := Option.some.inj (ht'.symm.trans (hsame.trans ht))
  have himage : p'.1.2.image = p.1.2.image := by rw [hpt', hpt]
  obtain ⟨n, placed, hn, hmem, -, rfl⟩ := hp
  obtain ⟨n', placed', hn', hmem', -, rfl⟩ := hp'
  obtain rfl : n' = n := hpage
  obtain ⟨group, -, -, hpacked⟩ := h.exists_group (List.mem_of_getElem? hn)
  obtain ⟨group', -, -, hpacked'⟩ := h'.exists_group (List.mem_of_getElem? hn')
  obtain ⟨hwidth, hheight⟩ := size_level_drawPage (α := α) placed hpos hsize
  refine ⟨_, _, level?_assemble hn hpos hsize hk, level?_assemble hn' hpos hsize hk,
    fun x y hx hy hover => ?_⟩
  rw [hwidth] at hx
  rw [hheight] at hy
  have hin := (haligned.contains_or_avoids hsize hx hy).resolve_right hover
  exact texel_level_drawPage hpacked hpacked' hmem hmem' hrect himage hin

/-- **Smaller copies of a page do not mix textures.**  Let the edges of all textures of a builder be
multiples of `2 ^ L` that fit on a page, and let the edge of a page be a multiple of `2 ^ L`, too.
Then every texel of one of the first `L` levels of a page is computed from texels of the page that
all lie in one texture or all lie outside of every texture.  Textures with the same names and sizes
give an atlas with the same places, and over a texture that is the same in both the levels are the
same, whatever the other textures show. -/
theorem mips_never_bleed (L size : Nat) (fill : Float32) (mipLevels : Nat)
    (added : List (Named α)) (hsize : 2 ^ L ∣ max 1 size)
    (hadded : ∀ id t, lastAdded added id = some t →
      t.Aligned (2 ^ L) ∧ t.Fits (max 1 size))
    {atlas : Atlas α} (h : (ofTextures size fill mipLevels added).build = .ok atlas) :
    ∃ place : Identifier → Rect Nat,
      (∀ id e, atlas.entries.get? id = some e →
        ∃ t, lastAdded added id = some t ∧ atlas.Holds t e (place id)) ∧
      (∀ n page, atlas.pages[n]? = some page → ∀ k ≤ min L mipLevels, ∃ image,
        page.level? k = some image ∧ image.width = atlas.size / 2 ^ k ∧
          image.height = atlas.size / 2 ^ k ∧
          ∀ x y, x < image.width → y < image.height →
            let sources := Mip.footprint atlas.size atlas.size k x y
            Mip.ComputedFrom α page.image image k x y sources ∧
              ((∃ id e, atlas.entries.get? id = some e ∧ e.page = n ∧
                  (place id).Contains sources) ∨
                ∀ id e, atlas.entries.get? id = some e → e.page = n →
                  (place id).Avoids sources)) ∧
      ∀ added' : List (Named α), added'.map outline = added.map outline →
        ∃ atlas', (ofTextures size fill mipLevels added').build = .ok atlas' ∧
          ∀ id e, atlas.entries.get? id = some e → lastAdded added' id = lastAdded added id →
            ∃ e', atlas'.entries.get? id = some e' ∧ e'.page = e.page ∧ e'.bounds = e.bounds ∧
              ∀ k ≤ min L mipLevels, ∃ image image', atlas.level? e.page k = some image ∧
                atlas'.level? e.page k = some image' ∧
                ∀ x y, x < image.width → y < image.height →
                  ¬ (place id).Avoids (Mip.footprint atlas.size atlas.size k x y) →
                  image'.texel x y = image.texel x y := by
  obtain ⟨pages, hpaginate, rfl⟩ := build_eq_ok_iff.1 h
  have hpages := paginate_spec (Nat.le_refl _) hpaginate
  have hpos : 0 < max 1 size := Nat.le_max_left 1 size
  have hdvd : ∀ {k}, k ≤ L → 2 ^ k ∣ max 1 size := fun hk =>
    Nat.dvd_trans (Nat.pow_dvd_pow 2 hk) hsize
  have haligned : ∀ {k}, k ≤ L → ∀ placed ∈ pages, ∀ p ∈ placed, (rect p).Aligned (2 ^ k) := by
    intro k hk placed hplaced p hp
    refine (aligned_rect (fun t ht => ?_) (Nat.le_refl _) hpaginate placed hplaced p hp).mono
      (Nat.pow_dvd_pow 2 hk)
    have hlast : lastAdded added t.1 = some t.2 := by
      rw [lastAdded, ← Table.get?_ofList]
      exact Table.get?_eq_some_iff.2 ht
    obtain ⟨⟨hw, hh⟩, hfits⟩ := hadded t.1 t.2 hlast
    exact ⟨⟨hw.2, hh.2⟩, hfits⟩
  obtain ⟨place, hplace⟩ := exists_places hpages
  refine ⟨place, ?_, ?_, ?_⟩
  · intro id e he
    obtain ⟨p, hp⟩ := (get?_assemble hpages).1 he
    obtain ⟨t, ht, hpt, -⟩ := exists_texture hpages hp
    have hlast : lastAdded added id = some t := by rw [lastAdded, ← Table.get?_ofList, ht]
    rw [asPacked_of_fits (hadded id t hlast).2] at hpt
    rw [hplace id e p hp]
    exact ⟨t, hlast, hpt ▸ holds_assemble hpages hp⟩
  · intro n page hpage k hk
    obtain ⟨placed, hn, rfl⟩ := getElem?_pages_assemble.1 hpage
    obtain ⟨hkL, hkm⟩ := Nat.le_min.1 hk
    obtain ⟨hwidth, hheight⟩ := size_level_drawPage (α := α) placed hpos (hdvd hkL)
    refine ⟨_, level?_drawPage placed hpos (hdvd hkL) hkm, hwidth, hheight, fun x y hx hy => ?_⟩
    exact ⟨computedFrom_drawPage placed x y, footprint_entries hpages hplace hn
      (haligned hkL placed (List.mem_of_getElem? hn)) (hdvd hkL) (hwidth ▸ hx) (hheight ▸ hy)⟩
  · intro added' houtline
    obtain ⟨pages', hpages', hlayout, hbuild⟩ := build_of_outline mipLevels houtline hpaginate
    refine ⟨_, hbuild, fun id e he hsame => ?_⟩
    obtain ⟨p, hp⟩ := (get?_assemble hpages).1 he
    obtain ⟨p', hp', hrect, hbounds⟩ := hp.transfer hlayout
    refine ⟨_, (get?_assemble hpages').2 ⟨p', hp'⟩, rfl, hbounds, fun k hk => ?_⟩
    obtain ⟨hkL, hkm⟩ := Nat.le_min.1 hk
    obtain ⟨placed, hplaced, hmem, -⟩ := hp.exists_placed
    rw [lastAdded, lastAdded, ← Table.get?_ofList, ← Table.get?_ofList] at hsame
    rw [hplace id e p hp]
    exact level_of_layout_eq hpages hpages' hp hp' rfl hrect hsame
      (haligned hkL placed hplaced p hmem) hpos (hdvd hkL) hkm

end Building

/-- Grass on a page with stone of some shade. -/
def groundTextures (shade : UInt8) : List (Named Float32) :=
  [(⟨"minecraft", "block/grass"⟩, .still (Raster.fill 16 16 ⟨124, 189, 107, 255⟩)),
    (⟨"minecraft", "block/stone"⟩, .still (Raster.fill 32 16 ⟨shade, shade, shade, 255⟩))]

theorem mips_never_bleed_ground :
    ∃ atlas atlas' : Atlas Float32,
      (ofTextures 64 ((1 : Nat) : Float32) 3 (groundTextures 128)).build = .ok atlas ∧
      (ofTextures 64 ((1 : Nat) : Float32) 3 (groundTextures 60)).build = .ok atlas' ∧
      ∃ e r, atlas.entries.get? ⟨"minecraft", "block/grass"⟩ = some e ∧
        atlas.Holds (.still (Raster.fill 16 16 ⟨124, 189, 107, 255⟩)) e r ∧
        ∀ k ≤ 3, ∃ image image', atlas.level? e.page k = some image ∧
          atlas'.level? e.page k = some image' ∧
          ∀ x y, x < image.width → y < image.height →
            ¬ r.Avoids (Mip.footprint atlas.size atlas.size k x y) →
            image'.texel x y = image.texel x y := by
  have hall : ∀ t ∈ reserved ++ groundTextures 128, t.2.Aligned (2 ^ 3) ∧ t.2.Fits (max 1 64) := by
    decide +kernel
  have hadded : ∀ id t, lastAdded (groundTextures 128) id = some t →
      t.Aligned (2 ^ 3) ∧ t.Fits (max 1 64) := by
    intro id t ht
    obtain ⟨l₁, l₂, hl, -⟩ := List.lookup_eq_some_iff.1 ht
    exact hall (id, t) (List.mem_reverse.1 (hl ▸ by simp))
  obtain ⟨pages, -, hbuild⟩ | ⟨id, t, ht, hfit, -⟩ :=
    build_cases 64 ((1 : Nat) : Float32) 3 (groundTextures 128)
  · obtain ⟨place, hholds, -, hshade⟩ :=
      mips_never_bleed 3 64 _ 3 (groundTextures 128) (by decide) hadded hbuild
    obtain ⟨atlas', hbuild', hlevels⟩ := hshade (groundTextures 60) (by decide +kernel)
    have hkey := (mem_keys_build hbuild).2
      (Or.inr (by decide : ⟨"minecraft", "block/grass"⟩ ∈ (groundTextures 128).map Prod.fst))
    obtain ⟨e, he⟩ := Option.isSome_iff_exists.1 (Table.contains_eq_true_iff.2 hkey)
    -- the grass is the same, whatever the shade of the stone
    have hgrass : ∀ shade, lastAdded (groundTextures shade) ⟨"minecraft", "block/grass"⟩
        = some (.still (Raster.fill 16 16 ⟨124, 189, 107, 255⟩)) := by
      intro shade
      have hne : ((⟨"minecraft", "block/grass"⟩ : Identifier) == ⟨"minecraft", "block/stone"⟩)
          = false := by decide
      simp [lastAdded, groundTextures, List.lookup_cons, hne]
    obtain ⟨t, ht, hheld⟩ := hholds _ e he
    obtain ⟨e', -, -, -, hsame⟩ := hlevels _ e he ((hgrass 60).trans (hgrass 128).symm)
    obtain rfl : _ = t := Option.some.inj ((hgrass 128).symm.trans ht)
    exact ⟨_, atlas', hbuild, hbuild', e, place _, he, hheld, hsame⟩
  · -- every texture fits
    rw [asPacked_of_fits (hadded id t ht).2] at hfit
    exact absurd (hadded id t ht).2 hfit

end AtlasBuilder

end VoxelBake
