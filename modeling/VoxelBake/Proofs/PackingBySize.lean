/-
**Packing looks at sizes only.**

Where a texture goes is decided by its size and by the sizes of the others; no texel is looked at.
Textures of the same names and sizes are therefore distributed in the same way, whatever they show.
Corners are sums of widths and of heights, so sizes that are multiples of one number only ever give
corners that are multiples of it.

Main definitions:

* `AtlasBuilder.outline`, `AtlasBuilder.layout` — what packing looks at in a texture, and what
  remains of a page without its texels;
* `Rect.Aligned` — a rectangle whose corner and edges are multiples of a number.

Main results:

* `Shelf.packPage_map` — packing commutes with everything that keeps sizes;
* `AtlasBuilder.layout_paginate` — **textures with the same outlines get the same places**;
* `Shelf.packPage_aligned`, `AtlasBuilder.aligned_rect` — **aligned sizes give aligned places**.
-/
import VoxelBake.Proofs.AtlasLayout

set_option relaxedAutoImplicit false
set_option autoImplicit false

namespace VoxelBake

/-! ### Packing and renaming -/

namespace Shelf

section Renaming

variable {ι κ : Type} {size : ι → Extent} {size' : κ → Extent} {f : ι → κ}

theorem putAll_map (h : ∀ i, size' (f i) = size i) (edge : Nat) (items : List ι) :
    ∀ c : Cursor, (putAll size edge c items).map (List.map (Prod.map f id))
      = putAll size' edge c (items.map f) := by
  induction items with
  | nil => intro c; rfl
  | cons i rest ih =>
      intro c
      simp only [putAll, List.map_cons, h]
      cases put edge c (size i) with
      | none => rfl
      | some out =>
          obtain ⟨spot, c'⟩ := out
          simp only [Option.bind_eq_bind, Option.bind_some, ← ih c']
          cases putAll size edge c' rest <;> rfl

theorem pack_map (h : ∀ i, size' (f i) = size i) (edge : Nat) (items : List ι) :
    (pack size edge items).map (List.map (Prod.map f id)) = pack size' edge (items.map f) := by
  have hsort : (tallestFirst size items).map f = tallestFirst size' (items.map f) :=
    List.map_mergeSort fun a _ b _ => by rw [h, h]
  rw [pack, pack, putAll_map h, hsort]

/-- **Packing commutes with everything that keeps sizes.** -/
theorem packPage_map (h : ∀ i, size' (f i) = size i) (limit : Nat) (items : List ι) :
    (packPage size limit items).map (List.map (Prod.map f id))
      = packPage size' limit (items.map f) := by
  have harea : (items.map f).map (fun k => (size' k).area) = items.map fun i => (size i).area := by
    simp [h]
  simp only [packPage, harea, List.map_findSome?]
  congr 1
  funext edge
  exact pack_map h edge items

end Renaming

end Shelf

/-! ### Places that are multiples -/

/-- A size whose edges are multiples of a number. -/
def Extent.Aligned (d : Nat) (e : Extent) : Prop := d ∣ e.width ∧ d ∣ e.height

/-- A rectangle whose corner and edges are multiples of a number. -/
def Rect.Aligned (d : Nat) (r : Rect Nat) : Prop :=
  (d ∣ r.x ∧ d ∣ r.y) ∧ d ∣ r.width ∧ d ∣ r.height

/-- A texture whose edges are multiples of a number, and not zero. -/
def Texture.Aligned {α : Type} (d : Nat) (t : Texture α) : Prop :=
  (0 < t.image.width ∧ d ∣ t.image.width) ∧ 0 < t.image.height ∧ d ∣ t.image.height

instance {α : Type} (d : Nat) (t : Texture α) : Decidable (t.Aligned d) :=
  inferInstanceAs (Decidable ((_ ∧ _) ∧ _ ∧ _))

/-- An aligned rectangle covers a block as a whole or not at all. -/
theorem Rect.Aligned.covers_congr {d : Nat} {r : Rect Nat} (h : r.Aligned d) (hd : 0 < d)
    {x y x' y' : Nat} (hx : x / d = x' / d) (hy : y / d = y' / d) :
    r.Covers x y ↔ r.Covers x' y' := by
  obtain ⟨⟨⟨a, ha⟩, b, hb⟩, ⟨v, hv⟩, w, hw⟩ := h
  -- a multiple of `d` is compared with a number as its quotient is with that of the number
  have hle : ∀ m n, d * m ≤ n ↔ m ≤ n / d := fun m n => by
    rw [Nat.le_div_iff_mul_le hd, Nat.mul_comm]
  have hlt : ∀ m n, n < d * m ↔ n / d < m := fun m n => by
    rw [Nat.div_lt_iff_lt_mul hd, Nat.mul_comm]
  simp only [Covers, ha, hb, hv, hw, ← Nat.mul_add, hle, hlt, hx, hy]

namespace Shelf

/-- A cursor whose column, row and height are multiples of a number. -/
def Cursor.Aligned (d : Nat) (c : Cursor) : Prop := d ∣ c.x ∧ d ∣ c.y ∧ d ∣ c.height

theorem Cursor.Aligned.start (d : Nat) : Cursor.start.Aligned d :=
  ⟨Nat.dvd_zero d, Nat.dvd_zero d, Nat.dvd_zero d⟩

theorem Cursor.Aligned.makeRoom {d : Nat} {c : Cursor} (h : c.Aligned d) (edge width : Nat) :
    (c.makeRoom edge width).Aligned d := by
  rw [Cursor.makeRoom]
  split
  · exact ⟨Nat.dvd_zero d, Nat.dvd_add h.2.1 h.2.2, Nat.dvd_zero d⟩
  · exact h

/-- One step keeps the cursor aligned, and puts an aligned rectangle on an aligned place. -/
theorem put_aligned {d edge : Nat} {c c' : Cursor} {e : Extent} {spot : Spot}
    (hc : c.Aligned d) (he : e.Aligned d) (h : put edge c e = some (spot, c')) :
    (rectAt e spot).Aligned d ∧ c'.Aligned d := by
  have hroom := hc.makeRoom edge e.width
  simp only [put] at h
  split at h
  · cases h
  · simp only [Option.some.injEq, Prod.mk.injEq] at h
    obtain ⟨rfl, rfl⟩ := h
    refine ⟨⟨⟨hroom.1, hroom.2.1⟩, he⟩, Nat.dvd_add hroom.1 he.1, hroom.2.1, ?_⟩
    rcases Nat.le_total (c.makeRoom edge e.width).height e.height with hle | hle
    · rw [Nat.max_eq_right hle]
      exact he.2
    · rw [Nat.max_eq_left hle]
      exact hroom.2.2

section Packing

variable {ι : Type} {size : ι → Extent} {d : Nat} {items : List ι}

theorem putAll_aligned {edge : Nat} (hitems : ∀ i ∈ items, (size i).Aligned d) :
    ∀ {c : Cursor} {placed : List (ι × Spot)}, c.Aligned d →
      putAll size edge c items = some placed → ∀ p ∈ placed, (region size p).Aligned d := by
  induction items with
  | nil =>
      intro c placed _ h
      obtain rfl := Option.some.inj h
      intro p hp
      cases hp
  | cons i rest ih =>
      intro c placed hc h
      simp only [putAll, Option.bind_eq_bind, Option.bind_eq_some_iff, Option.some.injEq] at h
      obtain ⟨⟨spot, c'⟩, hput, others, hothers, rfl⟩ := h
      obtain ⟨hrect, hc'⟩ := put_aligned hc (hitems i (List.mem_cons_self ..)) hput
      intro p hp
      rcases List.mem_cons.1 hp with rfl | hp
      · exact hrect
      · exact ih (fun j hj => hitems j (List.mem_cons_of_mem _ hj)) hc' hothers p hp

/-- **Aligned sizes give aligned places.** -/
theorem packPage_aligned {limit : Nat} {placed : List (ι × Spot)}
    (hitems : ∀ i ∈ items, (size i).Aligned d) (h : packPage size limit items = some placed) :
    ∀ p ∈ placed, (region size p).Aligned d := by
  obtain ⟨edge, -, hpack⟩ := List.exists_of_findSome?_eq_some h
  refine putAll_aligned (fun i hi => hitems i ?_) (.start d) hpack
  exact (List.mergeSort_perm items _).mem_iff.1 hi

end Packing

end Shelf

/-! ### Pages by outline -/

namespace AtlasBuilder

variable {α : Type}

/-- What packing looks at in a texture: its name and its size. -/
def outline (t : Named α) : Identifier × Extent := (t.1, extent t)

/-- A page without its texels. -/
def layout (placed : List (Named α × Spot)) : List ((Identifier × Extent) × Spot) :=
  placed.map (Prod.map outline id)

/-- Textures that were added with the same outlines stand in the builder with the same outlines. -/
theorem outline_entries_ofList {added added' : List (Named α)}
    (h : added'.map outline = added.map outline) :
    (Table.ofList (reserved ++ added')).entries.map outline
      = (Table.ofList (reserved ++ added)).entries.map outline := by
  have hmap : ∀ ts : List (Named α), (Table.ofList ts).entries.map outline
      = (Table.ofList (ts.map outline)).entries := by
    intro ts
    let size (t : Texture α) : Extent := ⟨t.image.width, t.image.height⟩
    exact (Table.entries_ofList_map size ts).symm
  rw [hmap, hmap, List.map_append, List.map_append, h]

/-- Textures with the same outlines are packed on a page in the same way. -/
theorem layout_packPage (size : Nat) {ts ts' : List (Named α)}
    (h : ts.map outline = ts'.map outline) :
    (Shelf.packPage extent size ts).map layout = (Shelf.packPage extent size ts').map layout := by
  have hsize : ∀ t : Named α, Prod.snd (outline t) = extent t := fun _ => rfl
  have hmap : ∀ ts : List (Named α), (Shelf.packPage extent size ts).map layout
      = Shelf.packPage Prod.snd size (ts.map outline) := Shelf.packPage_map hsize size
  rw [hmap, hmap, h]

theorem layout_cutBack (size : Nat) {ts ts' : List (Named α)}
    (h : ts.map outline = ts'.map outline) (n : Nat) :
    (cutBack size ts n).map (Prod.map id layout)
      = (cutBack size ts' n).map (Prod.map id layout) := by
  induction n with
  | zero => rfl
  | succ n ih =>
      have htake : (ts.take (n + 1)).map outline = (ts'.take (n + 1)).map outline := by
        rw [List.map_take, List.map_take, h]
      have hpage := layout_packPage size htake
      simp only [cutBack]
      cases hp : Shelf.packPage extent size (ts.take (n + 1)) with
      | none =>
          rw [hp, Option.map_none, eq_comm, Option.map_eq_none_iff] at hpage
          rw [hpage]
          exact ih
      | some placed =>
          rw [hp, Option.map_some, eq_comm, Option.map_eq_some_iff] at hpage
          obtain ⟨placed', hp', hlayout⟩ := hpage
          rw [hp']
          simp [hlayout]

theorem area_eq_of_outline {t t' : Named α} (h : outline t = outline t') :
    t.2.area = t'.2.area :=
  congrArg (fun o => o.2.area) h

theorem prefixLength_congr {limit : Nat} {ts : List (Named α)} :
    ∀ {used : Nat} {ts' : List (Named α)}, ts.map outline = ts'.map outline →
      prefixLength limit used ts = prefixLength limit used ts' := by
  induction ts with
  | nil =>
      intro used ts' h
      rw [List.map_nil, eq_comm, List.map_eq_nil_iff] at h
      rw [h]
  | cons t ts ih =>
      intro used ts' h
      rw [List.map_cons, eq_comm, List.map_eq_cons_iff] at h
      obtain ⟨t', ts', rfl, ht, hts⟩ := h
      simp only [prefixLength, area_eq_of_outline ht, ih hts.symm]

variable [Scalar α]

/-- What a texture is made smaller to depends on its size. -/
theorem outline_fitWithin {size : Nat} {t t' : Named α} (h : outline t = outline t') :
    outline (t.1, t.2.fitWithin size) = outline (t'.1, t'.2.fitWithin size) := by
  obtain ⟨n, ⟨⟨w, k, texels, hsize⟩, animation⟩⟩ := t
  obtain ⟨n', ⟨⟨w', k', texels', hsize'⟩, animation'⟩⟩ := t'
  simp only [outline, extent, Prod.mk.injEq, Extent.mk.injEq] at h
  obtain ⟨rfl, rfl, rfl⟩ := h
  by_cases hfit : w ≤ size ∧ k ≤ size
  · simp only [outline, extent, Texture.fitWithin, if_pos hfit]
  · simp only [outline, extent, Texture.fitWithin, if_neg hfit]
    rfl

theorem nextGroup_congr (size limit : Nat) {first first' : Named α} {rest rest' : List (Named α)}
    (hfirst : outline first = outline first') (hrest : rest.map outline = rest'.map outline) :
    (nextGroup size limit first rest).1.map outline
        = (nextGroup size limit first' rest').1.map outline ∧
      (nextGroup size limit first rest).2 = (nextGroup size limit first' rest').2 := by
  have hall : (first :: rest).map outline = (first' :: rest').map outline := by
    rw [List.map_cons, List.map_cons, hfirst, hrest]
  simp only [nextGroup, ← prefixLength_congr hall]
  cases prefixLength limit 0 (first :: rest) with
  | zero => exact ⟨by rw [List.map_cons, List.map_cons, outline_fitWithin hfirst, hrest], rfl⟩
  | succ n => exact ⟨hall, rfl⟩

/-- **Textures with the same outlines get the same places on the same pages.** -/
theorem layout_paginate {size limit fuel : Nat} :
    ∀ {ts ts' : List (Named α)}, ts.map outline = ts'.map outline →
      (paginate size limit fuel ts).map (List.map layout)
        = (paginate size limit fuel ts').map (List.map layout) := by
  induction fuel with
  | zero => intro ts ts' _; rfl
  | succ fuel ih =>
      intro ts ts' h
      cases ts with
      | nil =>
          rw [List.map_nil, eq_comm, List.map_eq_nil_iff] at h
          rw [h]
      | cons first rest =>
          rw [List.map_cons, eq_comm, List.map_eq_cons_iff] at h
          obtain ⟨first', rest', rfl, hfirst, hrest⟩ := h
          obtain ⟨hitems, hn⟩ := nextGroup_congr size limit hfirst.symm hrest.symm
          have hcut := layout_cutBack size hitems (nextGroup size limit first rest).2
          simp only [paginate, ← hn]
          cases hc : cutBack size (nextGroup size limit first rest).1
              (nextGroup size limit first rest).2 with
          | none =>
              rw [hc, Option.map_none, eq_comm, Option.map_eq_none_iff] at hcut
              have hname : first'.1 = first.1 := (Prod.ext_iff.1 hfirst).1
              rw [hcut, hname]
          | some out =>
              rw [hc, Option.map_some, eq_comm, Option.map_eq_some_iff] at hcut
              obtain ⟨out', hc', hout⟩ := hcut
              have htaken : out'.1 = out.1 := (Prod.ext_iff.1 hout).1
              have hplaced : layout out'.2 = layout out.2 := (Prod.ext_iff.1 hout).2
              have hdrop : ((nextGroup size limit first rest).1.drop out.1).map outline
                  = ((nextGroup size limit first' rest').1.drop out.1).map outline := by
                rw [List.map_drop, List.map_drop, hitems]
              have hcons : ∀ (placed : List (Named α × Spot))
                  (later : Except AtlasFault (List (List (Named α × Spot)))),
                  (later.map (placed :: ·)).map (List.map layout)
                    = (later.map (List.map layout)).map (layout placed :: ·) := by
                intro placed later
                cases later <;> rfl
              rw [hc']
              simp only [htaken, hcons, ih hdrop, hplaced]

/-! ### Pages of aligned textures -/

/-- **Aligned textures that fit on a page get aligned places.** -/
theorem aligned_rect {size limit d fuel : Nat} :
    ∀ {ts : List (Named α)} {pages : List (List (Named α × Spot))},
      (∀ t ∈ ts, (extent t).Aligned d ∧ t.2.Fits size) → ts.length ≤ fuel →
      paginate size limit fuel ts = .ok pages →
      ∀ placed ∈ pages, ∀ p ∈ placed, (rect p).Aligned d := by
  induction fuel with
  | zero =>
      intro ts pages _ _ h
      cases h
      intro placed hplaced
      cases hplaced
  | succ fuel ih =>
      intro ts pages hts hlen h
      cases ts with
      | nil =>
          cases h
          intro placed hplaced
          cases hplaced
      | cons first rest =>
          -- the first texture is not made smaller, so the page is tried on the textures as they are
          have hgroup : (nextGroup size limit first rest).1 = first :: rest := by
            have hfirst := asPacked_of_fits (hts first (List.mem_cons_self ..)).2 limit
            rw [(nextGroup_head size limit first rest).1, namedAsPacked, hfirst]
          simp only [paginate, hgroup] at h
          split at h
          · cases h
          · rename_i taken placed hcut
            cases hrest : paginate size limit fuel ((first :: rest).drop taken) with
            | error e =>
                rw [hrest] at h
                cases h
            | ok later =>
                rw [hrest] at h
                cases h
                obtain ⟨hpos, -, hpack⟩ := cutBack_spec hcut
                intro page hpage
                rcases List.mem_cons.1 hpage with rfl | hpage
                · exact Shelf.packPage_aligned
                    (fun t ht => (hts t (List.mem_of_mem_take ht)).1) hpack
                · refine ih (fun t ht => hts t (List.mem_of_mem_drop ht)) ?_ hrest page hpage
                  simp at hlen ⊢
                  omega

end AtlasBuilder

end VoxelBake
