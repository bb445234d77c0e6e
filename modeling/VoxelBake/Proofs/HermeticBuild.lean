/-
**A build does not depend on what happened before.**

A library that was built, failed to build, got other packs or other tables builds the same as a new
one with the same files.  The tables of files list their names in the order in which they were
entered, and models are loaded in that order, so that libraries of different histories load them in
different orders.  If all chains of parents end in time this does not show: a model is the fresh one
whatever was loaded before, the textures to be packed are put in order, and states and items are
assembled as if alone.

Main definitions:

* `FileTables.SameEntries` — the same files, in any order;
* `Library.SameAssets` — libraries with the same choices, textures and models;
* `Library.Alike` — libraries with the same choices, source and files;
* `Library.SameView` — libraries that cannot be told apart by what was built.

Main results:

* `Model.sortedIds_congr` — identifiers in order depend only on which there are;
* `Library.SameAssets.build_rel` — two builds with the same textures and models have the same end;
* `Library.Alike.build` — alike libraries build the same;
* `Library.build_after_history` — **after any history a library builds as a new one does**.
-/
import VoxelBake.Proofs.LibraryHistory
import VoxelBake.Proofs.SharedCaches

set_option relaxedAutoImplicit false
set_option autoImplicit false

namespace VoxelBake

/-! ### Identifiers in order -/

namespace Identifier

theorem order_eq : order = compareLex (compareOn space) (compareOn path) := rfl

theorem atMost_iff {a b : Identifier} : a.atMost b = true ↔ (order a b).isLE = true := by
  rw [atMost]
  cases order a b <;> decide

theorem atMost_trans (a b c : Identifier) (h : a.atMost b = true) (h' : b.atMost c = true) :
    a.atMost c = true := by
  rw [atMost_iff, order_eq] at *
  exact Std.TransCmp.isLE_trans h h'

theorem order_swap (a b : Identifier) : order a b = (order b a).swap := by
  rw [order_eq]
  exact Std.OrientedCmp.eq_swap

theorem atMost_total (a b : Identifier) : (a.atMost b || b.atMost a) = true := by
  rw [atMost, atMost, order_swap a b]
  cases order b a <;> decide

theorem atMost_antisymm {a b : Identifier} (h : a.atMost b = true) (h' : b.atMost a = true) :
    a = b := by
  have heq : order a b = .eq := by
    rw [atMost_iff] at h h'
    rw [order_swap] at h'
    cases hcmp : order a b with
    | lt => rw [hcmp] at h'; cases h'
    | eq => rfl
    | gt => rw [hcmp] at h; cases h
  obtain ⟨hspace, hpath⟩ := Ordering.then_eq_eq.1 heq
  cases a
  cases b
  congr
  · exact Std.LawfulEqCmp.eq_of_compare hspace
  · exact Std.LawfulEqCmp.eq_of_compare hpath

end Identifier

theorem nodup_eraseDups {β : Type} [DecidableEq β] (l : List β) : l.eraseDups.Nodup := by
  -- erasing the repetitions of the first entry may shorten the rest by more than one
  induction hn : l.length using Nat.strongRecOn generalizing l with
  | ind n ih =>
      cases l with
      | nil => simp
      | cons a l =>
          rw [List.eraseDups_cons, List.nodup_cons]
          refine ⟨?_, ih _ ?_ _ rfl⟩
          · simp [List.mem_eraseDups]
          · have hle := List.length_filter_le (fun b => !b == a) l
            rw [← hn, List.length_cons]
            omega

/-- Identifiers in order, each once, depend only on which there are. -/
theorem Model.sortedIds_congr {as bs : List Identifier}
    (h : ∀ id, id ∈ sortedIds as ↔ id ∈ sortedIds bs) : sortedIds as = sortedIds bs := by
  have hnodup : ∀ ids, (sortedIds ids).Nodup := fun ids =>
    (List.mergeSort_perm _ _).nodup_iff.2 (nodup_eraseDups ids)
  have hsorted : ∀ ids, (sortedIds ids).Pairwise fun a b => a.atMost b = true := fun ids =>
    List.pairwise_mergeSort Identifier.atMost_trans Identifier.atMost_total _
  have hperm : (sortedIds as).Perm (sortedIds bs) :=
    (List.perm_ext_iff_of_nodup (hnodup as) (hnodup bs)).2 h
  exact hperm.eq_of_pairwise (fun a b _ _ => Identifier.atMost_antisymm) (hsorted as) (hsorted bs)

/-! ### Libraries with the same files -/

/-- The same files, in any order. -/
structure FileTables.SameEntries (f g : FileTables) : Prop where
  textures : f.textures.entries.Perm g.textures.entries
  blockModels : f.blockModels.entries.Perm g.blockModels.entries
  itemModels : f.itemModels.entries.Perm g.itemModels.entries
  blockstates : f.blockstates.entries.Perm g.blockstates.entries

namespace Table

variable {κ β : Type} [DecidableEq κ] {s t : Table κ β}

/-- Tables with the same entries hold the same under each key. -/
theorem get?_of_perm (h : s.entries.Perm t.entries) (k : κ) : s.get? k = t.get? k := by
  ext v
  rw [get?_eq_some_iff, get?_eq_some_iff, h.mem_iff]

theorem contains_of_perm (h : s.entries.Perm t.entries) (k : κ) : s.contains k = t.contains k := by
  rw [contains, contains, get?_of_perm h]

omit [DecidableEq κ] in
theorem mem_keys_of_perm (h : s.entries.Perm t.entries) (k : κ) : k ∈ s.keys ↔ k ∈ t.keys :=
  (h.map Prod.fst).mem_iff

theorem mem_values_of_get? {k : κ} {v : β} (h : t.get? k = some v) : v ∈ t.values :=
  List.mem_map_of_mem (mem_entries_of_get? h)

end Table

namespace Library

open ModelCache

/-- The paths of the files that textures and models are read from. -/
def assetPaths (l : Library) : List String :=
  l.files.textures.values ++ l.files.textures.values.map metadataPath
    ++ l.files.blockModels.values ++ l.files.itemModels.values

/-- Libraries with the same choices and the same textures and models, wherever their blockstate
files lie and whatever these say. -/
structure SameAssets (l l' : Library) : Prop where
  config : l.config = l'.config
  textures : l.files.textures.entries.Perm l'.files.textures.entries
  blockModels : l.files.blockModels.entries.Perm l'.files.blockModels.entries
  itemModels : l.files.itemModels.entries.Perm l'.files.itemModels.entries
  source : ∀ path ∈ l.assetPaths, l.source path = l'.source path

/-- Libraries with the same choices, source and files. -/
structure Alike (l l' : Library) : Prop where
  config : l.config = l'.config
  source : l.source = l'.source
  files : l.files.SameEntries l'.files

/-- Libraries that cannot be told apart by what was built. -/
structure SameView (l l' : Library) : Prop where
  states : l.states = l'.states
  items : l.items = l'.items
  atlas : l.atlas = l'.atlas
  colormaps : l.colormaps = l'.colormaps
  geometryCount : l.geometryCount = l'.geometryCount
  loaded : l.loaded = l'.loaded

theorem Unbuilt.sameView {l l' : Library} (h : l.Unbuilt) (h' : l'.Unbuilt)
    (hl : l.loaded = l'.loaded) : l.SameView l' where
  states := h.states.trans h'.states.symm
  items := h.items.trans h'.items.symm
  atlas := h.atlas.trans h'.atlas.symm
  colormaps := h.colormaps.trans h'.colormaps.symm
  geometryCount := h.geometryCount.trans h'.geometryCount.symm
  loaded := hl

theorem loaded_prepared (l : Library) : l.prepared.loaded = false := rfl

theorem sameView_prepared (l l' : Library) : l.prepared.SameView l'.prepared :=
  (unbuilt_prepared l).sameView (unbuilt_prepared l')
    ((loaded_prepared l).trans (loaded_prepared l').symm)

section Finished

variable (l : Library) (atlas : Atlas Float32) (palette : BlockPalette) (items : ItemPalette)

theorem atlas_finished : (l.finished atlas palette items).atlas = atlas := rfl

theorem colormaps_finished : (l.finished atlas palette items).colormaps
    = ⟨l.colormap Colormaps.grassId, l.colormap Colormaps.foliageId⟩ := rfl

theorem loaded_finished : (l.finished atlas palette items).loaded = true := rfl

theorem colormap_prepared : l.prepared.colormap = l.colormap := rfl

end Finished

/-! ### The same textures and models -/

namespace SameAssets

variable {l l' : Library} (h : l.SameAssets l')

include h

theorem source_texture {path : String} (hp : path ∈ l.files.textures.values) :
    l.source path = l'.source path ∧
      l.source (metadataPath path) = l'.source (metadataPath path) := by
  refine ⟨h.source _ ?_, h.source _ ?_⟩
  · simp [assetPaths, hp]
  · simp only [assetPaths, List.mem_append]
    exact Or.inl (Or.inl (Or.inr (List.mem_map_of_mem hp)))

theorem texture : l.texture = l'.texture := by
  funext id
  rw [Library.texture, Library.texture, ← Table.get?_of_perm h.textures]
  refine Option.bind_congr fun path hpath => ?_
  obtain ⟨hfile, hmeta⟩ := h.source_texture (Table.mem_values_of_get? hpath)
  simp only [AssetSource.texture, AssetSource.picture, hfile, hmeta]

theorem colormap : l.colormap = l'.colormap := by
  funext id
  rw [Library.colormap, Library.colormap, ← Table.get?_of_perm h.textures]
  congr 1
  refine Option.bind_congr fun path hpath => ?_
  obtain ⟨hfile, -⟩ := h.source_texture (Table.mem_values_of_get? hpath)
  simp only [AssetSource.picture, hfile]

theorem document {path : String} (hp : path ∈ l.assetPaths) :
    l.source.document path = l'.source.document path := by
  rw [AssetSource.document, AssetSource.document, h.source path hp]

theorem read_blocks : l.blockSource.read = l'.blockSource.read := by
  funext id
  simp only [blockSource, ModelSource.blocks, ModelSource.read, List.findSome?_cons,
    List.findSome?_nil, ← Table.get?_of_perm h.blockModels]
  congr 1
  refine Option.bind_congr fun path hpath => h.document ?_
  cases hb : l.files.blockModels.get? id with
  | none => simp [hb] at hpath
  | some p =>
      obtain rfl : p = path := by simpa [hb] using hpath
      simp [assetPaths, Table.mem_values_of_get? hb]

theorem contains_blocks : l.blockSource.contains = l'.blockSource.contains := by
  funext id
  simp only [blockSource, ModelSource.blocks, ModelSource.contains, List.any_cons,
    Table.contains_of_perm h.blockModels]

theorem read_items : l.itemSource.read = l'.itemSource.read := by
  funext id
  simp only [itemSource, ModelSource.items, ModelSource.read, List.findSome?_cons,
    List.findSome?_nil, ← Table.get?_of_perm h.blockModels, ← Table.get?_of_perm h.itemModels]
  congr 1
  refine Option.bind_congr fun path hpath => h.document ?_
  cases hi : l.files.itemModels.get? id with
  | some p =>
      obtain rfl : p = path := by simpa [hi] using hpath
      simp [assetPaths, Table.mem_values_of_get? hi]
  | none =>
      cases hb : l.files.blockModels.get? id with
      | none => simp [hi, hb] at hpath
      | some p =>
          obtain rfl : p = path := by simpa [hi, hb] using hpath
          simp [assetPaths, Table.mem_values_of_get? hb]

theorem contains_items : l.itemSource.contains = l'.itemSource.contains := by
  funext id
  simp only [itemSource, ModelSource.items, ModelSource.contains, List.any_cons,
    Table.contains_of_perm h.blockModels, Table.contains_of_perm h.itemModels]

theorem chainsEnd (hends : l.ChainsEnd) : l'.ChainsEnd := by
  refine ⟨fun id => ?_, fun id => ?_⟩
  · rw [← h.read_blocks]
    exact hends.blocks id
  · rw [← h.read_items]
    exact hends.items id

theorem assembler (atlas : Atlas Float32) : l.assembler atlas = l'.assembler atlas := by
  rw [Library.assembler, Library.assembler, h.read_blocks, h.contains_blocks]

theorem itemAssembler (atlas : Atlas Float32) (palette : BlockPalette) :
    l.itemAssembler atlas palette = l'.itemAssembler atlas palette := by
  rw [Library.itemAssembler, Library.itemAssembler, h.read_items, h.contains_items, h.config]

theorem itemAlone (atlas : Atlas Float32) (palette : BlockPalette) (items : ItemPalette) :
    l.itemAlone atlas palette items = l'.itemAlone atlas palette items := by
  funext item
  rw [Library.itemAlone, Library.itemAlone, h.itemAssembler]

theorem wantedTextures (hends : l.ChainsEnd) : l.wantedTextures = l'.wantedTextures := by
  -- models of other libraries are resolved in another order, but which textures they use is told by
  -- the fresh models alone
  refine Model.sortedIds_congr fun id => ?_
  have hfresh : l.blockSource.fresh = l'.blockSource.fresh := by
    funext j
    rw [ModelSource.fresh, ModelSource.fresh, h.read_blocks]
  have hfresh' : l.itemSource.fresh = l'.itemSource.fresh := by
    funext j
    rw [ModelSource.fresh, ModelSource.fresh, h.read_items]
  change id ∈ l.wantedTextures ↔ id ∈ l'.wantedTextures
  rw [mem_wantedTextures hends, mem_wantedTextures (h.chainsEnd hends), hfresh, hfresh', h.config]
  simp only [Table.mem_keys_of_perm h.blockModels, Table.mem_keys_of_perm h.itemModels]

theorem buildAtlas (hends : l.ChainsEnd) :
    l.buildAtlas l.wantedTextures = l'.buildAtlas l'.wantedTextures := by
  rw [buildAtlas_eq, buildAtlas_eq, shipped, shipped, h.texture, h.config, h.wantedTextures hends]

theorem items_finished (hends : l.ChainsEnd) (atlas : Atlas Float32) (palette : BlockPalette)
    (items : ItemPalette) :
    (l.prepared.finished atlas palette items).items
      = (l'.prepared.finished atlas palette items).items := by
  rw [Library.items_finished hends, Library.items_finished (h.chainsEnd hends), h.itemAlone]

/-- **Two builds with the same textures and models have the same end**: the same outcome and the
same use of the queue.  What the libraries have in common as they are prepared and as they are
finished for any atlas, they have in common as they are built. -/
theorem build_rel (hends : l.ChainsEnd) {σ : Type} {palette : BlockPalette} {items : ItemPalette}
    (uploader : Uploader σ (Atlas Float32)) (q : Handoff σ (Atlas Float32))
    {R : Library → Library → Prop} (hprepared : R l.prepared l'.prepared)
    (hfinished : ∀ atlas,
      R (l.prepared.finished atlas palette items) (l'.prepared.finished atlas palette items)) :
    (l.build palette items uploader q).1 = (l'.build palette items uploader q).1 ∧
    (l.build palette items uploader q).2.2 = (l'.build palette items uploader q).2.2 ∧
    R (l.build palette items uploader q).2.1 (l'.build palette items uploader q).2.1 := by
  have hatlas := (h.buildAtlas hends).symm
  obtain ⟨fault, hnone, hbuild⟩ | ⟨atlas, fault, q', hsome, hupload, hbuild⟩
      | ⟨atlas, q', hsome, hupload, hbuild⟩ := l.build_cases palette items uploader q
  · rw [hbuild, build_of_no_atlas (hatlas.trans hnone)]
    exact ⟨rfl, rfl, hprepared⟩
  · rw [hbuild, build_of_refusal (hatlas.trans hsome) hupload]
    exact ⟨rfl, rfl, hprepared⟩
  · rw [hbuild, build_of_upload (hatlas.trans hsome) hupload]
    exact ⟨rfl, rfl, hfinished atlas⟩

end SameAssets

/-! ### The same files -/

namespace Alike

variable {l l' : Library} (h : l.Alike l')

include h

theorem sameAssets : l.SameAssets l' where
  config := h.config
  textures := h.files.textures
  blockModels := h.files.blockModels
  itemModels := h.files.itemModels
  source _ _ := by rw [h.source]

theorem chainsEnd (hends : l.ChainsEnd) : l'.ChainsEnd := h.sameAssets.chainsEnd hends

theorem blockstate : l.blockstate = l'.blockstate := by
  funext block
  rw [Library.blockstate, Library.blockstate, Table.get?_of_perm h.files.blockstates, h.source]

theorem statesAlone (atlas : Atlas Float32) (palette : BlockPalette) :
    l.statesAlone atlas palette = l'.statesAlone atlas palette := by
  funext block
  rw [Library.statesAlone, Library.statesAlone, h.blockstate, h.sameAssets.assembler]

theorem placedModels (blocks : List Identifier) :
    l.placedModels blocks = l'.placedModels blocks := by
  rw [Library.placedModels, Library.placedModels, h.blockstate, h.sameAssets.assembler]

/-- What is built of alike libraries for the same atlas looks the same. -/
theorem finished (hends : l.ChainsEnd) (atlas : Atlas Float32) (palette : BlockPalette)
    (items : ItemPalette) :
    (l.prepared.finished atlas palette items).SameView
      (l'.prepared.finished atlas palette items) := by
  have hends' := h.chainsEnd hends
  refine ⟨?_, h.sameAssets.items_finished hends atlas palette items, ?_, ?_, ?_, ?_⟩
  · rw [states_finished hends, states_finished hends', h.statesAlone]
  · rw [atlas_finished, atlas_finished]
  · rw [colormaps_finished, colormaps_finished, colormap_prepared, colormap_prepared,
      h.sameAssets.colormap]
  · rw [geometryCount_finished hends, geometryCount_finished hends', h.placedModels]
  · rw [loaded_finished, loaded_finished]

/-- **Alike libraries build the same.** -/
theorem build (hends : l.ChainsEnd) {σ : Type} (palette : BlockPalette) (items : ItemPalette)
    (uploader : Uploader σ (Atlas Float32)) (q : Handoff σ (Atlas Float32)) :
    (l.build palette items uploader q).1 = (l'.build palette items uploader q).1 ∧
    (l.build palette items uploader q).2.2 = (l'.build palette items uploader q).2.2 ∧
    (l.build palette items uploader q).2.1.SameView (l'.build palette items uploader q).2.1 :=
  h.sameAssets.build_rel hends uploader q (sameView_prepared l l')
    fun atlas => h.finished hends atlas palette items

end Alike

/-! ### Histories -/

/-- **After any history a library builds as a new one does** that is given the same choices, source
and files: with the same outcome, the same use of the queue and the same result. -/
theorem build_after_history (config : LibraryConfig) (source : AssetSource)
    (ops : List Operation) {l : Library} (hl : (create config source).run ops = l)
    {files : FileTables} (hfiles : l.files.SameEntries files) (hends : l.ChainsEnd) {σ : Type}
    (palette : BlockPalette) (items : ItemPalette) (uploader : Uploader σ (Atlas Float32))
    (q : Handoff σ (Atlas Float32)) {new : Library}
    (hnew : new = { create config l.source with files := files }) :
    (l.build palette items uploader q).1 = (new.build palette items uploader q).1 ∧
    (l.build palette items uploader q).2.2 = (new.build palette items uploader q).2.2 ∧
    (l.build palette items uploader q).2.1.SameView (new.build palette items uploader q).2.1 := by
  have hconfig : l.config = config := hl ▸ config_run config source ops
  have halike : l.Alike new := by
    rw [hnew]
    exact ⟨hconfig, rfl, hfiles⟩
  exact halike.build hends palette items uploader q

/-- A new library with the files of the quarry, those of items entered in another order. -/
def reenteredQuarry : Library :=
  { create quarry.config quarry.source with
    files :=
      { quarry.files with
        itemModels := Table.ofList
          [(⟨"minecraft", "item/pebble"⟩, "pebble_item.json"),
            (⟨"minecraft", "item/stone"⟩, "stone_item.json")] } }

/-- The quarry is built, loses its packs and gets its tables back. -/
def restoringHistory : List Operation :=
  quarryHistory ++ [lostPack] ++ [.edit fun _ => quarry.files]

/-- The quarry after this history. -/
def restoredQuarry : Library := (create quarry.config quarry.source).run restoringHistory

theorem files_restoredQuarry : restoredQuarry.files = quarry.files := by
  have hedit : ∀ l : Library, (l.step (.edit fun _ => quarry.files)).2.files = quarry.files :=
    fun l => rfl
  rw [restoredQuarry, restoringHistory, run_concat, hedit]

theorem restoredQuarry_alike : quarry.Alike restoredQuarry := by
  have hsource : ∀ l : Library,
      ((l.step lostPack).2.step (.edit fun _ => quarry.files)).2.source = l.source := fun l => rfl
  have hkept : (quarry.build quarryBlocks quarryItems acceptAll (Handoff.start ())).2.1.source
      = quarry.source := (build_keeps quarry).2.1
  refine ⟨?_, ?_, ?_⟩
  · rw [restoredQuarry, config_run]
  · rw [restoredQuarry, restoringHistory, run_concat, run_concat, hsource, run_quarryHistory, hkept]
  · rw [files_restoredQuarry]
    exact ⟨List.Perm.refl _, List.Perm.refl _, List.Perm.refl _, List.Perm.refl _⟩

/-- It then builds as a new library whose tables were entered in another order. -/
theorem build_after_history_quarry :
    restoredQuarry.files.SameEntries reenteredQuarry.files ∧ restoredQuarry.ChainsEnd ∧
    (restoredQuarry.build quarryBlocks quarryItems acceptAll (Handoff.start ())).2.1.SameView
      (reenteredQuarry.build quarryBlocks quarryItems acceptAll (Handoff.start ())).2.1 := by
  have hrun : (create quarry.config quarry.source).run restoringHistory = restoredQuarry := rfl
  have hsame : restoredQuarry.files.SameEntries reenteredQuarry.files := by
    rw [files_restoredQuarry]
    exact ⟨List.Perm.refl _, List.Perm.refl _, List.Perm.swap _ _ _, List.Perm.refl _⟩
  have hends := restoredQuarry_alike.chainsEnd quarry_chainsEnd
  have hnew : reenteredQuarry
      = { create quarry.config restoredQuarry.source with files := reenteredQuarry.files } := by
    rw [← restoredQuarry_alike.source]
    rfl
  have hbuild := build_after_history quarry.config quarry.source restoringHistory hrun hsame hends
    quarryBlocks quarryItems acceptAll (Handoff.start ()) hnew
  exact ⟨hsame, hends, hbuild.2.2⟩

end Library

end VoxelBake
