/-
**A build, phase by phase.**

A build first forgets what was built before and resolves the models of all files.  It collects the
textures that these models use, packs those that have a readable file, and hands the atlas over.
Only when the atlas was accepted are states and items assembled and the library declared loaded.
So a build has three ends (`Library.build_cases`): the atlas cannot be built, it is not accepted, or
everything is there.

Main definitions:

* `ModelSource.ChainsEnd`, `Library.ChainsEnd` — all chains of parents end within the bound;
* `Library.prepared` — the library with all models resolved and nothing built of them;
* `Library.wantedTextures`, `Library.shipped` — the textures that a build collects, and those of
  them that have a readable file;
* `Library.finished` — the library with everything built for an atlas;
* `Library.quarry` — a small pack for trying things out.

Main results:

* `Library.build_cases` — **the three ends of a build**;
* `Library.build_ok` — what a successful build leaves;
* `Library.mem_wantedTextures` — which textures are collected;
* `Library.contains_of_buildAtlas` — a collected texture with a readable file is in the atlas;
* `Library.build_ok_of_packs` — a build succeeds if all textures fit on a page and the atlas is
  accepted.
-/
import Mathlib.Data.List.Basic
import VoxelBake.Library
import VoxelBake.Proofs.AtlasCompletion
import VoxelBake.Proofs.LoadHistory

set_option relaxedAutoImplicit false
set_option autoImplicit false

namespace VoxelBake

open ModelCache

/-! ### Chains of parents -/

namespace ModelSource

/-- Every chain of parents ends within the bound. -/
def ChainsEnd (s : ModelSource) : Prop := ∀ id, EndsInTime s.read id

variable {s : ModelSource}

theorem read_of_unknown {id : Identifier} (h : ∀ t ∈ s.tables, id ∉ t.keys) : s.read id = none := by
  have hfind : s.tables.findSome? (·.get? id) = none :=
    List.findSome?_eq_none_iff.2 fun t ht => Table.get?_eq_none_iff.2 (h t ht)
  simp [read, hfind]

/-- It is enough to look at the models that some table has. -/
theorem chainsEnd_iff :
    s.ChainsEnd ↔ ∀ t ∈ s.tables, ∀ id ∈ t.keys, EndsInTime s.read id := by
  refine ⟨fun h _ _ id _ => h id, fun h id => ?_⟩
  by_cases hid : ∃ t ∈ s.tables, id ∈ t.keys
  · obtain ⟨t, ht, hk⟩ := hid
    exact h t ht id hk
  · -- a model without a file has no parent
    have hread : s.read id = none :=
      read_of_unknown fun t ht hk => hid ⟨t, ht, hk⟩
    have hp : parent? s.read id = none := by simp [parent?, hread]
    exact ⟨[], id, Climb.here id, hp, Nat.zero_le _⟩

instance (s : ModelSource) : Decidable s.ChainsEnd := decidable_of_iff _ chainsEnd_iff.symm

end ModelSource

theorem Model.mem_sortedIds {ids : List Identifier} {id : Identifier} :
    id ∈ Model.sortedIds ids ↔ id ∈ ids := by
  simp [Model.sortedIds]

namespace Library

/-! ### Resolving all models -/

/-- Every chain of parents ends within the bound, for models of blocks and of items. -/
structure ChainsEnd (l : Library) : Prop where
  /-- Through the models of blocks. -/
  blocks : l.blockSource.ChainsEnd
  /-- Through the models of items, and behind them those of blocks. -/
  items : l.itemSource.ChainsEnd

instance (l : Library) : Decidable l.ChainsEnd :=
  decidable_of_iff (l.blockSource.ChainsEnd ∧ l.itemSource.ChainsEnd)
    ⟨fun h => ⟨h.1, h.2⟩, fun h => ⟨h.blocks, h.items⟩⟩

theorem snd_resolveAll (s : ModelSource) (ids : List Identifier) (cache : ModelCache Float32) :
    (resolveAll s ids cache).2 = loadAll s.read cache ids := by
  induction ids generalizing cache with
  | nil => rfl
  | cons id ids ih => exact ih (load s.read id cache).2

/-- If all chains end in time, each model is resolved to its fresh model. -/
theorem fst_resolveAll {s : ModelSource} (hends : s.ChainsEnd) {cache : ModelCache Float32}
    (h : Explained s.read cache) (ids : List Identifier) :
    (resolveAll s ids cache).1 = ids.map s.fresh := by
  -- the memory grows from model to model, so the induction is over all explained ones
  induction ids generalizing cache with
  | nil => rfl
  | cons id ids ih =>
      have hstep : (resolveAll s (id :: ids) cache).1
          = (load s.read id cache).1 :: (resolveAll s ids (load s.read id cache).2).1 := rfl
      rw [hstep, h.fst_load (hends id), ih (h.load id)]
      rfl

/-- The models of all files, those of blocks first, as a build resolves them. -/
def resolvedModels (l : Library) : List (Resolved Float32) :=
  (resolveAll l.blockSource l.files.blockModels.keys ∅).1
    ++ (resolveAll l.itemSource l.files.itemModels.keys ∅).1

theorem resolvedModels_eq {l : Library} (hends : l.ChainsEnd) :
    l.resolvedModels = l.files.blockModels.keys.map l.blockSource.fresh
      ++ l.files.itemModels.keys.map l.itemSource.fresh := by
  rw [resolvedModels, fst_resolveAll hends.blocks explained_empty,
    fst_resolveAll hends.items explained_empty]

/-! ### The phases of a build -/

/-- The library with all models resolved and nothing built of them. -/
def prepared (l : Library) : Library :=
  { l.clear with
    blockCaches := ⟨(resolveAll l.blockSource l.files.blockModels.keys ∅).2, ∅⟩
    itemCaches := ⟨(resolveAll l.itemSource l.files.itemModels.keys ∅).2, ∅⟩ }

/-- The textures that a build collects, those of all resolved models among them. -/
def wantedTextures (l : Library) : List Identifier := l.usedTextures l.resolvedModels

/-- The library with everything built for an atlas. -/
def finished (l : Library) (atlas : Atlas Float32) (palette : BlockPalette)
    (items : ItemPalette) : Library :=
  { l with
    blockCaches := (l.buildStates atlas palette l.blockCaches).2
    itemCaches := (l.buildItems atlas palette items l.itemCaches).2
    atlas := atlas
    colormaps := ⟨l.colormap Colormaps.grassId, l.colormap Colormaps.foliageId⟩
    states := (l.buildStates atlas palette l.blockCaches).1
    items := (l.buildItems atlas palette items l.itemCaches).1
    loaded := true }

section Building

variable {σ : Type} (l : Library) (palette : BlockPalette) (items : ItemPalette)
  (uploader : Uploader σ (Atlas Float32)) (h : Handoff σ (Atlas Float32))

theorem build_eq :
    l.build palette items uploader h =
      match l.buildAtlas l.wantedTextures with
      | .error fault => (.error (.atlas fault), l.prepared, h)
      | .ok atlas =>
          match h.upload uploader atlas with
          | (.error fault, h) => (.error (.upload fault), l.prepared, h)
          | (.ok (), h) => (.ok (), l.prepared.finished atlas palette items, h) := rfl

variable {l palette items uploader h} {built : Library} {h' : Handoff σ (Atlas Float32)}
  {atlas : Atlas Float32}

theorem build_of_no_atlas {fault : AtlasFault}
    (hatlas : l.buildAtlas l.wantedTextures = .error fault) :
    l.build palette items uploader h = (.error (.atlas fault), l.prepared, h) := by
  rw [build_eq, hatlas]

theorem build_of_refusal {fault : HandoffFault}
    (hatlas : l.buildAtlas l.wantedTextures = .ok atlas)
    (hupload : h.upload uploader atlas = (.error fault, h')) :
    l.build palette items uploader h = (.error (.upload fault), l.prepared, h') := by
  rw [build_eq, hatlas]
  simp only [hupload]

theorem build_of_upload (hatlas : l.buildAtlas l.wantedTextures = .ok atlas)
    (hupload : h.upload uploader atlas = (.ok (), h')) :
    l.build palette items uploader h = (.ok (), l.prepared.finished atlas palette items, h') := by
  rw [build_eq, hatlas]
  simp only [hupload]

variable (l palette items uploader h)

/-- **The three ends of a build**: the atlas cannot be built, it is not accepted, or everything is
there. -/
theorem build_cases :
    (∃ fault, l.buildAtlas l.wantedTextures = .error fault ∧
      l.build palette items uploader h = (.error (.atlas fault), l.prepared, h)) ∨
    (∃ atlas fault h', l.buildAtlas l.wantedTextures = .ok atlas ∧
      h.upload uploader atlas = (.error fault, h') ∧
      l.build palette items uploader h = (.error (.upload fault), l.prepared, h')) ∨
    ∃ atlas h', l.buildAtlas l.wantedTextures = .ok atlas ∧
      h.upload uploader atlas = (.ok (), h') ∧
      l.build palette items uploader h = (.ok (), l.prepared.finished atlas palette items, h') := by
  cases hatlas : l.buildAtlas l.wantedTextures with
  | error fault => exact Or.inl ⟨fault, rfl, build_of_no_atlas hatlas⟩
  | ok atlas =>
      obtain ⟨⟨outcome, h'⟩, hupload⟩ : ∃ out, h.upload uploader atlas = out := ⟨_, rfl⟩
      cases outcome with
      | error fault =>
          exact Or.inr (Or.inl ⟨atlas, fault, h', rfl, hupload, build_of_refusal hatlas hupload⟩)
      | ok u => exact Or.inr (Or.inr ⟨atlas, h', rfl, hupload, build_of_upload hatlas hupload⟩)

variable {l palette items uploader h}

/-- A build changes neither what was chosen nor the files. -/
theorem build_keeps (l : Library) :
    (l.build palette items uploader h).2.1.config = l.config ∧
    (l.build palette items uploader h).2.1.source = l.source ∧
    (l.build palette items uploader h).2.1.files = l.files := by
  obtain ⟨fault, -, hcase⟩ | ⟨atlas, fault, h'', -, -, hcase⟩ | ⟨atlas, h'', -, -, hcase⟩ :=
    l.build_cases palette items uploader h <;>
  · rw [hcase]
    exact ⟨rfl, rfl, rfl⟩

/-- **What a successful build leaves**: everything that is built for the atlas of the collected
textures. -/
theorem build_ok (hbuild : l.build palette items uploader h = (.ok (), built, h')) :
    ∃ atlas, l.buildAtlas l.wantedTextures = .ok atlas ∧
      built = l.prepared.finished atlas palette items := by
  obtain ⟨fault, -, hcase⟩ | ⟨atlas, fault, h'', -, -, hcase⟩ | ⟨atlas, h'', hatlas, -, hcase⟩ :=
    l.build_cases palette items uploader h
  · rw [hcase] at hbuild
    cases hbuild
  · rw [hcase] at hbuild
    cases hbuild
  · rw [hcase] at hbuild
    cases hbuild
    exact ⟨atlas, hatlas, rfl⟩

end Building

/-! ### The textures of a build -/

/-- A build collects the textures that the fresh models of all files use, and the extra ones. -/
theorem mem_wantedTextures {l : Library} (hends : l.ChainsEnd) {id : Identifier} :
    id ∈ l.wantedTextures ↔
      (∃ j ∈ l.files.blockModels.keys, id ∈ (l.blockSource.fresh j).model.textureIds) ∨
      (∃ j ∈ l.files.itemModels.keys, id ∈ (l.itemSource.fresh j).model.textureIds) ∨
      id ∈ l.config.extraTextures := by
  rw [wantedTextures, usedTextures, Model.mem_sortedIds, resolvedModels_eq hends]
  simp only [List.flatMap_append, List.mem_append, List.mem_flatMap, List.mem_map,
    exists_exists_and_eq_and, or_assoc]

/-- Those of some textures that have a readable file. -/
def shipped (l : Library) (ids : List Identifier) : List (AtlasBuilder.Named Float32) :=
  ids.filterMap fun id => (l.texture id).map (id, ·)

theorem buildAtlas_eq (l : Library) (ids : List Identifier) :
    l.buildAtlas ids = (AtlasBuilder.ofTextures l.config.atlasSize l.config.fillRatio
      l.config.mipLevels (l.shipped ids)).build := by
  rw [shipped, AtlasBuilder.ofTextures, List.foldl_filterMap]
  refine congrArg AtlasBuilder.build
    (congrArg (fun add => ids.foldl add _) (funext₂ fun b id => ?_))
  cases l.texture id <;> rfl

/-- A collected texture with a readable file is in the atlas. -/
theorem contains_of_buildAtlas {l : Library} {ids : List Identifier} {atlas : Atlas Float32}
    (h : l.buildAtlas ids = .ok atlas) {id : Identifier} (hid : id ∈ ids) :
    atlas.contains id = true ∨ l.texture id = none := by
  rw [buildAtlas_eq] at h
  cases ht : l.texture id with
  | none => exact Or.inr rfl
  | some t =>
      have hadded : id ∈ (l.shipped ids).map Prod.fst :=
        List.mem_map.2 ⟨(id, t), List.mem_filterMap.2 ⟨id, hid, by rw [ht]; rfl⟩, rfl⟩
      have hkey := (AtlasBuilder.mem_keys_build h).2 (Or.inr hadded)
      exact Or.inl (Table.contains_eq_true_iff.2 hkey)

/-! ### When a build succeeds -/

/-- A texture fits on a page as it is packed. -/
def Packs (l : Library) (t : Texture Float32) : Prop :=
  (AtlasBuilder.asPacked (max 1 l.config.atlasSize)
    (areaLimit (max 1 l.config.atlasSize) l.config.fillRatio) t).Fits (max 1 l.config.atlasSize)

instance (l : Library) (t : Texture Float32) : Decidable (l.Packs t) :=
  inferInstanceAs (Decidable (Texture.Fits _ _))

/-- An atlas can be built of any textures if the reserved ones and those of the files fit on a
page. -/
theorem exists_buildAtlas {l : Library} (hreserved : ∀ e ∈ AtlasBuilder.reserved, l.Packs e.2)
    (htextures : ∀ id t, l.texture id = some t → l.Packs t) (ids : List Identifier) :
    ∃ atlas, l.buildAtlas ids = .ok atlas := by
  -- the texture that is packed under a name is a reserved one or was read from a file
  have hfits : ∀ id t, AtlasBuilder.lastAdded (l.shipped ids) id = some t → l.Packs t := by
    intro id t ht
    obtain ⟨before, after, hsplit, -⟩ := List.lookup_eq_some_iff.1 ht
    have hmem : (id, t) ∈ AtlasBuilder.reserved ++ l.shipped ids :=
      List.mem_reverse.1 (hsplit ▸ by simp)
    rcases List.mem_append.1 hmem with h | h
    · exact hreserved _ h
    · obtain ⟨j, -, hj⟩ := List.mem_filterMap.1 h
      obtain ⟨t', ht', heq⟩ := Option.map_eq_some_iff.1 hj
      cases heq
      exact htextures _ _ ht'
  obtain ⟨atlas, hatlas, -⟩ := (AtlasBuilder.build_ok_iff_fits l.config.atlasSize
    l.config.fillRatio l.config.mipLevels (l.shipped ids)).2 hfits
  exact ⟨atlas, (buildAtlas_eq l ids).trans hatlas⟩

/-- **A build succeeds if all textures fit on a page and the atlas is accepted.** -/
theorem build_ok_of_packs {σ : Type} {l : Library} {palette : BlockPalette} {items : ItemPalette}
    {uploader : Uploader σ (Atlas Float32)} {h : Handoff σ (Atlas Float32)}
    (hreserved : ∀ e ∈ AtlasBuilder.reserved, l.Packs e.2)
    (htextures : ∀ id t, l.texture id = some t → l.Packs t)
    (haccepted : ∀ atlas, (h.upload uploader atlas).1 = .ok ()) :
    ∃ built h', l.build palette items uploader h = (.ok (), built, h') := by
  obtain ⟨atlas, hatlas⟩ := exists_buildAtlas hreserved htextures l.wantedTextures
  have hupload : h.upload uploader atlas = (.ok (), (h.upload uploader atlas).2) :=
    Prod.ext (haccepted atlas) rfl
  exact ⟨_, _, build_of_upload hatlas hupload⟩

/-! ### A small pack -/

/-- An uploader that takes every atlas. -/
def acceptAll : Uploader Unit (Atlas Float32) := fun owner _ => (.ok (), owner)

/-- The files of a small pack: a block, its item, and a flat item that a rule turns into the
block. -/
def quarrySource : AssetSource :=
  AssetSource.ofFiles
    [("stone.png", .picture (Raster.fill 16 16 ⟨125, 125, 125, 255⟩)),
      ("stone_model.json", .text
        ("\x7b\"textures\": \x7b\"all\": \"block/stone\"\x7d, \"elements\": [" ++
          "\x7b\"faces\": \x7b\"up\": \x7b\"texture\": \"#all\"\x7d\x7d\x7d]\x7d")),
      ("stone_item.json", .text "\x7b\"parent\": \"block/stone\"\x7d"),
      ("pebble_item.json", .text
        ("\x7b\"parent\": \"builtin/generated\", " ++
          "\"textures\": \x7b\"layer0\": \"item/pebble\"\x7d, " ++
          "\"overrides\": [\x7b\"model\": \"item/stone\"\x7d]\x7d")),
      ("stone_states.json", .text
        "\x7b\"variants\": \x7b\"\": \x7b\"model\": \"block/stone\"\x7d\x7d\x7d")]

/-- A library with this pack, whose texture of pebbles has no file. -/
def quarry : Library :=
  { create { LibraryConfig.standard with atlasSize := 64 } quarrySource with
    files :=
      { textures := Table.ofList
          [(⟨"minecraft", "block/stone"⟩, "stone.png"),
            (⟨"minecraft", "item/pebble"⟩, "pebble.png")]
        blockModels := Table.ofList [(⟨"minecraft", "block/stone"⟩, "stone_model.json")]
        itemModels := Table.ofList
          [(⟨"minecraft", "item/stone"⟩, "stone_item.json"),
            (⟨"minecraft", "item/pebble"⟩, "pebble_item.json")]
        blockstates := Table.ofList [(⟨"minecraft", "stone"⟩, "stone_states.json")] } }

/-- The block of the pack, in one state. -/
def quarryBlocks : BlockPalette :=
  (StatePalette.empty.addState ⟨"minecraft", "stone"⟩ 0 ∅).toBlockPalette

/-- Two items with models; the number of the first one is used again for an item without. -/
def quarryItems : ItemPalette where
  items := [(1, ⟨"minecraft", "stone"⟩), (2, ⟨"minecraft", "pebble"⟩), (1, ⟨"minecraft", "ghost"⟩)]
  tintable := []

theorem quarry_chainsEnd : quarry.ChainsEnd := by decide +kernel

/-- The quarry builds for all blocks and items. -/
theorem exists_quarry_build_of (palette : BlockPalette) (items : ItemPalette) :
    ∃ built h', quarry.build palette items acceptAll (Handoff.start ()) = (.ok (), built, h') := by
  -- names without a file have no texture, so it is enough to look at those in the table
  have htextures : ∀ id ∈ quarry.files.textures.keys, ∀ t ∈ quarry.texture id, quarry.Packs t := by
    decide +kernel
  refine build_ok_of_packs (by decide +kernel) (fun id t ht => ?_) fun _ => rfl
  by_cases hid : id ∈ quarry.files.textures.keys
  · exact htextures id hid t ht
  · have hnone : quarry.texture id = none := by
      rw [texture, Table.get?_eq_none_iff.2 hid]
      rfl
    rw [hnone] at ht
    cases ht

theorem exists_quarry_build :
    ∃ built h', quarry.build quarryBlocks quarryItems acceptAll (Handoff.start ())
      = (.ok (), built, h') := exists_quarry_build_of quarryBlocks quarryItems

end Library

end VoxelBake
