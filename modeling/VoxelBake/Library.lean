/-
Loading everything at once.

A library is given resource packs and builds from them all that is needed for drawing: the atlas
of all textures in use, the models of all block states and items, and the colour maps.  A build
that fails leaves the library without any of it.

* `LibraryConfig` — what can be chosen;
* `Library`, `Library.clear`, `Library.addPack` — a library and its files;
* `Library.resolveAll`, `Library.usedTextures` — all models, and the textures that they use;
* `Library.buildAtlas`, `Library.buildStates`, `Library.buildItems` — the parts of a build;
* `Library.build`, `Library.rebuild` — building from the present packs, and from new ones;
* `Library.stateModel`, `Library.itemModel` and others — looking things up.
-/
import VoxelBake.Atlas.Builder
import VoxelBake.Blockstate.Assembly
import VoxelBake.Colormap
import VoxelBake.Failure
import VoxelBake.Item.Assembly

set_option relaxedAutoImplicit false
set_option autoImplicit false

namespace VoxelBake

/-- What can be chosen about a build. -/
structure LibraryConfig where
  /-- Edge of the pages of the atlas in texels. -/
  atlasSize : Nat
  /-- How much of a page is filled before the next one is begun. -/
  fillRatio : Float32
  /-- How many smaller copies each page gets. -/
  mipLevels : Nat
  /-- The number of pixel columns of items cut out of their texture. -/
  precision : Nat
  /-- The thickness of such items in sixteenths of a block. -/
  thickness : Nat
  /-- Textures that are packed even if no model uses them. -/
  extraTextures : List Identifier
  /-- Whether work that does not depend on each other may be done at the same time; the result is
  the same. -/
  parallel : Bool

/-- Edge of the pages of an atlas unless told otherwise. -/
def defaultAtlasSize : Nat := 2048

/-- How much of a page is filled unless told otherwise. -/
def defaultFillRatio : Float32 := (97 : Nat) / (100 : Nat)

/-- What is chosen unless told otherwise. -/
def LibraryConfig.standard : LibraryConfig where
  atlasSize := defaultAtlasSize
  fillRatio := defaultFillRatio
  mipLevels := 4
  precision := defaultPrecision
  thickness := defaultThickness
  extraTextures := []
  parallel := true

/-- A library: its files and what was built from them. -/
structure Library where
  /-- What was chosen. -/
  config : LibraryConfig
  /-- Where files are read from. -/
  source : AssetSource
  /-- Where each asset lies. -/
  files : FileTables
  /-- Models of blocks and their geometry. -/
  blockCaches : BlockCaches Float32
  /-- Models of items and their boxes. -/
  itemCaches : ItemCaches Float32
  /-- The atlas. -/
  atlas : Atlas Float32
  /-- The colour maps. -/
  colormaps : Colormaps
  /-- The models of states by number. -/
  states : Table Nat (StateModel Float32)
  /-- The models of items by number. -/
  items : Table Nat (ItemModel Float32)
  /-- Whether the last build succeeded. -/
  loaded : Bool

namespace Library

/-- A library without files. -/
def create (config : LibraryConfig) (source : AssetSource) : Library where
  config := config
  source := source
  files := FileTables.empty
  blockCaches := BlockCaches.empty
  itemCaches := ItemCaches.empty
  atlas := Atlas.empty
  colormaps := Colormaps.none
  states := ∅
  items := ∅
  loaded := false

/-- The library without anything that was built; the files stay. -/
def clear (l : Library) : Library :=
  { create l.config l.source with files := l.files }

/-- The library with the assets of a pack, which take precedence over those of earlier packs. -/
def addPack (l : Library) (d : PackDirectory) : Except Failure Library :=
  match l.files.gather d with
  | .ok files => .ok { l with files := files }
  | .error fault => .error (.pack fault)

/-! ### Models and textures -/

/-- Where models of blocks are found. -/
def blockSource (l : Library) : ModelSource := ModelSource.blocks l.files l.source

/-- Where models of items are found. -/
def itemSource (l : Library) : ModelSource := ModelSource.items l.files l.source

/-- Resolves models one after another, remembering what was resolved. -/
def resolveAll (s : ModelSource) :
    List Identifier → StateM (ModelCache Float32) (List (Resolved Float32))
  | [] => pure []
  | id :: rest => do
      let resolved ← ModelCache.load s.read id
      let others ← resolveAll s rest
      pure (resolved :: others)

/-- The textures that some models use, and the extra ones, in order. -/
def usedTextures (l : Library) (models : List (Resolved Float32)) : List Identifier :=
  Model.sortedIds (models.flatMap (fun r => r.model.textureIds) ++ l.config.extraTextures)

/-- The texture of a name, if it has a file that can be read. -/
def texture (l : Library) (id : Identifier) : Option (Texture Float32) :=
  (l.files.textures.get? id).bind l.source.texture

/-- The colour map of a name, if it has a file that can be read. -/
def colormap (l : Library) (id : Identifier) : Option Colormap :=
  ((l.files.textures.get? id).bind l.source.picture).map Colormap.mk

/-- The atlas of some textures, those without a readable file left out. -/
def buildAtlas (l : Library) (textures : List Identifier) : Except AtlasFault (Atlas Float32) :=
  let start := AtlasBuilder.start l.config.atlasSize l.config.fillRatio l.config.mipLevels
  let filled := textures.foldl
    (fun b id =>
      match l.texture id with
      | some t => b.add id t
      | none => b) start
  filled.build

/-! ### States and items -/

/-- The blockstate file of a block, if there is one that can be read. -/
def blockstate (l : Library) (block : Identifier) : Option BlockstateDocument :=
  ((l.files.blockstates.get? block).bind l.source.document).bind fun v =>
    (BlockstateDocument.ofValue v).toOption

/-- How the states of blocks are assembled. -/
def assembler (l : Library) (atlas : Atlas Float32) : Assembler Float32 :=
  ⟨l.blockSource.contains, l.blockSource.read, atlas⟩

/-- The models of the states of some blocks. -/
def assembleBlocks (l : Library) (a : Assembler Float32) (palette : BlockPalette) :
    List Identifier → StateM (BlockCaches Float32) (List (Nat × StateModel Float32))
  | [] => pure []
  | block :: rest => do
      let states ← match l.blockstate block with
        | some file => a.states palette block file
        | none => pure []
      let others ← assembleBlocks l a palette rest
      pure (states ++ others)

/-- The models of all states; a number that is used twice keeps its first model. -/
def buildStates (l : Library) (atlas : Atlas Float32) (palette : BlockPalette) :
    StateM (BlockCaches Float32) (Table Nat (StateModel Float32)) := do
  let states ← l.assembleBlocks (l.assembler atlas) palette palette.blocks
  pure (states.foldl (fun t s => t.insertNew s.1 s.2) ∅)

/-- How items are assembled. -/
def itemAssembler (l : Library) (atlas : Atlas Float32) (palette : BlockPalette) :
    ItemAssembler Float32 :=
  ⟨l.itemSource.contains, l.itemSource.read, atlas, palette.renderType, l.config.precision,
    l.config.thickness⟩

/-- The models of some items under their numbers. -/
def assembleItems (a : ItemAssembler Float32) (items : ItemPalette) :
    List (Nat × Identifier) → StateM (ItemCaches Float32) (List (Nat × ItemModel Float32))
  | [] => pure []
  | (number, id) :: rest => do
      let model ← a.item id (items.isTintable id)
      let others ← assembleItems a items rest
      pure (model.toList.map (number, ·) ++ others)

/-- The models of all items; a number that is used twice keeps its last model. -/
def buildItems (l : Library) (atlas : Atlas Float32) (palette : BlockPalette)
    (items : ItemPalette) : StateM (ItemCaches Float32) (Table Nat (ItemModel Float32)) := do
  let models ← assembleItems (l.itemAssembler atlas palette) items items.items
  pure (Table.ofList models)

/-! ### Building -/

section Building

variable {σ : Type}

/-- Builds everything from the present files.  The atlas is handed over for upload; if it cannot
be built or uploaded, nothing is left of the build. -/
def build (l : Library) (palette : BlockPalette) (items : ItemPalette)
    (uploader : Uploader σ (Atlas Float32)) (h : Handoff σ (Atlas Float32)) :
    Except Failure Unit × Library × Handoff σ (Atlas Float32) :=
  let l := l.clear
  let (blockModels, blockCache) :=
    (resolveAll l.blockSource l.files.blockModels.keys).run (∅ : ModelCache Float32)
  let (itemModels, itemCache) :=
    (resolveAll l.itemSource l.files.itemModels.keys).run (∅ : ModelCache Float32)
  let l := { l with blockCaches := ⟨blockCache, ∅⟩, itemCaches := ⟨itemCache, ∅⟩ }
  match l.buildAtlas (l.usedTextures (blockModels ++ itemModels)) with
  | .error fault => (.error (.atlas fault), l, h)
  | .ok atlas =>
      match h.upload uploader atlas with
      | (.error fault, h) => (.error (.upload fault), l, h)
      | (.ok (), h) =>
          let (states, blockCaches) := (l.buildStates atlas palette).run l.blockCaches
          let (itemTable, itemCaches) := (l.buildItems atlas palette items).run l.itemCaches
          (.ok (),
            { l with
              blockCaches := blockCaches
              itemCaches := itemCaches
              atlas := atlas
              colormaps := ⟨l.colormap Colormaps.grassId, l.colormap Colormaps.foliageId⟩
              states := states
              items := itemTable
              loaded := true },
            h)

/-- The library with the assets of some packs, one after another, and the first failure. -/
def addPacks (l : Library) : List PackDirectory → Except Failure Unit × Library
  | [] => (.ok (), l)
  | d :: rest =>
      match l.addPack d with
      | .ok l => addPacks l rest
      | .error fault => (.error fault, l)

/-- Builds everything from new packs, forgetting the present files. -/
def rebuild (l : Library) (packs : List PackDirectory) (palette : BlockPalette)
    (items : ItemPalette) (uploader : Uploader σ (Atlas Float32))
    (h : Handoff σ (Atlas Float32)) :
    Except Failure Unit × Library × Handoff σ (Atlas Float32) :=
  match addPacks { l.clear with files := FileTables.empty } packs with
  | (.error fault, l) => (.error fault, l, h)
  | (.ok (), l) => l.build palette items uploader h

end Building

/-! ### Looking things up -/

/-- Something that was built, unless nothing is. -/
def ifLoaded {β : Type} (l : Library) (b : β) : Except Failure β :=
  if l.loaded then .ok b else .error .notLoaded

/-- The model of a state, if the packs cover it. -/
def stateModel (l : Library) (state : Nat) : Except Failure (Option (StateModel Float32)) :=
  l.ifLoaded (l.states.get? state)

/-- The model of an item, if the packs cover it. -/
def itemModel (l : Library) (item : Nat) : Except Failure (Option (ItemModel Float32)) :=
  l.ifLoaded (l.items.get? item)

/-- The models of all states. -/
def stateModels (l : Library) : Except Failure (Table Nat (StateModel Float32)) :=
  l.ifLoaded l.states

/-- The models of all items. -/
def itemModels (l : Library) : Except Failure (Table Nat (ItemModel Float32)) :=
  l.ifLoaded l.items

/-- The atlas. -/
def builtAtlas (l : Library) : Except Failure (Atlas Float32) := l.ifLoaded l.atlas

/-- The colour maps. -/
def builtColormaps (l : Library) : Except Failure Colormaps := l.ifLoaded l.colormaps

/-- How many models at orientations were compiled. -/
def geometryCount (l : Library) : Nat := l.blockCaches.geometry.size

end Library

end VoxelBake
