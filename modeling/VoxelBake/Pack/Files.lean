/-
The files of resource packs.

Assets are found through tables from names to paths, one table for each kind of asset, and read
from a source that knows what lies under a path.  A file holds either text or a picture.

* `Asset`, `AssetSource` — the content of a file, and where it comes from;
* `AssetSource.ofFiles` — files held in memory;
* `AssetSource.document`, `AssetSource.picture`, `AssetSource.texture` — reading a file;
* `FileTables` — where each asset lies;
* `PackDirectory`, `FileTables.gather` — a pack on disk, and the tables with its assets entered.
-/
import VoxelBake.Identifier
import VoxelBake.Json.Reader
import VoxelBake.Pack.Path
import VoxelBake.Texture.Metadata

set_option relaxedAutoImplicit false
set_option autoImplicit false

namespace VoxelBake

/-! ### Reading files -/

/-- The content of a file. -/
inductive Asset
  | text (s : String)
  | picture (image : Raster)

/-- What lies under a path, if anything does. -/
abbrev AssetSource := String → Option Asset

/-- The path of the file that describes the animation of a texture. -/
def metadataPath (texturePath : String) : String := texturePath ++ ".mcmeta"

namespace Asset

/-- The text of a file. -/
def text? : Asset → Option String
  | text s => some s
  | picture _ => none

/-- The picture in a file. -/
def picture? : Asset → Option Raster
  | picture image => some image
  | text _ => none

end Asset

namespace AssetSource

/-- Files held in memory.  A file is found under every spelling of its path, and of two files
under one path the later one counts. -/
def ofFiles (files : List (String × Asset)) : AssetSource :=
  let table := Table.ofList (files.map fun f => (Path.steps f.1, f.2))
  fun path => table.get? (Path.steps path)

/-- The document in a file. -/
def document (source : AssetSource) (path : String) : Option Json.Value :=
  ((source path).bind Asset.text?).bind Json.read

/-- The picture in a file. -/
def picture (source : AssetSource) (path : String) : Option Raster :=
  (source path).bind Asset.picture?

/-- The texture in a file, with the animation described beside it. -/
def texture (source : AssetSource) (path : String) : Option (Texture Float32) :=
  (source.picture path).map fun image =>
    Texture.ofFiles image ((source (metadataPath path)).bind Asset.text?)

end AssetSource

/-! ### Finding files -/

/-- Where each asset lies. -/
structure FileTables where
  /-- Paths of textures. -/
  textures : Table Identifier String
  /-- Paths of models, those of items apart. -/
  blockModels : Table Identifier String
  /-- Paths of models of items. -/
  itemModels : Table Identifier String
  /-- Paths of blockstate files. -/
  blockstates : Table Identifier String

/-- Tables without assets. -/
def FileTables.empty : FileTables := ⟨∅, ∅, ∅, ∅⟩

/-- A pack on disk: its files and directories, each under the names that lead to it. -/
structure PackDirectory where
  /-- Where the directory lies. -/
  root : String
  /-- The entries with their names; an entry without content is a directory. -/
  entries : List (List String × Option Asset)

/-- A directory that has no assets. -/
structure NoAssets where
  /-- Where the directory lies. -/
  root : String
deriving DecidableEq

/-- The wording of this fault. -/
def NoAssets.message (f : NoAssets) : String := "No assets directory found in " ++ f.root

namespace PackDirectory

/-- The directory at `root` with some files and directories, each under a path inside it. -/
def ofPaths (root : String) (paths : List (String × Option Asset)) : PackDirectory :=
  ⟨root, paths.map fun p => (Path.inside p.1, p.2)⟩

/-- Whether a directory has the directory of assets. -/
def hasAssets (d : PackDirectory) : Bool :=
  d.entries.any fun e =>
    match e with
    | (["assets"], none) => true
    | ("assets" :: _ :: _, _) => true
    | _ => false

/-- The path of an entry. -/
def pathOf (d : PackDirectory) (names : List String) : String := "/".intercalate (d.root :: names)

/-- The files of a directory with their paths. -/
def files (d : PackDirectory) : List (String × Asset) :=
  d.entries.filterMap fun e => e.2.map fun a => (d.pathOf e.1, a)

end PackDirectory

/-- A text without an ending, if it has this ending. -/
def withoutEnding (ending s : String) : Option String :=
  if ending.toList.isSuffixOf s.toList then
    some (String.ofList (s.toList.take (s.length - ending.length)))
  else none

/-- The name of an asset, given the names that lead to its file and the ending of its kind. -/
def assetId? (space ending : String) (names : List String) : Option Identifier :=
  (withoutEnding ending (Identifier.forwardSlashes ("/".intercalate names))).map
    (Identifier.ofParts space)

namespace FileTables

/-- The tables with one file entered, if it is an asset of a known kind. -/
def enter (t : FileTables) (names : List String) (path : String) : FileTables :=
  match names with
  | "assets" :: space :: "blockstates" :: name :: rest =>
      match assetId? space ".json" (name :: rest) with
      | some id => { t with blockstates := t.blockstates.insert id path }
      | none => t
  | "assets" :: space :: "models" :: name :: rest =>
      match assetId? space ".json" (name :: rest) with
      | some id =>
          if "item/".toList.isPrefixOf id.path.toList then
            { t with itemModels := t.itemModels.insert id path }
          else { t with blockModels := t.blockModels.insert id path }
      | none => t
  | "assets" :: space :: "textures" :: name :: rest =>
      match assetId? space ".png" (name :: rest) with
      | some id => { t with textures := t.textures.insert id path }
      | none => t
  | _ => t

/-- The tables with all assets of a pack entered, over those of earlier packs. -/
def gather (t : FileTables) (d : PackDirectory) : Except NoAssets FileTables :=
  if d.hasAssets then
    .ok (d.entries.foldl
      (fun t e => if e.2.isSome then t.enter e.1 (d.pathOf e.1) else t) t)
  else .error ⟨d.root⟩

end FileTables

end VoxelBake
