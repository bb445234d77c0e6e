/-
Names of assets, such as `minecraft:block/stone`.

An `Identifier` has two halves, the space it belongs to and a path in that space.  Both are in
lower case and the path has no backslashes, because every way of making one passes through
`Identifier.ofParts`.

* `Identifier.ofParts` — the identifier of two raw halves;
* `Identifier.parse` — the identifier written by a text, the half before the first colon being
  the space;
* `Identifier.text` — the written form;
* `Identifier.withPath` — another path in the same space;
* `Identifier.missing`, `Identifier.blank`, `Identifier.vacant` — the three reserved textures;
* `Identifier.order` — the order of the written halves, space first.
-/
import VoxelBake.Text.Blank
import VoxelBake.Text.Lowercase

set_option relaxedAutoImplicit false
set_option autoImplicit false

namespace VoxelBake

/-- The name of an asset. -/
structure Identifier where
  /-- The space that the name belongs to. -/
  space : String
  /-- The path within the space. -/
  path : String
deriving DecidableEq, Inhabited

namespace Identifier

/-- The space of a name that does not say one. -/
def defaultSpace : String := "minecraft"

/-- Backslashes turned into forward slashes. -/
def forwardSlashes (s : String) : String :=
  String.ofList (s.toList.map fun c => if c = '\\' then '/' else c)

/-- The identifier of a space and a path as written by hand. -/
def ofParts (space path : String) : Identifier where
  space := Text.lower space
  path := Text.lower (forwardSlashes path)

/-- The identifier written by a text: `space:path`, or a path alone in the default space. -/
def parse (s : String) : Identifier :=
  match Text.splitAtFirst ':' s.toList with
  | some (space, path) => ofParts (String.ofList space) (String.ofList path)
  | none => ofParts defaultSpace s

/-- The written form `space:path`. -/
def text (id : Identifier) : String := id.space ++ ":" ++ id.path

/-- Another path in the same space. -/
def withPath (id : Identifier) (path : String) : Identifier := ofParts id.space path

/-- The reserved texture that stands in for textures that cannot be found. -/
def missing : Identifier := ⟨"builtin", "missing"⟩

/-- The reserved texture that is white all over. -/
def blank : Identifier := ⟨"builtin", "blank"⟩

/-- The reserved texture that is transparent all over. -/
def vacant : Identifier := ⟨"builtin", "empty"⟩

/-- The model that an item is drawn with: its own path below `item/`. -/
def itemModel (item : Identifier) : Identifier := item.withPath ("item/" ++ item.path)

/-- The order of identifiers: by space, then by path, each compared character by character. -/
def order (a b : Identifier) : Ordering :=
  (compare a.space b.space).then (compare a.path b.path)

/-- Whether one identifier comes before another or is the same. -/
def atMost (a b : Identifier) : Bool := order a b != .gt

end Identifier

end VoxelBake
