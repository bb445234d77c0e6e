/-
Models with their ancestors.

A model file names its parent, which may name a parent of its own.  The chain of parents is
followed upwards, and the files are then laid over each other from the top down.  Every model made
on the way is remembered, so that models with common ancestors read them once.

* `ModelKind`, `Resolved` — what is drawn for a model, and a model with everything it inherits;
* `builtinKind` — the names that stand for a way of drawing instead of a file;
* `ModelSource`, `ModelSource.contains`, `ModelSource.read` — where model files are found;
* `Resolved.inherit` — a model made from its parent and its own file;
* `ModelCache`, `ModelCache.load` — resolving a model while remembering all models on the way;
* `ModelSource.fresh` — the model that is found with nothing remembered.
-/
import VoxelBake.Model.Document
import VoxelBake.Pack.Files

set_option relaxedAutoImplicit false
set_option autoImplicit false

namespace VoxelBake

/-! ### Resolved models -/

/-- What is drawn for a model. -/
inductive ModelKind
  /-- Its boxes. -/
  | elements
  /-- Boxes cut out of its texture layers. -/
  | generated
  /-- Nothing; it is drawn by other means. -/
  | entity
deriving DecidableEq, Inhabited

/-- The written name of a kind. -/
def ModelKind.name : ModelKind → String
  | elements => "elements"
  | generated => "generated"
  | entity => "entity"

/-- A model with everything that it inherits. -/
structure Resolved (α : Type) where
  /-- The model. -/
  model : Model α
  /-- What is drawn for it. -/
  kind : ModelKind
  /-- The rules of its own file. -/
  overrides : List (OverrideRule α)

/-- The model that inherits nothing and says nothing. -/
def Resolved.empty {α : Type} : Resolved α := ⟨Model.empty, .elements, []⟩

/-- The way of drawing that a reserved name stands for. -/
def builtinKind (id : Identifier) : Option ModelKind :=
  if id.space = "minecraft" ∨ id.space = "builtin" then
    if id.path = "builtin/generated" then some .generated
    else if id.path = "builtin/entity" then some .entity
    else none
  else none

/-! ### Where model files are found -/

/-- Tables of model files, searched in order, and the source that they are read from. -/
structure ModelSource where
  /-- The tables. -/
  tables : List (Table Identifier String)
  /-- The source. -/
  source : AssetSource

namespace ModelSource

/-- The models of blocks. -/
def blocks (files : FileTables) (source : AssetSource) : ModelSource :=
  ⟨[files.blockModels], source⟩

/-- The models of items, and behind them those of blocks. -/
def items (files : FileTables) (source : AssetSource) : ModelSource :=
  ⟨[files.itemModels, files.blockModels], source⟩

/-- Whether a model is known: some table has it, or its name is reserved. -/
def contains (s : ModelSource) (id : Identifier) : Bool :=
  (builtinKind id).isSome || s.tables.any (·.contains id)

/-- The file of a model, if there is one and it can be read. -/
def read (s : ModelSource) (id : Identifier) : Option (ModelDocument Float32) :=
  ((s.tables.findSome? (·.get? id)).bind s.source.document).bind ModelDocument.ofValue?

end ModelSource

/-! ### Inheriting -/

section Inheriting

variable {α : Type} [Scalar α]

/-- The model that counts as cut out of its texture even if no file says so. -/
def generatedAlias : Identifier := ⟨"minecraft", "item/generated"⟩

/-- A model with the declarations of its file laid over it. -/
def Resolved.overlay (parent : Resolved α) : Option (ModelDocument α) → Resolved α
  | some d =>
      { model := parent.model.overlay d
        kind := if d.elements.isSome then .elements else parent.kind
        overrides := d.overrides.getD [] }
  | none => { parent with overrides := [] }

/-- The model of a given name, made from its parent and its own file, if it has one. -/
def Resolved.inherit (parent : Resolved α) (id : Identifier) (file : Option (ModelDocument α)) :
    Resolved α :=
  let merged := parent.overlay file
  if id = generatedAlias ∧ merged.kind = .elements ∧ merged.model.isEmpty then
    { merged with kind := .generated }
  else merged

/-! ### Resolving with a memory -/

/-- Models that were resolved before. -/
abbrev ModelCache (α : Type) := Table Identifier (Resolved α)

/-- Where the way up the parents ends. -/
inductive Ancestor (α : Type)
  /-- At a model that was resolved before. -/
  | known (r : Resolved α)
  /-- At a reserved name. -/
  | builtin (kind : ModelKind)
  /-- At a model without a parent, or without a readable file. -/
  | root

/-- The model to which everything below the end of the way up is added. -/
def Ancestor.start : Ancestor α → Resolved α
  | known r => r
  | builtin kind => { Resolved.empty with kind := kind }
  | root => Resolved.empty

/-- How many parents a model may have one above the other. -/
def maxParents : Nat := 50

namespace ModelCache

/-- One step up the parents: to the parent, or to the end of the way. -/
def parentStep (read : Identifier → Option (ModelDocument α)) (cache : ModelCache α)
    (id : Identifier) : Chain.Step Identifier (Ancestor α) :=
  match cache.get? id with
  | some r => .done (.known r)
  | none =>
      match builtinKind id with
      | some kind => .done (.builtin kind)
      | none =>
          match (read id).bind ModelDocument.parentId with
          | some parent => .next parent
          | none => .done .root

/-- Remembers a model unless one is remembered under its name, and gives the remembered one. -/
def remember (cache : ModelCache α) (id : Identifier) (r : Resolved α) :
    Resolved α × ModelCache α :=
  Table.fetch cache id fun _ => r

/-- Adds the files of some models, lowest first, to the model above them and remembers each. -/
def mergeDown (read : Identifier → Option (ModelDocument α)) (start : Resolved α)
    (cache : ModelCache α) : List Identifier → Resolved α × ModelCache α
  | [] => (start, cache)
  | id :: above =>
      let (parent, cache) := mergeDown read start cache above
      remember cache id (parent.inherit id (read id))

/-- The models of a walk up the parents whose own files count: all of them if the walk ended at a
root, all but the last one otherwise. -/
def ownFiles (visited : List Identifier) : Ancestor α → List Identifier
  | .root => visited
  | _ => visited.dropLast

/-- The model of a given name with everything it inherits, and what is remembered afterwards.  A
chain of parents that does not end gives the empty model. -/
def load (read : Identifier → Option (ModelDocument α)) (id : Identifier) (cache : ModelCache α) :
    Resolved α × ModelCache α :=
  match cache.get? id with
  | some r => (r, cache)
  | none =>
      let walk := Chain.follow (parentStep read cache) maxParents id
      match walk.outcome with
      | .ok ancestor => mergeDown read ancestor.start cache (ownFiles walk.visited ancestor)
      | .error _ => remember cache id Resolved.empty

end ModelCache

end Inheriting

/-- The model of a given name, resolved with nothing remembered. -/
def ModelSource.fresh (s : ModelSource) (id : Identifier) : Resolved Float32 :=
  (ModelCache.load s.read id ∅).1

end VoxelBake
