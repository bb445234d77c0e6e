/-
From blockstate files to the models of states.

Each state takes its geometry from the file of its block: from the most specific variant whose key
holds for it, or from all parts whose conditions hold.  A model is compiled once for each way of
turning it and shared between all states that use it.

* `StateGeometry`, `StateModel` — one way of drawing a state, and all of them;
* `StateModel.choose` — the way that a seed selects;
* `BlockCaches` — models and geometry made before;
* `Assembler`, `Assembler.place` — a placement turned into geometry;
* `Assembler.variantStates`, `Assembler.partStates`, `Assembler.states` — the states of a block.
-/
import VoxelBake.Blockstate.Document
import VoxelBake.Mesh.Compile
import VoxelBake.Mesh.Emit
import VoxelBake.Model.Inheritance
import VoxelBake.Palette

set_option relaxedAutoImplicit false
set_option autoImplicit false

namespace VoxelBake

/-! ### Models of states -/

/-- One way of drawing a state: parts drawn together, and how likely they are. -/
structure StateGeometry (α : Type) where
  /-- The parts in order. -/
  parts : List (Geometry α)
  /-- How likely this way is, compared with the others. -/
  weight : Nat

namespace StateGeometry

variable {α : Type}

/-- How many vertices are drawn for a set of sides. -/
def vertexCount (g : StateGeometry α) (flags : SideFlags) : Nat :=
  (g.parts.map fun p => p.vertexCount flags).foldr (· + ·) 0

/-- Whether there is nothing to draw. -/
def isEmpty (g : StateGeometry α) : Bool := g.parts.all Geometry.isEmpty

/-- How likely this way is, never less than one. -/
def share (g : StateGeometry α) : Nat := max g.weight 1

/-- Draws all parts one after another. -/
def emit [Scalar α] [Gamma α] (g : StateGeometry α) (ctx : EmitContext α)
    (buffer : VertexBuffer α) (start : Nat) : VertexBuffer α × Nat :=
  g.parts.foldl (fun s part => VoxelBake.emit part ctx s.1 s.2) (buffer, start)

end StateGeometry

/-- Everything needed to draw a state. -/
structure StateModel (α : Type) where
  /-- The ways of drawing it. -/
  geometries : List (StateGeometry α)
  /-- How its block is drawn. -/
  renderType : RenderType
  /-- How its block is moved about. -/
  offsetType : OffsetType
  /-- The texture of its particles. -/
  particle : Identifier

namespace StateModel

variable {α : Type}

/-- The first way, and its number, before which the shares do not exceed `pick`. -/
def pickFrom (index pick : Nat) : List (StateGeometry α) → Option (Nat × StateGeometry α)
  | [] => none
  | g :: rest =>
      if pick < g.share then some (index, g) else pickFrom (index + 1) (pick - g.share) rest

/-- The shares of all ways together. -/
def totalShare (m : StateModel α) : Nat :=
  (m.geometries.map StateGeometry.share).foldr (· + ·) 0

/-- The way that a seed selects, and its number; each is selected in proportion to its share. -/
def chooseIndexed (m : StateModel α) (seed : Nat) : Option (Nat × StateGeometry α) :=
  if m.totalShare = 0 then none
  else
    match pickFrom 0 (seed % m.totalShare) m.geometries with
    | some picked => some picked
    | none => m.geometries.getLast?.map fun g => (m.geometries.length - 1, g)

/-- The way that a seed selects. -/
def choose (m : StateModel α) (seed : Nat) : Option (StateGeometry α) :=
  (m.chooseIndexed seed).map Prod.snd

end StateModel

/-! ### Geometry made before -/

/-- Geometry of models at orientations. -/
abbrev GeometryCache (α : Type) := Table (Identifier × Orientation) (Geometry α)

/-- Models and geometry made before. -/
structure BlockCaches (α : Type) where
  /-- The models. -/
  models : ModelCache α
  /-- The geometry. -/
  geometry : GeometryCache α

/-- Nothing made before. -/
def BlockCaches.empty {α : Type} : BlockCaches α := ⟨∅, ∅⟩

/-- A placement turned into geometry. -/
structure Placed (α : Type) where
  /-- The geometry. -/
  geometry : Geometry α
  /-- The texture of particles. -/
  particle : Identifier
  /-- How likely the placement is. -/
  weight : Nat

/-- What assembling the states of blocks needs: where models are known and read, and the atlas. -/
structure Assembler (α : Type) where
  /-- Whether a model is known. -/
  contains : Identifier → Bool
  /-- The file of a model. -/
  read : Identifier → Option (ModelDocument α)
  /-- The atlas. -/
  atlas : Atlas α

namespace Assembler

variable {α : Type}

/-- The slot that holds the texture of particles. -/
def particleSlot : String := "particle"

/-- The model that a placement means: the one it names, or that of the same name below `block/`. -/
def modelId (a : Assembler α) (model : Identifier) : Option Identifier :=
  if a.contains model then some model
  else
    let below := model.withPath ("block/" ++ model.path)
    if a.contains below then some below else none

variable [Scalar α] [Trig α]

/-- Turns a placement into geometry; nothing if its model is not known. -/
def place (a : Assembler α) (p : Placement) : StateM (BlockCaches α) (Option (Placed α)) :=
  fun caches =>
    match a.modelId p.model with
    | none => (none, caches)
    | some id =>
        let (resolved, models) := ModelCache.load a.read id caches.models
        let (geometry, shapes) := Table.fetch caches.geometry (id, p.orientation) fun _ =>
          compile resolved.model p.orientation a.atlas
        (some ⟨geometry, resolved.model.resolveSlot particleSlot, p.weight⟩, ⟨models, shapes⟩)

/-- Turns placements into geometry, leaving out those whose model is not known. -/
def placeAll (a : Assembler α) : List Placement → StateM (BlockCaches α) (List (Placed α))
  | [] => pure []
  | p :: rest => do
      let placed ← a.place p
      let others ← placeAll a rest
      pure (placed.toList ++ others)

/-- The texture of particles of the last placement, or the missing texture. -/
def lastParticle (placed : List (Placed α)) : Identifier :=
  (placed.getLast?.map Placed.particle).getD Identifier.missing

/-- A state with its ways of being drawn and the texture of its particles. -/
structure Shaped (α : Type) where
  /-- The number of the state. -/
  state : Nat
  /-- The ways of drawing it. -/
  geometries : List (StateGeometry α)
  /-- The texture of its particles. -/
  particle : Identifier

/-! ### Variants -/

/-- A variant turned into geometry. -/
structure Variant (α : Type) where
  /-- The condition in its key. -/
  condition : Condition
  /-- The ways of drawing it. -/
  geometries : List (StateGeometry α)
  /-- The texture of its particles. -/
  particle : Identifier

/-- A variant of a key, given its placements. -/
def Variant.ofPlaced (key : String) (placed : List (Placed α)) : Variant α where
  condition := Condition.ofKey key
  geometries := placed.map fun p => ⟨[p.geometry], p.weight⟩
  particle := lastParticle placed

/-- Turns the variants of a file into geometry. -/
def compileVariants (a : Assembler α) :
    List (String × List Placement) → StateM (BlockCaches α) (List (Variant α))
  | [] => pure []
  | (key, placements) :: rest => do
      let placed ← a.placeAll placements
      let others ← compileVariants a rest
      pure (Variant.ofPlaced key placed :: others)

/-- Variants by falling number of properties asked about, in the order of the file otherwise. -/
def mostSpecificFirst (variants : List (Variant α)) : List (Variant α) :=
  variants.mergeSort fun v w => w.condition.specificity ≤ v.condition.specificity

/-- The variant that a state with given properties takes. -/
def variantFor (variants : List (Variant α)) (properties : Properties) : Option (Variant α) :=
  (mostSpecificFirst variants).find? fun v => v.condition.holds properties

/-- The states of a block with variants: those whose properties are known and for which some key
holds. -/
def variantStates (variants : List (Variant α)) (palette : BlockPalette) (block : Identifier) :
    List (Shaped α) :=
  (palette.stateIds block).filterMap fun state => do
    let properties ← palette.properties state
    let v ← variantFor variants properties
    some ⟨state, v.geometries, v.particle⟩

/-! ### Parts -/

/-- Turns the parts of a file into geometry, leaving out those whose model is not known. -/
def compileParts (a : Assembler α) :
    List Part → StateM (BlockCaches α) (List (Part × Placed α))
  | [] => pure []
  | part :: rest => do
      let placed ← a.place part.placement
      let others ← compileParts a rest
      pure (placed.toList.map (part, ·) ++ others)

/-- The states of a block with parts: those whose properties are known, each drawn with all parts
whose conditions hold. -/
def partStates (parts : List (Part × Placed α)) (palette : BlockPalette) (block : Identifier) :
    List (Shaped α) :=
  (palette.stateIds block).filterMap fun state => do
    let properties ← palette.properties state
    let drawn := parts.filter fun p => p.1.holdsFor properties
    some ⟨state, [⟨drawn.map fun p => p.2.geometry, 1⟩], lastParticle (parts.map Prod.snd)⟩

/-! ### All states of a block -/

/-- The states of a block with their geometry. -/
def shapedStates (a : Assembler α) (palette : BlockPalette) (block : Identifier) :
    BlockstateDocument → StateM (BlockCaches α) (List (Shaped α))
  | .variants variants => do
      let compiled ← a.compileVariants variants
      pure (variantStates compiled palette block)
  | .parts parts => do
      let compiled ← a.compileParts parts
      pure (partStates compiled palette block)

/-- The models of the states of a block. -/
def states (a : Assembler α) (palette : BlockPalette) (block : Identifier)
    (file : BlockstateDocument) : StateM (BlockCaches α) (List (Nat × StateModel α)) := do
  let shaped ← a.shapedStates palette block file
  pure (shaped.map fun s =>
    (s.state,
      { geometries := s.geometries
        renderType := palette.renderType block
        offsetType := palette.offsetType block
        particle := s.particle }))

theorem shapedStates_variants (a : Assembler α) (palette : BlockPalette) (block : Identifier)
    (variants : List (String × List Placement)) (c : BlockCaches α) :
    a.shapedStates palette block (.variants variants) c
      = (variantStates (a.compileVariants variants c).1 palette block,
          (a.compileVariants variants c).2) :=
  rfl

theorem shapedStates_parts (a : Assembler α) (palette : BlockPalette) (block : Identifier)
    (parts : List Part) (c : BlockCaches α) :
    a.shapedStates palette block (.parts parts) c
      = (partStates (a.compileParts parts c).1 palette block, (a.compileParts parts c).2) :=
  rfl

/-- The models of the states are their geometry, with what the palette says of the block. -/
theorem states_eq (a : Assembler α) (palette : BlockPalette) (block : Identifier)
    (file : BlockstateDocument) (c : BlockCaches α) :
    a.states palette block file c
      = ((a.shapedStates palette block file c).1.map fun s =>
          (s.state,
            { geometries := s.geometries
              renderType := palette.renderType block
              offsetType := palette.offsetType block
              particle := s.particle }),
        (a.shapedStates palette block file c).2) :=
  rfl

end Assembler

end VoxelBake
