/-
What the host knows about blocks and items.

Blocks and items have numbers that files do not mention.  A palette lists the blocks, the numbers
and properties of their states, and how they are drawn.

* `RenderType`, `OffsetType` — how a block is drawn, and how it is moved about within its place;
* `BlockPalette` — what is known about blocks;
* `StatePalette`, `StatePalette.addState`, `StatePalette.toBlockPalette` — a palette made state by
  state;
* `ItemPalette` — what is known about items.
-/
import VoxelBake.Blockstate.Condition
import VoxelBake.Identifier

set_option relaxedAutoImplicit false
set_option autoImplicit false

namespace VoxelBake

/-- How a block is drawn. -/
inductive RenderType
  | solid
  | cutout
  | cutoutMipped
  | translucent
  /-- By other means than compiled geometry. -/
  | entity
deriving DecidableEq, Inhabited

namespace RenderType

/-- The written name. -/
def name : RenderType → String
  | solid => "solid"
  | cutout => "cutout"
  | cutoutMipped => "cutout_mipped"
  | translucent => "translucent"
  | entity => "entity"

/-- The type of a name. -/
def ofName? (s : String) : Option RenderType :=
  [solid, cutout, cutoutMipped, translucent, entity].find? (·.name = s)

end RenderType

/-- How a block is moved about within its place. -/
inductive OffsetType
  | none
  /-- Sideways. -/
  | xz
  /-- Sideways, up and down. -/
  | xyz
deriving DecidableEq, Inhabited

namespace OffsetType

/-- The written name. -/
def name : OffsetType → String
  | none => "none"
  | xz => "xz"
  | xyz => "xyz"

/-- The type of a name. -/
def ofName? (s : String) : Option OffsetType := [none, xz, xyz].find? (·.name = s)

end OffsetType

/-! ### Blocks -/

/-- What is known about blocks. -/
structure BlockPalette where
  /-- All blocks. -/
  blocks : List Identifier
  /-- The numbers of the states of a block. -/
  stateIds : Identifier → List Nat
  /-- The properties of a state, if they are known. -/
  properties : Nat → Option Properties
  /-- How a block is drawn. -/
  renderType : Identifier → RenderType
  /-- How a block is moved about. -/
  offsetType : Identifier → OffsetType

/-- A palette made state by state. -/
structure StatePalette where
  /-- The numbers of the states of each block, blocks in order of their first state. -/
  states : Table Identifier (List Nat)
  /-- The properties of each state. -/
  properties : Table Nat Properties
  /-- How blocks are drawn that are not solid. -/
  renderTypes : Table Identifier RenderType
  /-- How blocks are moved about that are. -/
  offsetTypes : Table Identifier OffsetType

namespace StatePalette

/-- The palette without blocks. -/
def empty : StatePalette := ⟨∅, ∅, ∅, ∅⟩

/-- The palette with one more state of a block. -/
def addState (p : StatePalette) (block : Identifier) (state : Nat) (properties : Properties) :
    StatePalette :=
  { p with
    states := p.states.insert block ((p.states.get? block).getD [] ++ [state])
    properties := p.properties.insert state properties }

/-- The palette with another way of drawing a block. -/
def setRenderType (p : StatePalette) (block : Identifier) (t : RenderType) : StatePalette :=
  { p with renderTypes := p.renderTypes.insert block t }

/-- The palette with another way of moving a block about. -/
def setOffsetType (p : StatePalette) (block : Identifier) (t : OffsetType) : StatePalette :=
  { p with offsetTypes := p.offsetTypes.insert block t }

/-- What the palette says about blocks. -/
def toBlockPalette (p : StatePalette) : BlockPalette where
  blocks := p.states.keys
  stateIds block := (p.states.get? block).getD []
  properties state := p.properties.get? state
  renderType block := (p.renderTypes.get? block).getD .solid
  offsetType block := (p.offsetTypes.get? block).getD .none

end StatePalette

/-! ### Items -/

/-- What is known about items: their numbers and names, and which of them take a tint. -/
structure ItemPalette where
  /-- The number and name of each item. -/
  items : List (Nat × Identifier)
  /-- The items that take a tint. -/
  tintable : List Identifier

namespace ItemPalette

/-- The palette without items. -/
def empty : ItemPalette := ⟨[], []⟩

/-- The palette with one more item. -/
def addItem (p : ItemPalette) (number : Nat) (item : Identifier) (tintable : Bool) :
    ItemPalette where
  items := p.items ++ [(number, item)]
  tintable := if tintable then p.tintable ++ [item] else p.tintable

/-- Whether an item takes a tint. -/
def isTintable (p : ItemPalette) (item : Identifier) : Bool := p.tintable.contains item

end ItemPalette

end VoxelBake
