/-
Directions, axes and the sides that hide a face.

A block has six sides.  A face of its model is hidden when the neighbour on one of these sides
covers it; a face that no neighbour can cover has no such side.  `CullSide` is therefore an
optional `Direction`.

* `Direction`, `Axis` — the six directions and the three axes, with their names;
* `Direction.opposite`, `Direction.axis`, `Direction.offset` — how directions lie in space;
* `Direction.aboutX`, `Direction.aboutY` — quarter turns about two axes;
* `CullSide.all` — the seven cases in the order in which geometry lists them;
* `SideFlags`, `SideFlags.allows` — which sides are to be drawn.
-/
import VoxelBake.Text.Lowercase

set_option relaxedAutoImplicit false
set_option autoImplicit false

namespace VoxelBake

/-! ### Axes and directions -/

/-- The three axes of space. -/
inductive Axis
  | x
  | y
  | z
deriving DecidableEq, Inhabited

/-- The written name of an axis. -/
def Axis.name : Axis → String
  | .x => "x"
  | .y => "y"
  | .z => "z"

/-- The axis of a name, in exactly this spelling. -/
def Axis.ofName? (s : String) : Option Axis :=
  [Axis.x, .y, .z].find? (·.name = s)

/-- The axis of a name in either case. -/
def Axis.ofText? (s : String) : Option Axis := Axis.ofName? (Text.lower s)

/-- The six directions. -/
inductive Direction
  | down
  | up
  | north
  | south
  | west
  | east
deriving DecidableEq, Inhabited

namespace Direction

/-- All directions, in the order in which the faces of an element are visited. -/
def all : List Direction := [.down, .up, .north, .south, .west, .east]

/-- The written name of a direction. -/
def name : Direction → String
  | down => "down"
  | up => "up"
  | north => "north"
  | south => "south"
  | west => "west"
  | east => "east"

/-- The direction of a name, in exactly this spelling; `bottom` is another name of `down`. -/
def ofName? (s : String) : Option Direction :=
  if s = "bottom" then some down else all.find? (·.name = s)

/-- The direction of a name in either case. -/
def ofText? (s : String) : Option Direction := ofName? (Text.lower s)

/-- The step from a block to its neighbour, as east, up and south distances. -/
def offset : Direction → Int × Int × Int
  | down => (0, -1, 0)
  | up => (0, 1, 0)
  | north => (0, 0, -1)
  | south => (0, 0, 1)
  | west => (-1, 0, 0)
  | east => (1, 0, 0)

/-- The direction that points the other way. -/
def opposite : Direction → Direction
  | down => up
  | up => down
  | north => south
  | south => north
  | west => east
  | east => west

/-- The axis that a direction lies on. -/
def axis : Direction → Axis
  | down | up => .y
  | north | south => .z
  | west | east => .x

/-- A quarter turn about the east-west axis: up goes north, north goes down. -/
def quarterX : Direction → Direction
  | up => north
  | north => down
  | down => south
  | south => up
  | east => east
  | west => west

/-- A quarter turn about the vertical axis: north goes east, east goes south. -/
def quarterY : Direction → Direction
  | north => east
  | east => south
  | south => west
  | west => north
  | up => up
  | down => down

/-- The number of quarter turns in an angle in degrees; what exceeds a multiple of 90 towards
zero is dropped. -/
def quarters (degrees : Int) : Nat := ((degrees.tdiv 90) % 4).toNat

/-- The direction after a turn about the east-west axis. -/
def aboutX (d : Direction) (degrees : Int) : Direction := Nat.repeat quarterX (quarters degrees) d

/-- The direction after a turn about the vertical axis. -/
def aboutY (d : Direction) (degrees : Int) : Direction := Nat.repeat quarterY (quarters degrees) d

@[simp] theorem mem_all (d : Direction) : d ∈ all := by
  cases d <;> simp [all]

@[simp] theorem opposite_opposite (d : Direction) : d.opposite.opposite = d := by
  cases d <;> rfl

@[simp] theorem axis_opposite (d : Direction) : d.opposite.axis = d.axis := by
  cases d <;> rfl

/-- The bit of a direction in a set of sides. -/
def bit : Direction → Nat
  | up => 0
  | down => 1
  | south => 2
  | north => 3
  | east => 4
  | west => 5

end Direction

/-! ### Sides that hide a face -/

/-- The side whose neighbour hides a face, or `none` for a face that is never hidden. -/
abbrev CullSide := Option Direction

namespace CullSide

/-- All cases in the order of the buckets of compiled geometry. -/
def all : List CullSide :=
  [none, some .up, some .down, some .south, some .north, some .east, some .west]

/-- The position of a case in `CullSide.all`. -/
def index : CullSide → Nat
  | none => 0
  | some d => d.bit + 1

/-- The written name. -/
def name : CullSide → String
  | none => "none"
  | some d => d.name

/-- The side of a name in either case; other names hide nothing. -/
def ofText (s : String) : CullSide := Direction.ofText? s

@[simp] theorem mem_all (c : CullSide) : c ∈ all := by
  cases c with
  | none => simp [all]
  | some d => cases d <;> simp [all]

end CullSide

/-- A set of sides to be drawn, one bit a direction; the two highest bits mean nothing. -/
abbrev SideFlags := BitVec 8

/-- Whether faces of a bucket are drawn: those that are never hidden always, the others when
their side is in the set. -/
def SideFlags.allows (flags : SideFlags) : CullSide → Bool
  | none => true
  | some d => flags.getLsbD d.bit

/-- Every side drawn. -/
def SideFlags.everySide : SideFlags := 0b111111

/-- The buckets drawn for a set of sides, in order. -/
def SideFlags.drawn (flags : SideFlags) : List CullSide := CullSide.all.filter flags.allows

end VoxelBake
