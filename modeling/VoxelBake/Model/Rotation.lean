/-
Turns of a single element about its own pivot.

An element may be turned by any angle about one axis, or about all three in the order x, y, z.  A
turned element may also be rescaled: the two directions across the axis are stretched so that the
element fills the block again.

* `Spin`, `ElementRotation` — the turns and their pivot in units of a sixteenth of a block;
* `ElementRotation.steps` — the turns one axis at a time, in radians, without those of angle zero;
* `rescaleFactor`, `stretchFactor` — how far a turn stretches;
* `Mat3`, `Mat3.about` — matrices by columns, and the matrix of a turn;
* `ElementRotation.apply` — where the turns carry a point.
-/
import VoxelBake.Facing
import VoxelBake.Scalar

set_option relaxedAutoImplicit false
set_option autoImplicit false

namespace VoxelBake

/-! ### Turns -/

/-- The turns of an element, in degrees. -/
inductive Spin (α : Type)
  /-- One turn about one axis. -/
  | single (axis : Axis) (angle : α)
  /-- Turns about x, y and z, made in this order. -/
  | compound (angles : Vec3 α)
deriving BEq, DecidableEq

/-- The turns of an element and the point they leave in place. -/
structure ElementRotation (α : Type) where
  /-- The pivot, in sixteenths of a block. -/
  origin : Vec3 α
  /-- The turns. -/
  spin : Spin α
  /-- Whether each turn stretches the element across its axis. -/
  rescale : Bool
deriving BEq, DecidableEq

variable {α : Type} [Scalar α]

/-- A measure in sixteenths of a block, in blocks. -/
def inBlocks (a : α) : α := a / (16 : Nat)

namespace ElementRotation

/-- The pivot in blocks. -/
def pivot (r : ElementRotation α) : Vec3 α := r.origin.map inBlocks

/-- The turns one axis at a time, in radians; turns by the angle zero are left out. -/
def steps [Trig α] (r : ElementRotation α) : List (Axis × α) :=
  let turns := match r.spin with
    | .single axis angle => [(axis, angle)]
    | .compound angles => [(Axis.x, angles.x), (Axis.y, angles.y), (Axis.z, angles.z)]
  (turns.filter fun t => !(t.2 == ((0 : Nat) : α))).map fun t => (t.1, t.2 * Trig.degree)

end ElementRotation

/-! ### Matrices -/

/-- A matrix of three columns. -/
structure Mat3 (α : Type) where
  /-- The image of the first axis. -/
  colX : Vec3 α
  /-- The image of the second axis. -/
  colY : Vec3 α
  /-- The image of the third axis. -/
  colZ : Vec3 α
deriving BEq, DecidableEq

namespace Mat3

/-- A matrix applied to a vector. -/
def mulVec (m : Mat3 α) (v : Vec3 α) : Vec3 α :=
  Vec3.zipWith (· + ·)
    (Vec3.zipWith (· + ·) (m.colX.map (· * v.x)) (m.colY.map (· * v.y))) (m.colZ.map (· * v.z))

/-- The turn about an axis whose angle has the given sine and cosine. -/
def about (axis : Axis) (s c : α) : Mat3 α :=
  let zero : α := (0 : Nat)
  let one : α := (1 : Nat)
  match axis with
  | .x => ⟨⟨one, zero, zero⟩, ⟨zero, c, s⟩, ⟨zero, -s, c⟩⟩
  | .y => ⟨⟨c, zero, -s⟩, ⟨zero, one, zero⟩, ⟨s, zero, c⟩⟩
  | .z => ⟨⟨c, s, zero⟩, ⟨-s, c, zero⟩, ⟨zero, zero, one⟩⟩

end Mat3

/-! ### Stretching -/

/-- How far rescaling stretches for a turn whose angle has the given cosine. -/
def rescaleFactor (c : α) : α := (1 : Nat) / c

/-- How far a turn whose angle has the given cosine stretches: not at all unless rescaling is
asked for and the cosine is clear of zero. -/
def stretchFactor (rescale : Bool) (c : α) : α :=
  if rescale && decide (((1 : Nat) : α) / (10000 : Nat) < Scalar.magnitude c) then rescaleFactor c
  else (1 : Nat)

/-- A factor on the two directions across an axis. -/
def acrossAxis (axis : Axis) (factor : α) : Vec3 α :=
  match axis with
  | .x => ⟨(1 : Nat), factor, factor⟩
  | .y => ⟨factor, (1 : Nat), factor⟩
  | .z => ⟨factor, factor, (1 : Nat)⟩

namespace ElementRotation

/-- Where one turn about an axis carries a point, given the pivot. -/
def turn [Trig α] (rescale : Bool) (pivot : Vec3 α) (p : Vec3 α) (step : Axis × α) : Vec3 α :=
  let c : α := Trig.cos step.2
  (Mat3.about step.1 (Trig.sin step.2) c).mulVec (p - pivot)
    * acrossAxis step.1 (stretchFactor rescale c) + pivot

/-- Where all turns together carry a point. -/
def apply [Trig α] (r : ElementRotation α) (p : Vec3 α) : Vec3 α :=
  r.steps.foldl (turn r.rescale r.pivot) p

end ElementRotation

end VoxelBake
