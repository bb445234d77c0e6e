/-
The number systems that geometry is computed in.

Everything that measures space, texture coordinates, light or occlusion is written once, over a
type `α` carrying the operations of `Scalar α`.  Run at `Float32`, each operation rounds to the
nearest 32-bit float, in exactly the order in which it is written; read at `Rat`, the same
definitions are exact.  Constants such as `3 / 5` are quotients of naturals, so both readings
agree on what they mean.

* `Scalar` — arithmetic, casts from naturals, comparison and truncation;
* `Scalar.least`, `Scalar.greatest` — the smaller and the larger of two values, where a value that
  is not a number loses against any number;
* `Scalar.clamp` — a value forced between two bounds;
* `Scalar.nearestUpTo` — the nearest natural number, a half going up, capped;
* `Scalar.lerp` — the point at a given fraction of the way between two values;
* `Trig`, `Gamma` — sine and cosine, and the conversion between stored and linear colour;
* `Vec3` — three components.
-/

set_option relaxedAutoImplicit false
set_option autoImplicit false

namespace VoxelBake

/-! ### Arithmetic -/

/-- A number system for measurements: arithmetic, casts from the naturals, decidable comparison
and truncation to a natural number. -/
class Scalar (α : Type) extends Add α, Sub α, Mul α, Div α, Neg α, NatCast α, BEq α, LT α,
    LE α where
  /-- Whether one value is strictly below another can be decided. -/
  decidableLT : DecidableLT α
  /-- Whether one value is at most another can be decided. -/
  decidableLE : DecidableLE α
  /-- The integer part of a value, `0` for anything negative or not a number. -/
  truncate : α → Nat

attribute [reducible, instance] Scalar.decidableLT Scalar.decidableLE

/-- Single-precision floats, each operation rounding to the nearest; truncation saturates at the
largest 32-bit number. -/
instance : Scalar Float32 where
  natCast n := n.toUInt64.toFloat32
  decidableLT := inferInstance
  decidableLE := inferInstance
  truncate x := x.toUInt32.toNat

/-- Exact rational numbers. -/
instance : Scalar Rat where
  decidableLT := inferInstance
  decidableLE := inferInstance
  truncate x := x.floor.toNat

namespace Scalar

variable {α : Type} [Scalar α]

/-- The smaller of two values; a value that is not a number gives way to the other one. -/
def least (a b : α) : α :=
  if a < b then a else if b < a then b else if a == a then a else b

/-- The larger of two values; a value that is not a number gives way to the other one. -/
def greatest (a b : α) : α :=
  if a < b then b else if b < a then a else if a == a then a else b

/-- A value forced into the range from `lo` to `hi`; a value that is not a number stays as it
is. -/
def clamp (lo hi x : α) : α :=
  if x < lo then lo else if hi < x then hi else x

/-- The magnitude of a value. -/
def magnitude (x : α) : α :=
  if x < (0 : Nat) then -x else x

/-- The natural number nearest to a value, a half going up, and never more than `cap`.  Negative
values and values that are not numbers give `0`. -/
def nearestUpTo (cap : Nat) (x : α) : Nat :=
  if (cap : α) ≤ x then cap
  else
    let whole := truncate x
    min cap (if (1 : Nat) / (2 : Nat) ≤ x - (whole : α) then whole + 1 else whole)

/-- The point at fraction `t` of the way from `a` to `b`. -/
@[inline] def lerp (a b t : α) : α :=
  a + (b - a) * t

end Scalar

/-! ### Functions that are not arithmetic -/

/-- Sine and cosine of an angle in radians, and the size of one degree. -/
class Trig (α : Type) where
  /-- Sine of an angle in radians. -/
  sin : α → α
  /-- Cosine of an angle in radians. -/
  cos : α → α
  /-- One degree in radians. -/
  degree : α

/-- Single-precision sine and cosine; the degree is the nearest float to `π` divided by 180. -/
instance : Trig Float32 where
  sin := Float32.sin
  cos := Float32.cos
  degree := (13176795 : Nat) / (4194304 : Nat) / (180 : Nat)

/-- Conversion of one colour channel between its stored encoding and linear intensity. -/
class Gamma (α : Type) where
  /-- Linear intensity of a stored channel. -/
  decode : α → α
  /-- Stored channel of a linear intensity. -/
  encode : α → α

/-- The standard curve: a straight piece near black and a power of 2.4 above it. -/
instance : Gamma Float32 where
  decode c :=
    if c ≤ (4045 : Nat) / (100000 : Nat) then c / ((1292 : Nat) / (100 : Nat))
    else ((c + (55 : Nat) / (1000 : Nat)) / ((1055 : Nat) / (1000 : Nat))).pow
      ((24 : Nat) / (10 : Nat))
  encode c :=
    if c ≤ (31308 : Nat) / (10000000 : Nat) then c * ((1292 : Nat) / (100 : Nat))
    else (1055 : Nat) / (1000 : Nat) * c.pow ((1 : Nat) / ((24 : Nat) / (10 : Nat)))
      - (55 : Nat) / (1000 : Nat)

/-! ### Points and colours -/

/-- Three components: a point of space, a texture coordinate with its page, or a colour. -/
structure Vec3 (α : Type) where
  /-- First component: east, the horizontal texture coordinate, or red. -/
  x : α
  /-- Second component: up, the vertical texture coordinate, or green. -/
  y : α
  /-- Third component: south, the page, or blue. -/
  z : α
deriving BEq, DecidableEq, Inhabited

namespace Vec3

variable {α β : Type}

/-- The same value in all three components. -/
def uniform (a : α) : Vec3 α := ⟨a, a, a⟩

/-- A function applied to each component. -/
def map (f : α → β) (v : Vec3 α) : Vec3 β := ⟨f v.x, f v.y, f v.z⟩

/-- A function applied to the components of two vectors, pair by pair. -/
def zipWith (f : α → α → β) (v w : Vec3 α) : Vec3 β := ⟨f v.x w.x, f v.y w.y, f v.z w.z⟩

/-- The components in order. -/
def toList (v : Vec3 α) : List α := [v.x, v.y, v.z]

instance [Add α] : Add (Vec3 α) := ⟨zipWith (· + ·)⟩

instance [Sub α] : Sub (Vec3 α) := ⟨zipWith (· - ·)⟩

/-- Component by component, so that a stretch is a product. -/
instance [Mul α] : Mul (Vec3 α) := ⟨zipWith (· * ·)⟩

@[simp] theorem add_x [Add α] (v w : Vec3 α) : (v + w).x = v.x + w.x := rfl

@[simp] theorem add_y [Add α] (v w : Vec3 α) : (v + w).y = v.y + w.y := rfl

@[simp] theorem add_z [Add α] (v w : Vec3 α) : (v + w).z = v.z + w.z := rfl

@[simp] theorem sub_x [Sub α] (v w : Vec3 α) : (v - w).x = v.x - w.x := rfl

@[simp] theorem sub_y [Sub α] (v w : Vec3 α) : (v - w).y = v.y - w.y := rfl

@[simp] theorem sub_z [Sub α] (v w : Vec3 α) : (v - w).z = v.z - w.z := rfl

@[simp] theorem mul_x [Mul α] (v w : Vec3 α) : (v * w).x = v.x * w.x := rfl

@[simp] theorem mul_y [Mul α] (v w : Vec3 α) : (v * w).y = v.y * w.y := rfl

@[simp] theorem mul_z [Mul α] (v w : Vec3 α) : (v * w).z = v.z * w.z := rfl

@[ext] theorem ext {v w : Vec3 α} (hx : v.x = w.x) (hy : v.y = w.y) (hz : v.z = w.z) : v = w := by
  cases v
  cases w
  cases hx
  cases hy
  cases hz
  rfl

end Vec3

end VoxelBake
