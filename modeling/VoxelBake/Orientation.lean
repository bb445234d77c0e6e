/-
How a placed model is turned.

A block state places a model after quarter turns about two axes: first `pitch` turns about the
east-west axis, then `yaw` turns about the vertical one.  The turns carry points of the unit cube
about its centre, and they carry the direction of every face.  If the textures are locked, they
stay fixed in the world while the model turns below them, so each face has to turn its own texture
back.

* `Orientation` — the turns and whether textures are locked;
* `Orientation.rotatePoint` — where a point of the unit cube goes;
* `Orientation.rotateDirection`, `Orientation.remap` — where a direction and a side go;
* `Orientation.textureTurn` — how far the turns carry the texture of a face;
* `Orientation.lockTurns` — the quarter turns that bring a locked texture back;
* `Orientation.remap_none`, `Orientation.remap_injective` — sides keep apart.
-/
import VoxelBake.Facing
import VoxelBake.Scalar

set_option relaxedAutoImplicit false
set_option autoImplicit false

namespace VoxelBake

/-- The quarter turns of a placed model, and whether its textures stay fixed in the world. -/
structure Orientation where
  /-- Quarter turns about the east-west axis, made first. -/
  pitch : Nat
  /-- Quarter turns about the vertical axis, made second. -/
  yaw : Nat
  /-- Whether textures stay fixed in the world while the model turns. -/
  lockTextures : Bool
deriving DecidableEq, Inhabited

namespace Orientation

/-- No turn. -/
def identity : Orientation := ⟨0, 0, false⟩

/-- The orientation of two numbers of quarter turns, whole circles removed. -/
def ofTurns (pitch yaw : Nat) (lockTextures : Bool) : Orientation :=
  ⟨pitch % 4, yaw % 4, lockTextures⟩

/-- The quarter turns that an angle in degrees stands for; only 90, 180 and 270 count. -/
def turnsOfDegrees (degrees : Int) : Nat :=
  if degrees = 90 then 1 else if degrees = 180 then 2 else if degrees = 270 then 3 else 0

/-- The orientation of two angles in degrees. -/
def ofDegrees (x y : Int) (lockTextures : Bool) : Orientation :=
  ofTurns (turnsOfDegrees x) (turnsOfDegrees y) lockTextures

/-- Whether no turn is made at all. -/
def isIdentity (o : Orientation) : Bool := o.pitch == 0 && o.yaw == 0

/-! ### Points -/

section Points

variable {α : Type} [Scalar α]

/-- A quarter turn about the east-west axis through the centre of the unit cube. -/
def quarterX (p : Vec3 α) : Vec3 α := ⟨p.x, p.z, (1 : Nat) - p.y⟩

/-- A quarter turn about the vertical axis through the centre of the unit cube. -/
def quarterY (p : Vec3 α) : Vec3 α := ⟨(1 : Nat) - p.z, p.y, p.x⟩

/-- Where the turns carry a point of the unit cube. -/
def rotatePoint (o : Orientation) (p : Vec3 α) : Vec3 α :=
  Nat.repeat quarterY o.yaw (Nat.repeat quarterX o.pitch p)

@[simp] theorem rotatePoint_identity (p : Vec3 α) : identity.rotatePoint p = p := rfl

theorem rotatePoint_of_isIdentity {o : Orientation} (h : o.isIdentity = true) (p : Vec3 α) :
    o.rotatePoint p = p := by
  obtain ⟨hp, hy⟩ : o.pitch = 0 ∧ o.yaw = 0 := by simpa [isIdentity] using h
  simp [rotatePoint, hp, hy, Nat.repeat]

end Points

/-! ### Directions -/

/-- Where the turns carry a direction. -/
def rotateDirection (o : Orientation) (d : Direction) : Direction :=
  Nat.repeat Direction.quarterY o.yaw (Nat.repeat Direction.quarterX o.pitch d)

/-- Where the turns carry the side that hides a face; a face that is never hidden stays so. -/
def remap (o : Orientation) (c : CullSide) : CullSide := c.map o.rotateDirection

@[simp] theorem remap_none (o : Orientation) : o.remap none = none := rfl

@[simp] theorem remap_some (o : Orientation) (d : Direction) :
    o.remap (some d) = some (o.rotateDirection d) := rfl

private theorem repeat_injective {β : Type} {f : β → β} (hf : ∀ a b, f a = f b → a = b) (n : Nat)
    {a b : β} (h : Nat.repeat f n a = Nat.repeat f n b) : a = b := by
  induction n with
  | zero => exact h
  | succ n ih => exact ih (hf _ _ h)

theorem rotateDirection_injective (o : Orientation) {d e : Direction}
    (h : o.rotateDirection d = o.rotateDirection e) : d = e :=
  repeat_injective (by intro a b; cases a <;> cases b <;> simp [Direction.quarterX]) _
    (repeat_injective (by intro a b; cases a <;> cases b <;> simp [Direction.quarterY]) _ h)

theorem remap_injective (o : Orientation) {c d : CullSide} (h : o.remap c = o.remap d) :
    c = d := by
  cases c <;> cases d <;> simp_all [remap]
  exact o.rotateDirection_injective h

/-! ### Locked textures -/

/-- The quarter turns by which a turned model carries the texture of a face, for `pitch` below
four. -/
def textureTurn (pitch yaw : Nat) (face : Direction) : Int :=
  match pitch, face with
  | 0, .up => yaw
  | 0, .down => -yaw
  | 0, _ => 0
  | 1, .up => 2
  | 1, .down => 0
  | 1, .west => -1
  | 1, .east => 1
  | 1, .south => yaw
  | 1, .north => 2 - yaw
  | 2, .up => -yaw
  | 2, .down => yaw
  | 2, _ => 2
  | _, .up => 0
  | _, .down => 2
  | _, .west => 1
  | _, .east => -1
  | _, .south => -yaw
  | _, .north => yaw + 2

/-- The quarter turns of its texture area that keep a face's texture fixed in the world; none
unless textures are locked and the model is turned. -/
def lockTurns (o : Orientation) (face : Direction) : Nat :=
  if o.lockTextures && !o.isIdentity then
    ((-textureTurn (o.pitch % 4) (o.yaw % 4) face) % 4).toNat
  else 0

end Orientation

end VoxelBake
