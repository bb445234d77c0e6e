/-
Animation files.

Beside a texture there may be a file that describes its animation.  Only the fields that mean
something are looked at: they must have the right shape and must not be repeated, while anything
else in the file just has to be well formed.

* `Metadata.knownFields` — the fields of a record among those that are known;
* `Metadata.readFrame` — an entry of the list of frames;
* `Metadata.readSection` — the description of an animation;
* `Metadata.read` — the whole file; the animation is optional.
-/
import VoxelBake.Json.Record
import VoxelBake.Texture.Basic

set_option relaxedAutoImplicit false
set_option autoImplicit false

namespace VoxelBake.Metadata

open Json

/-- The known fields that a record gives, as an object or as an array in declared order; `none`
if one is repeated. -/
def knownFields (names : List String) : Raw → Option (List (String × Raw))
  | .object members => do
      let named ← members.mapM fun m => (Piece.text? m.1).map fun name => (name, m.2)
      let known := named.filter fun f => names.contains f.1
      if (known.map Prod.fst).Nodup then some known else none
  | .array items => if items.length ≤ names.length then some (names.zip items) else none
  | _ => none

/-- A field that may be left out or be `null`. -/
def optionalField {β : Type} (fields : List (String × Raw)) (name : String)
    (reader : Raw → Option β) : Option (Option β) :=
  match fields.lookup name with
  | none => some none
  | some .null => some none
  | some r => (reader r).map some

/-- A whole number of 32 bits without a sign. -/
def readIndex : Raw → Option Nat
  | .numeral n =>
      match n.value? with
      | some (.whole i) => if i < 0x100000000 then some i else none
      | _ => none
  | _ => none

/-- The levels that a list of frames may still nest. -/
def frameDepth : Nat := Raw.maxDepth - 3

/-- An entry of the list of frames: the number of a frame, or an object that gives it. -/
def readFrame : Raw → Option Nat
  | .object members => do
      let _ ← (Raw.object members).valueBelow frameDepth
      let named ← members.mapM fun m => (Piece.text? m.1).map fun name => (name, m.2)
      match named.filter fun f => f.1 = "index" with
      | [(_, index)] => readIndex index
      | _ => none
  | r => readIndex r

/-- The list of frames. -/
def readFrames : Raw → Option (List Nat)
  | .array items => items.mapM readFrame
  | _ => none

/-- A 32-bit float. -/
def readFloat : Raw → Option Float32
  | .numeral n => n.value?.map Number.toFloat32
  | _ => none

/-- A truth value; `false` if it is left out. -/
def boolField (fields : List (String × Raw)) (name : String) : Option Bool :=
  match fields.lookup name with
  | none => some false
  | some (.bool b) => some b
  | some _ => none

/-- The description of an animation. -/
def readSection (r : Raw) : Option (AnimationSection Float32) := do
  let fields ← knownFields ["frames", "frametime", "interpolate"] r
  some
    { frames := ← optionalField fields "frames" readFrames
      frameTime := ← optionalField fields "frametime" readFloat
      interpolate := ← boolField fields "interpolate" }

/-- The animation that a file describes; `none` if the file cannot be read. -/
def read (s : String) : Option (Option (AnimationSection Float32)) := do
  let r ← Raw.read s
  let fields ← knownFields ["animation"] r
  optionalField fields "animation" readSection

end VoxelBake.Metadata

namespace VoxelBake.Texture

/-- The texture of an image and the text of the file beside it.  A file that cannot be read only
loses the animation. -/
def ofFiles (image : Raster) (metadata : Option String) : Texture Float32 :=
  match metadata.bind Metadata.read with
  | some (some s) => animate image s
  | _ => still image

end VoxelBake.Texture
