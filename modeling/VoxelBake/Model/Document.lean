/-
Model files.

A model file may name a parent, define texture slots, list elements, give display transforms and
state rules for replacing the model of an item.  What it leaves out it inherits.

* `FaceDocument`, `RotationDocument`, `ElementDocument`, `OverrideRule`, `ModelDocument` — a file
  as written, one structure for each part;
* `ModelDocument.ofValue?` — the file behind a document, `none` when some part has a wrong shape;
* `RotationDocument.rotation?`, `Element.ofDocument` — the meaning of the parts;
* `Model.overlay` — a model with the declarations of a file laid over it.
-/
import VoxelBake.Json.Record
import VoxelBake.Model.Basic

set_option relaxedAutoImplicit false
set_option autoImplicit false

namespace VoxelBake

/-! ### Files as written -/

/-- A face as written. -/
structure FaceDocument (α : Type) where
  /-- The part of the texture, if written. -/
  uv : Option (UvRect α)
  /-- The reference to the texture. -/
  texture : String
  /-- The name of the side that hides the face, if written. -/
  cullface : Option String
  /-- Angle of the texture in degrees. -/
  rotation : Int
  /-- Which tint colours the face. -/
  tint : Int

/-- The turns of an element as written, in the form for one axis or in the form for three. -/
structure RotationDocument (α : Type) where
  /-- The pivot. -/
  origin : Vec3 α
  /-- The axis of the form for one axis. -/
  axis : Option Axis
  /-- The angle of the form for one axis. -/
  angle : Option α
  /-- The first angle of the form for three axes. -/
  x : Option α
  /-- The second angle of the form for three axes. -/
  y : Option α
  /-- The third angle of the form for three axes. -/
  z : Option α
  /-- Whether the element is stretched. -/
  rescale : Bool

/-- A box as written. -/
structure ElementDocument (α : Type) where
  /-- One corner. -/
  corner : Vec3 α
  /-- The opposite corner. -/
  opposite : Vec3 α
  /-- The turns, if written. -/
  rotation : Option (RotationDocument α)
  /-- Whether directional shading applies. -/
  shade : Bool
  /-- The faces by direction. -/
  faces : Table Direction (FaceDocument α)

/-- A rule that replaces the model of an item once its properties reach given thresholds. -/
structure OverrideRule (α : Type) where
  /-- The threshold of each property. -/
  thresholds : Table String α
  /-- The name of the model that takes over. -/
  model : String

/-- A model file as written. -/
structure ModelDocument (α : Type) where
  /-- The name of the parent, if there is one. -/
  parent : Option String
  /-- The slots, if any are declared. -/
  textures : Option (Table String String)
  /-- The boxes, if any are declared; an empty list is a declaration too. -/
  elements : Option (List (ElementDocument α))
  /-- The readable transforms for known positions. -/
  display : List (DisplayPosition × DisplayTransform α)
  /-- The rules, if any are declared. -/
  overrides : Option (List (OverrideRule α))

namespace ModelDocument

variable {α : Type}

/-- The parent model, if the file names one. -/
def parentId (d : ModelDocument α) : Option Identifier := d.parent.map Identifier.parse

/-- The references that the slots of the file hold. -/
def slotReferences (d : ModelDocument α) : List TextureRef :=
  match d.textures with
  | some t => t.values.map TextureRef.parse
  | none => []

/-- The textures that the slots of the file name without a detour, in order. -/
def directTextures (d : ModelDocument α) : List Identifier :=
  (d.slotReferences.filterMap fun r =>
    match r with
    | .texture id => some id
    | .slot _ => none).mergeSort Identifier.atMost

end ModelDocument

/-! ### Reading a file -/

namespace ModelDocument

open Json

/-- Reads the part of a texture: four numbers. -/
def readUv : Reader (UvRect Float32)
  | .array [a, b, c, d] => do
      some ⟨← Reader.float a, ← Reader.float b, ← Reader.float c, ← Reader.float d⟩
  | _ => none

/-- The smallest and the largest whole number of 32 bits with a sign. -/
def readInt32 : Reader Int := Reader.integer (-0x80000000) 0x7fffffff

/-- Reads a face. -/
def readFace : Reader (FaceDocument Float32) := fun v => do
  let r ← Record.ofValue? ["uv", "texture", "cullface", "rotation", "tintindex"] v
  some
    { uv := ← r.withDefault "uv" (Reader.optional readUv) none
      texture := ← r.required "texture" Reader.text
      cullface := ← r.withDefault "cullface" (Reader.optional Reader.text) none
      rotation := ← r.withDefault "rotation" readInt32 0
      tint := ← r.withDefault "tintindex" readInt32 (-1) }

/-- Reads the turns of an element. -/
def readRotation : Reader (RotationDocument Float32) := fun v => do
  let r ← Record.ofValue? ["origin", "axis", "angle", "x", "y", "z", "rescale"] v
  let angle (name : String) := r.withDefault name (Reader.optional Reader.float) none
  some
    { origin := ← r.withDefault "origin" Reader.vec3 (Vec3.uniform (8 : Nat))
      axis := ← r.withDefault "axis" (Reader.optional (Reader.word Axis.ofName?)) none
      angle := ← angle "angle"
      x := ← angle "x"
      y := ← angle "y"
      z := ← angle "z"
      rescale := ← r.withDefault "rescale" Reader.bool false }

/-- Reads the faces of an element; of two spellings of a direction the later one counts. -/
def readFaces : Reader (Table Direction (FaceDocument Float32))
  | .object members => do
      let entries ← members.mapM fun m => do some (← Direction.ofName? m.1, ← readFace m.2)
      some (Table.ofList entries)
  | _ => none

/-- Reads a box. -/
def readElement : Reader (ElementDocument Float32) := fun v => do
  let r ← Record.ofValue? ["from", "to", "rotation", "shade", "faces"] v
  some
    { corner := ← r.withDefault "from" Reader.vec3 (Vec3.uniform (0 : Nat))
      opposite := ← r.withDefault "to" Reader.vec3 (Vec3.uniform (16 : Nat))
      rotation := ← r.withDefault "rotation" (Reader.optional readRotation) none
      shade := ← r.withDefault "shade" Reader.bool true
      faces := ← r.withDefault "faces" readFaces ∅ }

/-- Reads a rule. -/
def readOverride : Reader (OverrideRule Float32) := fun v => do
  let r ← Record.ofValue? ["predicate", "model"] v
  some
    { thresholds := ← r.withDefault "predicate" (Reader.tableOf Reader.float) ∅
      model := ← r.required "model" Reader.text }

/-- Reads a display transform. -/
def readTransform : Reader (DisplayTransform Float32) := fun v => do
  let r ← Record.ofValue? ["rotation", "translation", "scale"] v
  some
    { rotation := ← r.withDefault "rotation" Reader.vec3 (Vec3.uniform (0 : Nat))
      shift := ← r.withDefault "translation" Reader.vec3 (Vec3.uniform (0 : Nat))
      scale := ← r.withDefault "scale" Reader.vec3 (Vec3.uniform (1 : Nat)) }

/-- Reads the display transforms; those of unknown positions and of a wrong shape are left out. -/
def readDisplay : Reader (List (DisplayPosition × DisplayTransform Float32))
  | .object members =>
      some (members.filterMap fun m => do some (← DisplayPosition.ofName? m.1, ← readTransform m.2))
  | _ => none

/-- The model file behind a document. -/
def ofValue? : Reader (ModelDocument Float32) := fun v => do
  let r ← Record.ofValue? ["parent", "textures", "elements", "display", "overrides"] v
  some
    { parent := ← r.withDefault "parent" (Reader.optional Reader.text) none
      textures := ← r.withDefault "textures"
        (Reader.optional (Reader.tableOf Reader.text)) none
      elements := ← r.withDefault "elements"
        (Reader.optional (Reader.listOf readElement)) none
      display := (← r.withDefault "display" (Reader.optional readDisplay) none).getD []
      overrides := ← r.withDefault "overrides"
        (Reader.optional (Reader.listOf readOverride)) none }

end ModelDocument

/-! ### The meaning of a file -/

section Meaning

variable {α : Type} [Scalar α]

/-- The turns that a file asks for; none if the two forms are mixed or incomplete. -/
def RotationDocument.rotation? (r : RotationDocument α) : Option (ElementRotation α) :=
  let anyOfThree := r.x.isSome || r.y.isSome || r.z.isSome
  let zero : α := (0 : Nat)
  match r.axis, r.angle, anyOfThree with
  | some axis, some angle, false => some ⟨r.origin, .single axis angle, r.rescale⟩
  | none, none, true =>
      some ⟨r.origin, .compound ⟨r.x.getD zero, r.y.getD zero, r.z.getD zero⟩, r.rescale⟩
  | _, _, _ => none

/-- The quarter turns in an angle in degrees; angles between two of them count as none. -/
def faceTurns (degrees : Int) : Nat :=
  if degrees % 90 = 0 then ((degrees / 90) % 4).toNat else 0

/-- A face of a box with the given corners. -/
def Face.ofDocument (low high : Vec3 α) (d : Direction) (f : FaceDocument α) : Face α where
  uv := f.uv.getD (defaultUv d low high)
  texture := TextureRef.parse f.texture
  cull := match f.cullface with
    | some name => CullSide.ofText name
    | none => some d
  rotation := faceTurns f.rotation
  tint := f.tint

/-- The box that a file asks for: corners put in order, faces in the order of `Direction.all`. -/
def Element.ofDocument (e : ElementDocument α) : Element α :=
  let low := Vec3.zipWith Scalar.least e.corner e.opposite
  let high := Vec3.zipWith Scalar.greatest e.corner e.opposite
  { low := low
    high := high
    rotation := e.rotation.bind RotationDocument.rotation?
    shade := e.shade
    faces := Direction.all.filterMap fun d =>
      (e.faces.get? d).map fun f => (d, Face.ofDocument low high d f) }

/-- A model with the declarations of a file laid over it: slots and transforms one by one, boxes
all together. -/
def Model.overlay (m : Model α) (d : ModelDocument α) : Model α where
  textures := match d.textures with
    | some slots => slots.entries.foldl (fun t e => t.insert e.1 (TextureRef.parse e.2)) m.textures
    | none => m.textures
  elements := match d.elements with
    | some elements => elements.map Element.ofDocument
    | none => m.elements
  display := d.display.foldl (fun t e => t.insert e.1 e.2) m.display

end Meaning

end VoxelBake
