/-
Typed views of documents.

A record of a document is written as an object, in which unknown members do not matter, or as an
array of its fields in their declared order, from which the last ones may be left out.  Each field
is read by a `Reader`; one field that cannot be read spoils the whole record.

* `Reader` — a typed view of a value, `none` when the value has the wrong shape;
* `Reader.bool`, `Reader.text`, `Reader.integer`, `Reader.float`, `Reader.listOf`,
  `Reader.optional`, `Reader.vec3`, `Reader.word` — the basic views;
* `Record`, `Record.ofValue?` — the fields that a value gives;
* `Record.required`, `Record.withDefault` — one field of them.
-/
import VoxelBake.Json.Reader
import VoxelBake.Scalar

set_option relaxedAutoImplicit false
set_option autoImplicit false

namespace VoxelBake.Json

/-- A typed view of a value. -/
abbrev Reader (β : Type) := Value → Option β

namespace Reader

variable {β : Type}

/-- A truth value. -/
def bool : Reader Bool
  | .bool b => some b
  | _ => none

/-- A text. -/
def text : Reader String := Value.asText?

/-- A whole number within a range, not written with a fraction or an exponent. -/
def integer (lo hi : Int) : Reader Int
  | .number n => n.asInt?.bind fun i => if lo ≤ i ∧ i ≤ hi then some i else none
  | _ => none

/-- Any number, as a 32-bit float. -/
def float : Reader Float32
  | .number n => some n.toFloat32
  | _ => none

/-- An array whose items all have a view. -/
def listOf (item : Reader β) : Reader (List β)
  | .array items => items.mapM item
  | _ => none

/-- A view that also takes `null`, for nothing. -/
def optional (reader : Reader β) : Reader (Option β)
  | .null => some none
  | v => (reader v).map some

/-- Exactly three numbers. -/
def vec3 : Reader (Vec3 Float32)
  | .array [x, y, z] => do some ⟨← float x, ← float y, ← float z⟩
  | _ => none

/-- One of a set of words: the word as a text, or as the only member of an object, with the value
`null`. -/
def word (meaning : String → Option β) : Reader β
  | .text s => meaning s
  | .object [(s, .null)] => meaning s
  | _ => none

/-- An object with any names, each value having a view. -/
def tableOf (item : Reader β) : Reader (Table String β)
  | .object members => do
      let entries ← members.mapM fun m => (item m.2).map fun v => (m.1, v)
      some (Table.ofList entries)
  | _ => none

end Reader

/-- The fields of a record that were written. -/
abbrev Record := List (String × Value)

namespace Record

variable {β : Type}

/-- The fields given by a value, for a record with the given field names: the members of an
object, or the items of an array that is not longer than the list of names. -/
def ofValue? (names : List String) : Value → Option Record
  | .object members => some members
  | .array items => if items.length ≤ names.length then some (names.zip items) else none
  | _ => none

/-- A field that has to be written. -/
def required (r : Record) (name : String) (reader : Reader β) : Option β :=
  (r.lookup name).bind reader

/-- A field that may be left out. -/
def withDefault (r : Record) (name : String) (reader : Reader β) (default : β) : Option β :=
  match r.lookup name with
  | some v => reader v
  | none => some default

end Record

end VoxelBake.Json
