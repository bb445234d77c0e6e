/-
Documents as trees.

A `Value` is what a document says once its text has been read: the members of an object keep the
order of the text and no name occurs twice.  `Value.compact` writes a value back without blanks.

* `Number` — the three kinds of numbers that a document can hold;
* `Value` — the tree;
* `Value.member?`, `Value.asObject?`, `Value.asArray?`, `Value.asText?` — looking into it;
* `Value.compact` — the text of a tree.
-/
import VoxelBake.Decimal.Shortest

set_option relaxedAutoImplicit false
set_option autoImplicit false

namespace VoxelBake.Json

/-! ### Numbers -/

/-- A number of a document. -/
inductive Number
  /-- A whole number from zero up to 64 bits. -/
  | whole (n : Nat)
  /-- The whole number `-n`, for `n` above zero and up to 63 bits. -/
  | negative (n : Nat)
  /-- A number written with a fraction or an exponent, or too long for the other two kinds. -/
  | real (x : Float)
deriving Inhabited

namespace Number

/-- The whole number, if the number is of one of the two whole kinds. -/
def asInt? : Number → Option Int
  | whole n => some n
  | negative n => some (-(n : Int))
  | real _ => none

/-- The number as a double. -/
def toFloat : Number → Float
  | whole n => n.toUInt64.toFloat
  | negative n => -n.toUInt64.toFloat
  | real x => x

/-- The number as a 32-bit float, rounded once. -/
def toFloat32 : Number → Float32
  | whole n => n.toUInt64.toFloat32
  | negative n => -n.toUInt64.toFloat32
  | real x => x.toFloat32

/-- The number as text. -/
def text : Number → String
  | whole n => toString n
  | negative n => "-" ++ toString n
  | real x => Decimal.render x

end Number

/-! ### Trees -/

/-- What a document says. -/
inductive Value
  | null
  | bool (b : Bool)
  | number (n : Number)
  | text (s : String)
  | array (items : List Value)
  | object (members : List (String × Value))
deriving Inhabited

namespace Value

/-- The value of a member, if this is an object that has it. -/
def member? (name : String) : Value → Option Value
  | object members => members.lookup name
  | _ => none

/-- The members, if this is an object. -/
def asObject? : Value → Option (List (String × Value))
  | object members => some members
  | _ => none

/-- The items, if this is an array. -/
def asArray? : Value → Option (List Value)
  | array items => some items
  | _ => none

/-- The text, if this is one. -/
def asText? : Value → Option String
  | text s => some s
  | _ => none

end Value

/-! ### Writing -/

/-- The lower-case hexadecimal digit of a number below sixteen. -/
def hexDigit (n : Nat) : Char := Nat.digitChar n

/-- One character inside quotes. -/
def escaped (c : Char) : List Char :=
  if c = '"' then ['\\', '"']
  else if c = '\\' then ['\\', '\\']
  else if c = '\n' then ['\\', 'n']
  else if c = '\r' then ['\\', 'r']
  else if c = '\t' then ['\\', 't']
  else if c.toNat = 8 then ['\\', 'b']
  else if c.toNat = 12 then ['\\', 'f']
  else if c.toNat < 32 then
    ['\\', 'u', '0', '0', hexDigit (c.toNat / 16), hexDigit (c.toNat % 16)]
  else [c]

/-- A text between quotes. -/
def quoted (s : String) : String :=
  String.ofList ('"' :: s.toList.flatMap escaped ++ ['"'])

namespace Value

mutual

/-- The text of a value without blanks. -/
def compact : Value → String
  | null => "null"
  | bool b => if b then "true" else "false"
  | number n => n.text
  | text s => quoted s
  | array items => "[" ++ ",".intercalate (compactItems items) ++ "]"
  | object members => "\x7b" ++ ",".intercalate (compactMembers members) ++ "\x7d"

/-- The texts of the items of an array. -/
def compactItems : List Value → List String
  | [] => []
  | v :: rest => compact v :: compactItems rest

/-- The texts of the members of an object. -/
def compactMembers : List (String × Value) → List String
  | [] => []
  | (name, v) :: rest => (quoted name ++ ":" ++ compact v) :: compactMembers rest

end

end Value

end VoxelBake.Json
