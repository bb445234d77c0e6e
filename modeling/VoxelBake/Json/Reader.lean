/-
Reading the text of a document.

Reading goes in two steps.  `Raw.read` checks the grammar alone and keeps everything as written:
numerals, escapes and repeated names.  `Raw.value?` then gives it a meaning, which fails for
nesting deeper than 127 levels, for a numeral beyond every double and for half of a surrogate pair
standing alone.  Parts of a document that nobody looks at need only the first step.

* `Piece`, `decodePieces` — the characters and code units between quotes, and their text;
* `Raw`, `Raw.read` — a document as written;
* `Raw.value?` — its meaning below a given depth;
* `read` — both steps together.
-/
import VoxelBake.Json.Numeral
import VoxelBake.Table

set_option relaxedAutoImplicit false
set_option autoImplicit false

namespace VoxelBake.Json

/-! ### Texts between quotes -/

/-- A piece of a quoted text: a character, or a code unit of 16 bits given by its number. -/
inductive Piece
  | char (c : Char)
  | unit (n : Nat)

/-- The text of a list of pieces; a high code unit has to be followed by a low one. -/
def decodePieces : List Piece → Option (List Char)
  | [] => some []
  | .char c :: rest => (decodePieces rest).map (c :: ·)
  | .unit n :: .unit m :: rest =>
      if 0xD800 ≤ n ∧ n < 0xDC00 then
        if 0xDC00 ≤ m ∧ m < 0xE000 then
          (decodePieces rest).map
            (Char.ofNat (0x10000 + (n - 0xD800) * 0x400 + (m - 0xDC00)) :: ·)
        else none
      else if 0xDC00 ≤ n ∧ n < 0xE000 then none
      else (decodePieces (.unit m :: rest)).map (Char.ofNat n :: ·)
  | .unit n :: rest =>
      if 0xD800 ≤ n ∧ n < 0xE000 then none
      else (decodePieces rest).map (Char.ofNat n :: ·)

/-- The text of a list of pieces. -/
def Piece.text? (ps : List Piece) : Option String := (decodePieces ps).map String.ofList

/-- The value of a hexadecimal digit. -/
def hexValue? (c : Char) : Option Nat :=
  if c.isDigit then some (c.toNat - 48)
  else if 'a' ≤ c ∧ c ≤ 'f' then some (c.toNat - 87)
  else if 'A' ≤ c ∧ c ≤ 'F' then some (c.toNat - 55)
  else none

/-- The character behind a backslash, if a single one stands for it. -/
def escape? (c : Char) : Option Char :=
  [('"', '"'), ('\\', '\\'), ('/', '/'), ('b', '\x08'), ('f', '\x0c'), ('n', '\n'), ('r', '\r'),
    ('t', '\t')].lookup c

/-- The pieces up to the closing quote, and what follows it. -/
def readPieces : List Char → Option (List Piece × List Char)
  | [] => none
  | '"' :: rest => some ([], rest)
  | '\\' :: 'u' :: a :: b :: c :: d :: rest => do
      let a ← hexValue? a
      let b ← hexValue? b
      let c ← hexValue? c
      let d ← hexValue? d
      let (ps, tail) ← readPieces rest
      some (.unit (((a * 16 + b) * 16 + c) * 16 + d) :: ps, tail)
  | '\\' :: c :: rest => do
      let e ← escape? c
      let (ps, tail) ← readPieces rest
      some (.char e :: ps, tail)
  | c :: rest =>
      if c.toNat < 32 then none
      else (readPieces rest).map fun p => (.char c :: p.1, p.2)

/-! ### Numerals -/

/-- The leading digits and what follows them. -/
def readDigits (cs : List Char) : List Nat × List Char :=
  ((cs.takeWhile Char.isDigit).map fun c => c.toNat - 48, cs.dropWhile Char.isDigit)

/-- The fraction, if a point follows; it needs a digit. -/
def readFraction : List Char → Option (Option (List Nat) × List Char)
  | '.' :: rest =>
      match readDigits rest with
      | ([], _) => none
      | (ds, tail) => some (some ds, tail)
  | cs => some (none, cs)

/-- The sign of an exponent, whether it is negative, and what follows it. -/
def readSign : List Char → Bool × List Char
  | '-' :: rest => (true, rest)
  | '+' :: rest => (false, rest)
  | cs => (false, cs)

/-- The exponent, if its mark follows; it needs a digit. -/
def readExponent : List Char → Option (Option (Bool × List Nat) × List Char)
  | c :: rest =>
      if c = 'e' ∨ c = 'E' then
        let (negative, body) := readSign rest
        match readDigits body with
        | ([], _) => none
        | (ds, tail) => some (some (negative, ds), tail)
      else some (none, c :: rest)
  | [] => some (none, [])

/-- A numeral without its sign: no zero leads unless it is the only digit before the point. -/
def readUnsigned (negative : Bool) (cs : List Char) : Option (Numeral × List Char) := do
  let (whole, rest) := readDigits cs
  match whole with
  | [] => none
  | 0 :: _ :: _ => none
  | _ =>
      let (fraction, rest) ← readFraction rest
      let (exponent, rest) ← readExponent rest
      some (⟨negative, whole, fraction, exponent⟩, rest)

/-- A numeral and what follows it. -/
def readNumeral : List Char → Option (Numeral × List Char)
  | '-' :: rest => readUnsigned true rest
  | cs => readUnsigned false cs

/-! ### Documents as written -/

/-- A document as written, repeated names and undecoded texts included. -/
inductive Raw
  | null
  | bool (b : Bool)
  | numeral (n : Numeral)
  | text (ps : List Piece)
  | array (items : List Raw)
  | object (members : List (List Piece × Raw))

/-- The characters that may stand between the parts of a document. -/
def isSpace (c : Char) : Bool := c = ' ' || c = '\n' || c = '\t' || c = '\r'

/-- What follows the spaces. -/
def skipSpaces (cs : List Char) : List Char := cs.dropWhile isSpace

/-- What follows a given word. -/
def afterWord (word : String) (cs : List Char) : Option (List Char) :=
  if word.toList.isPrefixOf cs then some (cs.drop word.length) else none

mutual

/-- A value and what follows it, reading at most `fuel` levels and items. -/
def readRaw : Nat → List Char → Option (Raw × List Char)
  | 0, _ => none
  | fuel + 1, cs =>
      match skipSpaces cs with
      | [] => none
      | '"' :: rest => (readPieces rest).map fun p => (.text p.1, p.2)
      | '[' :: rest =>
          match skipSpaces rest with
          | ']' :: tail => some (.array [], tail)
          | _ => (readItems fuel rest).map fun p => (.array p.1, p.2)
      | '\x7b' :: rest =>
          match skipSpaces rest with
          | '\x7d' :: tail => some (.object [], tail)
          | _ => (readMembers fuel rest).map fun p => (.object p.1, p.2)
      | 'n' :: rest => (afterWord "ull" rest).map fun t => (.null, t)
      | 't' :: rest => (afterWord "rue" rest).map fun t => (.bool true, t)
      | 'f' :: rest => (afterWord "alse" rest).map fun t => (.bool false, t)
      | rest => (readNumeral rest).map fun p => (.numeral p.1, p.2)

/-- The items up to the closing bracket. -/
def readItems : Nat → List Char → Option (List Raw × List Char)
  | 0, _ => none
  | fuel + 1, cs => do
      let (v, rest) ← readRaw fuel cs
      match skipSpaces rest with
      | ']' :: tail => some ([v], tail)
      | ',' :: rest =>
          let (vs, tail) ← readItems fuel rest
          some (v :: vs, tail)
      | _ => none

/-- The members up to the closing brace. -/
def readMembers : Nat → List Char → Option (List (List Piece × Raw) × List Char)
  | 0, _ => none
  | fuel + 1, cs =>
      match skipSpaces cs with
      | '"' :: rest => do
          let (name, rest) ← readPieces rest
          match skipSpaces rest with
          | ':' :: rest =>
              let (v, rest) ← readRaw fuel rest
              match skipSpaces rest with
              | '\x7d' :: tail => some ([(name, v)], tail)
              | ',' :: rest =>
                  let (vs, tail) ← readMembers fuel rest
                  some ((name, v) :: vs, tail)
              | _ => none
          | _ => none
      | _ => none

end

namespace Raw

/-- The document that a whole text writes, spaces around it apart. -/
def read (s : String) : Option Raw := do
  let cs := s.toList
  let (v, rest) ← readRaw (2 * cs.length + 2) cs
  if (skipSpaces rest).isEmpty then some v else none

/-! ### Meaning -/

/-- How many levels of arrays and objects a document may have. -/
def maxDepth : Nat := 127

mutual

/-- The meaning of a document that may still nest `depth` levels. -/
def valueBelow (depth : Nat) : Raw → Option Value
  | null => some .null
  | bool b => some (.bool b)
  | numeral n => n.value?.map .number
  | text ps => (Piece.text? ps).map .text
  | array items =>
      match depth with
      | 0 => none
      | depth + 1 => (itemsBelow depth items).map .array
  | object members =>
      match depth with
      | 0 => none
      | depth + 1 =>
          (membersBelow depth members).map fun ms => .object (Table.ofList ms).entries

/-- The meanings of the items of an array. -/
def itemsBelow (depth : Nat) : List Raw → Option (List Value)
  | [] => some []
  | r :: rest => do
      let v ← valueBelow depth r
      let vs ← itemsBelow depth rest
      some (v :: vs)

/-- The names and meanings of the members of an object, in the order written. -/
def membersBelow (depth : Nat) : List (List Piece × Raw) → Option (List (String × Value))
  | [] => some []
  | (name, r) :: rest => do
      let name ← Piece.text? name
      let v ← valueBelow depth r
      let vs ← membersBelow depth rest
      some ((name, v) :: vs)

end

/-- The meaning of a whole document. -/
def value? (r : Raw) : Option Value := r.valueBelow maxDepth

end Raw

/-- The meaning of the text of a document. -/
def read (s : String) : Option Value := (Raw.read s).bind Raw.value?

end VoxelBake.Json
