/-
Numbers as written.

A `Numeral` is a number before it has a value: a sign, the digits before the point and, if they
were written, the digits after it and the exponent.  A whole numeral that fits into 64 bits (63
with a minus sign) is a whole number; every other one is a double.  The double takes at most as
many leading digits as fit into 64 bits, the rest only shifting the exponent, and scales them by
one power of ten at a time, so it is close to the written number but not always the nearest.

* `Numeral` — the parts of a written number;
* `significand`, `scaled` — leading digits, and their product with a power of ten;
* `Numeral.value?` — the value, `none` when it is too large for a double.
-/
import VoxelBake.Json.Value

set_option relaxedAutoImplicit false
set_option autoImplicit false

namespace VoxelBake.Json

/-- The parts of a written number. -/
structure Numeral where
  /-- Whether a minus sign is written. -/
  negative : Bool
  /-- The digits before the point. -/
  whole : List Nat
  /-- The digits after the point, if there is one. -/
  fraction : Option (List Nat)
  /-- Whether the exponent is negative, and its digits, if there is one. -/
  exponent : Option (Bool × List Nat)

/-- One past the largest number of 64 bits. -/
def wordSize : Nat := 0x10000000000000000

/-- Takes digits into a significand as long as it stays within 64 bits, and counts the digits that
are left over. -/
def significand (start : Nat) : List Nat → Nat × Nat
  | [] => (start, 0)
  | d :: rest =>
      if 10 * start + d < wordSize then significand (10 * start + d) rest
      else (start, rest.length + 1)

/-- A power of ten as a double. -/
def powerOfTen (k : Nat) : Float := Float.ofScientific 1 false k

/-- A double times a power of ten, in steps of at most 308 decimal places; `none` when the result
is too large.  Three steps bring any significand down to zero. -/
def scaled : Nat → Float → Int → Option Float
  | 0, f, _ => some f
  | steps + 1, f, e =>
      if e.natAbs ≤ 308 then
        if 0 ≤ e then
          let g := f * powerOfTen e.natAbs
          if g.isInf then none else some g
        else some (f / powerOfTen e.natAbs)
      else if f == 0 then some f
      else if 0 ≤ e then none
      else scaled steps (f / powerOfTen 308) (e + 308)

namespace Numeral

/-- The number that a list of digits writes. -/
def ofDigits (ds : List Nat) : Nat := ds.foldl (fun n d => 10 * n + d) 0

/-- A magnitude with the sign of the numeral. -/
def signed (n : Numeral) (f : Float) : Number := .real (if n.negative then -f else f)

/-- The value of a numeral as a double: the significand of all digits, its exponent shifted by the
digits left out before the point and those taken after it. -/
def real? (n : Numeral) : Option Number :=
  let (head, dropped) := significand 0 n.whole
  let after := n.fraction.getD []
  let (digits, unused) := significand head after
  let shift : Int := (dropped : Int) - ((after.length - unused : Nat) : Int)
  let start := digits.toUInt64.toFloat
  match n.exponent with
  | none => (scaled 8 start shift).map n.signed
  | some (negativeExponent, ds) =>
      let e := ofDigits ds
      if e < 0x80000000 then
        (scaled 8 start (if negativeExponent then shift - e else shift + e)).map n.signed
      else if digits ≠ 0 && !negativeExponent then none
      else some (n.signed 0)

/-- The value of a numeral; `none` when it is too large for a double. -/
def value? (n : Numeral) : Option Number :=
  match n.fraction, n.exponent with
  | none, none =>
      let m := ofDigits n.whole
      if m < wordSize then
        if !n.negative then some (.whole m)
        else if 0 < m && m ≤ 0x8000000000000000 then some (.negative m)
        else some (.real (-m.toUInt64.toFloat))
      else n.real?
  | _, _ => n.real?

end Numeral

end VoxelBake.Json
