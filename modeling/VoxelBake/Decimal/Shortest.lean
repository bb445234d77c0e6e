/-
The fewest decimal digits that identify a double.

A finite double is `mantissa * 2 ^ power`, and the reals that round to it form an interval around
it, ends included when the mantissa is even.  Among the decimals in that interval the shortest is
the one on the coarsest grid `10 ^ k` that meets the interval; if two neighbours on that grid
qualify, the nearer one is taken, and of two equally near ones the even one.

* `Decimal.Dyadic`, `Decimal.Dyadic.ofFloat` — a double taken apart;
* `Decimal.Dyadic.readsBack` — whether a decimal rounds to the double;
* `Decimal.shortest` — the digits and the exponent of the shortest decimal;
* `Decimal.layout`, `Decimal.render` — digits laid out as text.
-/

set_option relaxedAutoImplicit false
set_option autoImplicit false

namespace VoxelBake.Decimal

/-! ### Doubles taken apart -/

/-- The magnitude `mantissa * 2 ^ power` of a finite double. -/
structure Dyadic where
  /-- The integral mantissa. -/
  mantissa : Nat
  /-- The power of two. -/
  power : Int
  /-- Whether the next smaller double is only half as far away as the next larger one. -/
  closeBelow : Bool

/-- The magnitude of a double, `none` if it is infinite or not a number. -/
def Dyadic.ofFloat (x : Float) : Option Dyadic :=
  let bits : Nat := x.toBits.toNat
  let field : Nat := bits / 0x10000000000000 % 0x800
  let fraction : Nat := bits % 0x10000000000000
  if field = 2047 then none
  else if field = 0 then some ⟨fraction, -1074, false⟩
  else some ⟨fraction + 0x10000000000000, (field : Int) - 1075, fraction = 0 && 1 < field⟩

/-- Whether a double has its sign bit set. -/
def isNegative (x : Float) : Bool := 0x8000000000000000 ≤ x.toBits.toNat

namespace Dyadic

/-- Quarter units of the mantissa, scaled so that they compare with `decimalSide`. -/
def quarterSide (d : Dyadic) (k : Int) (quarters : Nat) : Nat :=
  quarters * Nat.pow 2 (d.power - 2).toNat * Nat.pow 10 (-k).toNat

/-- Units of `10 ^ k`, scaled so that they compare with `quarterSide`. -/
def decimalSide (d : Dyadic) (k : Int) (units : Nat) : Nat :=
  units * Nat.pow 10 k.toNat * Nat.pow 2 (2 - d.power).toNat

/-- Whether `units * 10 ^ k` rounds to the double. -/
def readsBack (d : Dyadic) (k : Int) (units : Nat) : Bool :=
  let low := d.quarterSide k (4 * d.mantissa - if d.closeBelow then 1 else 2)
  let high := d.quarterSide k (4 * d.mantissa + 2)
  let here := d.decimalSide k units
  if d.mantissa % 2 = 0 then low ≤ here && here ≤ high else low < here && here < high

/-- The best point of the grid `10 ^ k` that rounds to the double, if any does. -/
def onGrid (d : Dyadic) (k : Int) : Option Nat :=
  let value := d.quarterSide k (4 * d.mantissa)
  let below := value / d.decimalSide k 1
  let above := below + 1
  let gapBelow := value - d.decimalSide k below
  let gapAbove := d.decimalSide k above - value
  match below ≠ 0 && d.readsBack k below, d.readsBack k above with
  | true, true =>
      if gapBelow < gapAbove then some below
      else if gapAbove < gapBelow then some above
      else if below % 2 = 0 then some below else some above
  | true, false => some below
  | false, true => some above
  | false, false => none

/-- The first of `steps` grids, counted down from `10 ^ k`, that has a point rounding to the
double. -/
def search (d : Dyadic) : Nat → Int → Option (Nat × Int)
  | 0, _ => none
  | steps + 1, k =>
      match d.onGrid k with
      | some units => some (units, k)
      | none => d.search steps (k - 1)

end Dyadic

/-- Units and exponent of the shortest decimal that rounds to a double; zero is `0 * 10 ^ 0`. -/
def shortest (d : Dyadic) : Nat × Int :=
  if d.mantissa = 0 then (0, 0) else (d.search 650 310).getD (0, 0)

/-! ### Layout -/

/-- The digits of `units * 10 ^ k`: positional while the point stays within sixteen places of the
first digit and at most five zeros lead, with an exponent otherwise, which always has a sign. -/
def layout (units : Nat) (k : Int) : String :=
  let digits := Nat.toDigits 10 units
  let point := (digits.length : Int) + k
  if units = 0 then "0.0"
  else if 0 ≤ k ∧ point ≤ 16 then
    String.ofList (digits ++ List.replicate k.toNat '0') ++ ".0"
  else if 0 < point ∧ point ≤ 16 then
    String.ofList (digits.take point.toNat ++ '.' :: digits.drop point.toNat)
  else if -5 < point ∧ point ≤ 0 then
    String.ofList ('0' :: '.' :: List.replicate (-point).toNat '0' ++ digits)
  else
    let mark := (if 0 < point then "e+" else "e") ++ toString (point - 1)
    match digits with
    | [d] => String.ofList [d] ++ mark
    | d :: rest => String.ofList (d :: '.' :: rest) ++ mark
    | [] => mark

/-- A finite double as text; anything else is written as `null`. -/
def render (x : Float) : String :=
  match Dyadic.ofFloat x with
  | none => "null"
  | some d =>
      let (units, k) := shortest d
      (if isNegative x then "-" else "") ++ layout units k

end VoxelBake.Decimal
