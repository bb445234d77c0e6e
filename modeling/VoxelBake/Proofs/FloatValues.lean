/-
**What single-precision floats stand for.**

A stored float stands for a rational number, for a value below or above every number, or for no
number at all.  Comparing floats is comparing what they stand for, so it is transitive; truncation
takes the whole part.  Natural numbers below `2 ^ 24` and the fractional part of a float are exact,
so rounding a float to the nearest natural number rounds what it stands for.

Main definitions:

* `Single.Reading`, `Single.reading` — **what a float stands for**;
* `Single.Reading.AtMost` — the order of these readings;
* `Single.Reading.Near` — the results that a product may be rounded to;
* `Single.Reading.nearestUpTo` — the nearest natural number, held between zero and a bound.

Main results:

* `Single.le_iff`, `Single.le_trans` — floats are compared by what they stand for;
* `Single.reading_natCast`, `Single.truncate_natCast` — natural numbers below `2 ^ 24` are exact;
* `Single.reading_fraction` — the fractional part is exact;
* `Single.near_mul` — how far a product is from the exact one;
* `Single.nearestUpTo_eq` — **floats are rounded as what they stand for**.
-/
import Mathlib
import VoxelBake.Proofs.FloatRounding

set_option relaxedAutoImplicit false
set_option autoImplicit false

namespace VoxelBake

open Float.Model Float.Model.UnpackedFloat

namespace Single

/-! ### Readings -/

/-- **What a float stands for.** -/
inductive Reading
  /-- Less than every number. -/
  | below
  /-- A rational number. -/
  | number (value : ℚ)
  /-- Greater than every number. -/
  | above
  /-- No number. -/
  | notANumber

/-- The reading of a float that is taken apart. -/
def readingOf : UnpackedFloat → Reading
  | .notANumber => .notANumber
  | .infinity .negative => .below
  | .infinity .positive => .above
  | .zero _ => .number 0
  | .finite s m e _ => .number (s.apply m * 2 ^ e)

/-- What a stored float stands for. -/
def reading (x : Float32) : Reading := readingOf x.toModel.unpack

theorem reading_ofModel_pack {f : UnpackedFloat} (h : Canonical f) :
    reading (.ofModel (.pack f)) = readingOf f := congrArg readingOf (unpack_pack h)

/-- Storing a float again changes nothing. -/
theorem ofModel_pack_unpack (x : Float32) : Float32.ofModel (.pack x.toModel.unpack) = x :=
  Float32.ofBits_toBits x

/-! ### Comparison -/

namespace Reading

/-- **One reading is at most another.**  What is not a number compares with nothing. -/
def AtMost : Reading → Reading → Prop
  | .notANumber, _ => False
  | _, .notANumber => False
  | .below, _ => True
  | _, .above => True
  | .number p, .number q => p ≤ q
  | _, _ => False

theorem AtMost.trans {a b c : Reading} (hab : a.AtMost b) (hbc : b.AtMost c) : a.AtMost c := by
  cases a <;> cases b <;> cases c <;> simp_all only [AtMost]
  exact hab.trans hbc

end Reading

/-- A canonical float with the greater exponent has the greater magnitude. -/
theorem magnitude_lt {m n : Nat} {e f : Int} (hm : m < 2 ^ 24) (he : -149 ≤ e)
    (hfull : f = -149 ∨ 2 ^ 23 ≤ n) (hef : e < f) : (m : ℚ) * 2 ^ e < n * 2 ^ f := by
  have hn : 2 ^ 23 ≤ n := hfull.resolve_left (by omega)
  have hm' : (m : ℚ) < 2 ^ 24 := by exact_mod_cast hm
  have hn' : (2 : ℚ) ^ 23 ≤ n := by exact_mod_cast hn
  have hpos : (0 : ℚ) < 2 ^ e := zpow_pos (by norm_num) e
  calc (m : ℚ) * 2 ^ e < 2 ^ 24 * 2 ^ e := mul_lt_mul_of_pos_right hm' hpos
    _ = 2 ^ 23 * 2 ^ (e + 1) := by
        rw [zpow_add_one₀ (by norm_num)]
        ring
    _ ≤ 2 ^ 23 * 2 ^ f := by
        refine mul_le_mul_of_nonneg_left ?_ (by positivity)
        exact zpow_le_zpow_right₀ (by norm_num) (by omega)
    _ ≤ n * 2 ^ f := mul_le_mul_of_nonneg_right hn' (zpow_pos (by norm_num) f).le

/-- Magnitudes are compared by exponents, then by mantissas. -/
theorem isLE_compare_iff {m n : Nat} {e f : Int} (hm : m < 2 ^ 24) (hn : n < 2 ^ 24)
    (he : -149 ≤ e) (hf : -149 ≤ f) (hme : e = -149 ∨ 2 ^ 23 ≤ m) (hnf : f = -149 ∨ 2 ^ 23 ≤ n) :
    ((compare e f).then (compare m n)).isLE = true ↔ (m : ℚ) * 2 ^ e ≤ n * 2 ^ f := by
  rcases lt_trichotomy e f with hlt | rfl | hgt
  · have := magnitude_lt hm he hnf hlt
    simp [Int.compare_eq_lt.2 hlt, this.le]
  · have hpos : (0 : ℚ) < 2 ^ e := zpow_pos (by norm_num) e
    rw [mul_le_mul_iff_left₀ hpos, Nat.cast_le, Int.compare_eq_eq.2 rfl]
    exact Nat.isLE_compare
  · have := magnitude_lt hn hf hme hgt
    simp [Int.compare_eq_gt.2 hgt, this]

/-- The same for negative floats, which are compared the other way. -/
theorem isLE_compare_swap_iff {m n : Nat} {e f : Int} (hm : m < 2 ^ 24) (hn : n < 2 ^ 24)
    (he : -149 ≤ e) (hf : -149 ≤ f) (hme : e = -149 ∨ 2 ^ 23 ≤ m) (hnf : f = -149 ∨ 2 ^ 23 ≤ n) :
    ((compare e f).then (compare m n)).swap.isLE = true ↔ (n : ℚ) * 2 ^ f ≤ m * 2 ^ e := by
  rw [Ordering.swap_then, Int.compare_swap, Nat.compare_swap]
  exact isLE_compare_iff hn hm hf he hnf hme

theorem readingOf_positive {m : Nat} {e : Int} (h : 0 < m) :
    readingOf (.finite .positive m e h) = .number (m * 2 ^ e) := rfl

theorem readingOf_negative {m : Nat} {e : Int} (h : 0 < m) :
    readingOf (.finite .negative m e h) = .number (-(m * 2 ^ e)) := by
  rw [readingOf, Sign.apply]
  push_cast
  rw [neg_mul]

theorem magnitude_pos {m : Nat} (e : Int) (h : 0 < m) : (0 : ℚ) < m * 2 ^ e :=
  mul_pos (by exact_mod_cast h) (zpow_pos (by norm_num) e)

/-- Floats with mantissas are compared by what they stand for. -/
theorem le_finite_iff {s t : Sign} {m n : Nat} {e f : Int} {h : 0 < m} {k : 0 < n}
    (hx : Canonical (.finite s m e h)) (hy : Canonical (.finite t n f k)) :
    UnpackedFloat.le (.finite s m e h) (.finite t n f k) = true ↔
      (readingOf (.finite s m e h)).AtMost (readingOf (.finite t n f k)) := by
  have hm' := magnitude_pos e h
  have hn' := magnitude_pos f k
  obtain _ | _ | _ | ⟨_, _, hm, he, -, hme⟩ := hx
  obtain _ | _ | _ | ⟨_, _, hn, hf, -, hnf⟩ := hy
  cases s <;> cases t
  case negative.negative =>
    rw [readingOf_negative, readingOf_negative, Reading.AtMost, neg_le_neg_iff]
    exact isLE_compare_swap_iff hm hn he hf hme hnf
  case negative.positive =>
    rw [readingOf_negative, readingOf_positive, Reading.AtMost]
    exact iff_of_true rfl (by linarith)
  case positive.negative =>
    rw [readingOf_negative, readingOf_positive, Reading.AtMost]
    exact iff_of_false Bool.false_ne_true (by linarith)
  case positive.positive =>
    rw [readingOf_positive, readingOf_positive, Reading.AtMost]
    exact isLE_compare_iff hm hn he hf hme hnf

/-- **Floats are compared by what they stand for.** -/
theorem le_iff (x y : Float32) : x ≤ y ↔ (reading x).AtMost (reading y) := by
  have hle : x ≤ y ↔ UnpackedFloat.le x.toModel.unpack y.toModel.unpack = true :=
    decide_eq_true_iff
  rw [hle, reading, reading]
  have hx := canonical_unpack x
  have hy := canonical_unpack y
  generalize x.toModel.unpack = u at hx ⊢
  generalize y.toModel.unpack = v at hy ⊢
  cases u with
  | notANumber => exact iff_of_false Bool.false_ne_true id
  | infinity s =>
      cases v with
      | infinity t =>
          cases s <;> cases t <;>
            first
              | exact iff_of_true rfl trivial
              | exact iff_of_false Bool.false_ne_true id
      | _ =>
          cases s <;> simp [UnpackedFloat.le, UnpackedFloat.compare, readingOf, Reading.AtMost]
  | zero s =>
      cases v with
      | finite t n f k =>
          have hpos := magnitude_pos f k
          cases t
          · rw [readingOf_negative]
            exact iff_of_false Bool.false_ne_true (by simpa [readingOf, Reading.AtMost])
          · rw [readingOf_positive]
            exact iff_of_true rfl hpos.le
      | infinity t =>
          cases t <;> simp [UnpackedFloat.le, UnpackedFloat.compare, readingOf, Reading.AtMost]
      | _ => simp [UnpackedFloat.le, UnpackedFloat.compare, readingOf, Reading.AtMost]
  | finite s m e h =>
      cases v with
      | finite t n f k => exact le_finite_iff hx hy
      | zero t =>
          have hpos := magnitude_pos e h
          cases s
          · rw [readingOf_negative]
            exact iff_of_true rfl (neg_nonpos.2 hpos.le)
          · rw [readingOf_positive]
            exact iff_of_false Bool.false_ne_true (not_le.2 hpos)
      | infinity t =>
          cases s <;> cases t <;>
            simp [UnpackedFloat.le, UnpackedFloat.compare, readingOf, Reading.AtMost]
      | notANumber => cases s <;> exact iff_of_false Bool.false_ne_true id

protected theorem le_trans {x y z : Float32} (hxy : x ≤ y) (hyz : y ≤ z) : x ≤ z :=
  (le_iff x z).2 (((le_iff x y).1 hxy).trans ((le_iff y z).1 hyz))

/-! ### Whole parts -/

/-- The whole part of a reading as a number of 32 bits. -/
def Reading.truncate : Reading → Nat
  | .number q => min ⌊q⌋₊ (2 ^ 32 - 1)
  | .above => 2 ^ 32 - 1
  | _ => 0

/-- **Truncation takes the whole part of what a float stands for.** -/
theorem truncate_eq (x : Float32) : Scalar.truncate x = (reading x).truncate := by
  change (UnpackedFloat.toUInt32 x.toModel.unpack).toNat = (readingOf x.toModel.unpack).truncate
  generalize x.toModel.unpack = u
  rw [UnpackedFloat.toUInt32, toNat_ofNatClamp]
  cases u with
  | notANumber => rfl
  | infinity s => cases s <;> rfl
  | zero s => simp [UnpackedFloat.toInt, readingOf, Reading.truncate]
  | finite s m e h =>
      cases s with
      | positive => rw [readingOf_positive, Reading.truncate, ← toNat_roundToInt]; rfl
      | negative =>
          have hpos := magnitude_pos e h
          rw [readingOf_negative, Reading.truncate, Nat.floor_of_nonpos (by linarith)]
          simp [UnpackedFloat.toInt, roundToInt, Sign.apply]

/-! ### Exact results -/

/-- **A value of 24 bits is not rounded.** -/
theorem reading_round {s : Sign} {d : Nat} {g : Int} (hpos : 0 < d) (hd : d < 2 ^ 24)
    (hg : -149 ≤ g) (hg' : g ≤ 104) :
    reading (.ofModel (.pack (UnpackedFloat.round Format.binary32 s d g)))
      = .number (s.apply d * 2 ^ g) := by
  have hlog : d.log2 < 24 := (Nat.log2_lt (Nat.ne_of_gt hpos)).2 hd
  obtain ⟨t, ht⟩ : ∃ t : Int, t = max ((d.log2 : Int) + g - 23) (-149) := ⟨_, rfl⟩
  obtain ⟨k, hk⟩ := Int.eq_ofNat_of_zero_le (show 0 ≤ g - t by omega)
  -- the mantissa is made as long as the exponent allows
  have hlong := log2_shiftLeft (Nat.ne_of_gt hpos) k
  have hpos' : 0 < d <<< k := Nat.shiftLeft_pos_iff.2 hpos
  have hround : UnpackedFloat.round Format.binary32 s d g = .finite s (d <<< k) t hpos' := by
    have hdown : decreaseExponent d g t = (d <<< k, t) := by
      simp only [decreaseExponent, hk, Int.toNat_natCast, Prod.mk.injEq, true_and]
      omega
    rw [UnpackedFloat.round, targetExponent_eq, ← ht, hdown]
    refine roundWithAccuracy_of_le hpos' ?_
    rw [targetExponent_eq, hlong]
    omega
  have hcanonical : Canonical (.finite s (d <<< k) t hpos') := by
    refine .finite s hpos' ?_ (by omega) (by omega) ?_
    · rw [← Nat.log2_lt (Nat.ne_of_gt hpos'), hlong]
      omega
    · refine or_iff_not_imp_left.2 fun hne => ?_
      rw [← Nat.le_log2 (Nat.ne_of_gt hpos'), hlong]
      omega
  have hvalue : (s.apply (d <<< k : Nat) : ℚ) * 2 ^ t = s.apply d * 2 ^ g := by
    obtain rfl : g = k + t := by omega
    rw [zpow_add₀ (by norm_num), zpow_natCast, Nat.shiftLeft_eq]
    cases s <;> simp only [Sign.apply] <;> push_cast <;> ring
  rw [hround, reading_ofModel_pack hcanonical, readingOf, hvalue]

/-- **A natural number of 24 bits is exact.** -/
theorem reading_natCast {n : Nat} (hn : n < 2 ^ 24) : reading (n : Float32) = .number n := by
  rw [natCast_eq (by omega)]
  rcases Nat.eq_zero_or_pos n with rfl | hpos
  · exact (reading_ofModel_pack (.zero .positive)).trans (by simp [readingOf])
  · rw [UnpackedFloat.normalize, Int.compare_eq_gt.2 (by omega)]
    refine (reading_round hpos hn (by norm_num) (by norm_num)).trans ?_
    simp [Sign.apply]

/-- What a natural number of 24 bits is cut to is the number. -/
theorem truncate_natCast {n : Nat} (hn : n < 2 ^ 24) : Scalar.truncate (n : Float32) = n := by
  rw [truncate_eq, reading_natCast hn, Reading.truncate, Nat.floor_natCast]
  omega

/-- Zero has no mantissa. -/
theorem unpack_zero : ((0 : Nat) : Float32).toModel.unpack = .zero .positive :=
  unpack_pack (.zero .positive)

/-- Subtracting zero changes no reading. -/
theorem reading_sub_zero (x : Float32) : reading (x - ((0 : Nat) : Float32)) = reading x := by
  have hsub : x - ((0 : Nat) : Float32) = .ofModel (.pack (UnpackedFloat.sub Format.binary32
      x.toModel.unpack (.zero .positive))) := by
    rw [← unpack_zero]
    rfl
  have hx : reading (.ofModel (.pack x.toModel.unpack)) = reading x :=
    congrArg reading (ofModel_pack_unpack x)
  rw [hsub]
  generalize hu : x.toModel.unpack = u at hx ⊢
  cases u with
  | zero s =>
      rw [← hx]
      cases s <;> rfl
  | _ => exact hx

/-- A float of at least one has a positive mantissa and a unit no smaller than `2 ^ (-23)`. -/
theorem unpack_of_one_le {x : Float32} {q : ℚ} (hx : reading x = .number q) (hq : 1 ≤ q) :
    ∃ m e h, x.toModel.unpack = .finite .positive m e h ∧ (m : ℚ) * 2 ^ e = q ∧ -23 ≤ e ∧
      e ≤ 104 ∧ 2 ^ 23 ≤ m := by
  have hcanonical := canonical_unpack x
  rw [reading] at hx
  generalize x.toModel.unpack = u at hx hcanonical
  cases hcanonical with
  | notANumber => exact Reading.noConfusion hx
  | infinity s => cases s <;> exact Reading.noConfusion hx
  | zero s =>
      have := Reading.number.inj hx
      linarith
  | @finite s m e h hm he he' hfull =>
      cases s with
      | negative =>
          have hvalue := Reading.number.inj ((readingOf_negative h).symm.trans hx)
          have := magnitude_pos e h
          linarith
      | positive =>
          have hvalue : (m : ℚ) * 2 ^ e = q :=
            Reading.number.inj ((readingOf_positive h).symm.trans hx)
          have hm' : (m : ℚ) < 2 ^ 24 := by exact_mod_cast hm
          have hlt : (2 : ℚ) ^ (0 : Int) < 2 ^ (24 + e) := by
            calc (2 : ℚ) ^ (0 : Int) ≤ m * 2 ^ e := by rwa [zpow_zero, hvalue]
              _ < 2 ^ 24 * 2 ^ e := mul_lt_mul_of_pos_right hm' (zpow_pos (by norm_num) e)
              _ = 2 ^ (24 + e) := by
                  rw [zpow_add₀ (by norm_num)]
                  rfl
          have hunit := (zpow_lt_zpow_iff_right₀ (by norm_num : (1 : ℚ) < 2)).1 hlt
          exact ⟨m, e, h, rfl, hvalue, by omega, he', hfull.resolve_left (by omega)⟩

/-- Writing a value with a smaller unit makes its mantissa longer. -/
theorem decreaseExponent_value (m : Nat) {e f : Int} (h : f ≤ e) :
    ((decreaseExponent m e f).1 : ℚ) * 2 ^ f = m * 2 ^ e := by
  obtain ⟨k, hk⟩ := Int.eq_ofNat_of_zero_le (sub_nonneg.2 h)
  obtain rfl : e = k + f := by omega
  simp only [decreaseExponent, hk, Int.toNat_natCast, Nat.shiftLeft_eq]
  rw [zpow_add₀ (by norm_num), zpow_natCast]
  push_cast
  ring

/-- **The difference of two floats that lie within one of each other is exact.** -/
theorem reading_sub {x y : Float32} {p q : ℚ} (hx : reading x = .number p)
    (hy : reading y = .number q) (hq : 1 ≤ q) (hle : q ≤ p) (hclose : p - q < 1) :
    reading (x - y) = .number (p - q) := by
  obtain ⟨m, e, hm, hxu, hmv, he, he', -⟩ := unpack_of_one_le hx (hq.trans hle)
  obtain ⟨n, f, hn, hyu, hnv, hf, hf', -⟩ := unpack_of_one_le hy hq
  obtain ⟨g, hg⟩ : ∃ g, g = min e f := ⟨_, rfl⟩
  obtain ⟨d, hd⟩ : ∃ d : Int, d = (decreaseExponent m e g).1 - (decreaseExponent n f g).1 :=
    ⟨_, rfl⟩
  have hsub : x - y = .ofModel (.pack (UnpackedFloat.normalize Format.binary32 d g .positive)) := by
    change Float32.ofModel (.pack (UnpackedFloat.sub Format.binary32 x.toModel.unpack
      y.toModel.unpack)) = _
    rw [hxu, hyu, hd, hg]
    rfl
  have hvalue : (d : ℚ) * 2 ^ g = p - q := by
    rw [hd, Int.cast_sub, Int.cast_natCast, Int.cast_natCast, sub_mul,
      decreaseExponent_value m (by omega), decreaseExponent_value n (by omega), hmv, hnv]
  have hunit : (0 : ℚ) < 2 ^ g := zpow_pos (by norm_num) g
  have hnonneg : 0 ≤ d := by
    have : (0 : ℚ) ≤ d := nonneg_of_mul_nonneg_left (hvalue ▸ sub_nonneg.2 hle) hunit
    exact_mod_cast this
  -- the difference is less than one, and the unit is not that small
  have hshort : d < 2 ^ 24 := by
    have hsmall : (2 : ℚ) ^ (-24 : Int) ≤ 2 ^ g := zpow_le_zpow_right₀ (by norm_num) (by omega)
    have hlt : (d : ℚ) * 2 ^ (-24 : Int) < 1 := by
      calc (d : ℚ) * 2 ^ (-24 : Int) ≤ d * 2 ^ g :=
            mul_le_mul_of_nonneg_left hsmall (by exact_mod_cast hnonneg)
        _ < 1 := hvalue ▸ hclose
    have : (d : ℚ) < 2 ^ 24 := by
      rw [zpow_neg, ← div_eq_mul_inv, div_lt_one (by positivity)] at hlt
      exact hlt
    exact_mod_cast this
  rw [hsub]
  rcases hnonneg.eq_or_lt with rfl | hpos
  · refine (reading_ofModel_pack (.zero .positive)).trans ?_
    rw [readingOf, ← hvalue, Int.cast_zero, zero_mul]
  · rw [UnpackedFloat.normalize, Int.compare_eq_gt.2 hpos]
    refine (reading_round (by omega) (by omega) (by omega) (by omega)).trans ?_
    rw [Sign.apply, Int.toNat_of_nonneg hnonneg, hvalue]

/-- **The fractional part of a float is exact.** -/
theorem reading_fraction {x : Float32} {q : ℚ} (hx : reading x = .number q) (hq : 0 ≤ q)
    (hq' : q < 2 ^ 24) : reading (x - ((⌊q⌋₊ : Nat) : Float32)) = .number (q - ⌊q⌋₊) := by
  rcases Nat.eq_zero_or_pos ⌊q⌋₊ with hzero | hpos
  · rw [hzero, reading_sub_zero, hx, Nat.cast_zero, sub_zero]
  · have hshort : ⌊q⌋₊ < 2 ^ 24 := (Nat.floor_lt hq).2 (by exact_mod_cast hq')
    have hlt := Nat.lt_floor_add_one q
    refine reading_sub hx (reading_natCast hshort) ?_ (Nat.floor_le hq) (by linarith)
    exact_mod_cast hpos

/-! ### Rounded results -/

/-- The least positive float. -/
def least : ℚ := 2 ^ (-149 : Int)

theorem least_pos : 0 < least := zpow_pos (by norm_num) _

theorem least_lt : least < 1 / 4 := by norm_num [least]

/-- **A reading is a number up to the error of one rounding**; numbers that are too large to be
floats become infinite. -/
def Reading.Near (v : ℚ) : Reading → Prop
  | .number r => |r - v| ≤ |v| * slack + least
  | .above => 2 ^ 127 ≤ v
  | .below => v ≤ -2 ^ 127
  | .notANumber => False

/-- A sign does not change how far two values are apart. -/
theorem abs_apply_sub (s : Sign) (m n : Nat) (u v : ℚ) :
    |(s.apply m : ℚ) * u - s.apply n * v| = |m * u - n * v| := by
  cases s with
  | positive => simp [Sign.apply]
  | negative =>
      simp only [Sign.apply]
      push_cast
      rw [abs_sub_comm]
      ring_nf

/-- A float whose exponent is too great is infinite. -/
theorem reading_of_overflow {s : Sign} {m : Nat} {e : Int} (h : 0 < m) (he : 105 ≤ e) :
    reading (.ofModel (.pack (.finite s m e h))) = readingOf (.infinity s) := by
  have hpack : Float32.Model.pack (.finite s m e h) = .pack (.infinity s) := by
    have hrange : 2 ^ Format.binary32.exponentBits ≤ (e + Format.binary32.exponentBias
        + Format.binary32.mantissaBitsWithoutImplicit).toNat + 1 := by
      simp only [Format.exponentBias]
      omega
    simp only [Float32.Model.pack, UnpackedFloat.pack, if_pos hrange]
  rw [hpack, reading_ofModel_pack (.infinity s)]

/-- **Rounding a long mantissa** moves its value by less than one unit of the result. -/
theorem near_roundWithAccuracy {s : Sign} {m : Nat} {e : Int} (hm : 23 ≤ m.log2) :
    (reading (.ofModel (.pack (roundWithAccuracy Format.binary32 s m e .exact)))).Near
      (s.apply m * 2 ^ e) := by
  have hm0 : m ≠ 0 := by
    rintro rfl
    rw [Nat.log2_zero] at hm
    omega
  have hne : (2 : ℚ) ≠ 0 := by norm_num
  obtain ⟨t, ht⟩ : ∃ t : Int, t = max ((m.log2 : Int) + e - 23) (-149) := ⟨_, rfl⟩
  obtain ⟨k, hk⟩ := Int.eq_ofNat_of_zero_le (show 0 ≤ t - e by omega)
  obtain ⟨r, hlow, hhigh, hround⟩ := roundWithAccuracy_eq (s := s) .exact hm0 ht (by omega)
  have hnat : (t - e).toNat = k := by omega
  rw [hnat] at hlow hhigh
  have hpos : (0 : ℚ) < 2 ^ e := zpow_pos (by norm_num) e
  have hunit : (2 : ℚ) ^ t = 2 ^ k * 2 ^ e := by
    obtain rfl : t = k + e := by omega
    rw [zpow_add₀ hne, zpow_natCast]
  -- the value of the highest bit
  have hlead : (2 : ℚ) ^ ((m.log2 : Int) + e) ≤ m * 2 ^ e := by
    rw [zpow_add₀ hne, zpow_natCast]
    refine mul_le_mul_of_nonneg_right ?_ hpos.le
    exact_mod_cast Nat.log2_self_le hm0
  have hvalue : |(s.apply m : ℚ) * 2 ^ e| = m * 2 ^ e := by
    have := abs_apply_sub s m 0 (2 ^ e) 0
    rw [mul_zero, mul_zero, sub_zero, sub_zero] at this
    rw [this, abs_of_nonneg (mul_nonneg m.cast_nonneg hpos.le)]
  have hclose : |(r : ℚ) * 2 ^ t - m * 2 ^ e| ≤ 2 ^ t := by
    have hfloor : (m / 2 ^ k : Nat) * 2 ^ k ≤ m := Nat.div_mul_le_self m _
    have hnext : m < 2 ^ k * (m / 2 ^ k + 1) := Nat.lt_mul_div_succ m (Nat.two_pow_pos k)
    have h₁ : r * 2 ^ k ≤ m + 2 ^ k := by nlinarith
    have h₂ : m ≤ r * 2 ^ k + 2 ^ k := by nlinarith
    have h₁' : (r : ℚ) * 2 ^ k ≤ m + 2 ^ k := by exact_mod_cast h₁
    have h₂' : (m : ℚ) ≤ r * 2 ^ k + 2 ^ k := by exact_mod_cast h₂
    rw [hunit, ← mul_assoc, ← sub_mul, abs_mul, abs_of_pos hpos]
    exact mul_le_mul_of_nonneg_right (abs_sub_le_iff.2 ⟨by linarith, by linarith⟩) hpos.le
  have hslack : (2 : ℚ) ^ t ≤ |(s.apply m : ℚ) * 2 ^ e| * slack + least := by
    have hleast := least_pos
    have hscaled : (0 : ℚ) ≤ m * 2 ^ e * slack :=
      mul_nonneg (mul_nonneg m.cast_nonneg hpos.le) slack_pos.le
    rw [hvalue]
    rcases max_choice ((m.log2 : Int) + e - 23) (-149) with h | h
    · have hsplit : (2 : ℚ) ^ t = 2 ^ ((m.log2 : Int) + e) * slack := by
        rw [ht, h, zpow_sub₀ hne, slack]
        rfl
      rw [hsplit]
      have := mul_le_mul_of_nonneg_right hlead slack_pos.le
      linarith
    · have hunit : (2 : ℚ) ^ t = least := by rw [ht, h, least]
      linarith
  rcases hround with ⟨rfl, hround⟩ | ⟨m', e', h, hround, hlt, hfull, hsame⟩
  · rw [hround, reading_ofModel_pack (.zero s), readingOf, Reading.Near, zero_sub, abs_neg]
    rw [Nat.cast_zero, zero_mul, zero_sub, abs_neg, abs_of_nonneg (by positivity), ← hvalue]
      at hclose
    exact hclose.trans hslack
  · have hvalue' : (m' : ℚ) * 2 ^ e' = r * 2 ^ t := by
      rcases hsame with ⟨rfl, rfl⟩ | ⟨rfl, rfl, rfl⟩
      · rfl
      · rw [zpow_add_one₀ hne]
        push_cast
        ring
    rw [hround]
    rcases le_or_gt e' 104 with he' | he'
    · rw [reading_ofModel_pack (.finite s h hlt (by omega) he' hfull), readingOf, Reading.Near,
        abs_apply_sub, hvalue']
      exact hclose.trans hslack
    · have hpow : (2 : ℚ) ^ (127 : Int) ≤ 2 ^ ((m.log2 : Int) + e) :=
        zpow_le_zpow_right₀ (by norm_num) (by omega)
      have hgreat : (2 : ℚ) ^ 127 ≤ m * 2 ^ e := by exact_mod_cast hpow.trans hlead
      rw [reading_of_overflow h (by omega)]
      cases s with
      | positive => exact hgreat
      | negative =>
          simp only [readingOf, Reading.Near, Sign.apply]
          push_cast
          linarith

/-- A product with a float that is at least one. -/
theorem mul_eq {y : Float32} {q : ℚ} (hy : reading y = .number q) (hq : 1 ≤ q) :
    ∃ (n : Nat) (f : Int) (h : 0 < n), (n : ℚ) * 2 ^ f = q ∧ 2 ^ 23 ≤ n ∧ ∀ x : Float32,
      x * y = .ofModel (.pack (UnpackedFloat.mul Format.binary32 x.toModel.unpack
        (.finite .positive n f h))) := by
  obtain ⟨n, f, h, hyu, hvalue, -, -, hfull⟩ := unpack_of_one_le hy hq
  refine ⟨n, f, h, hvalue, hfull, fun x => ?_⟩
  rw [← hyu]
  rfl

/-- **The product of a number with one that is at least one.** -/
theorem near_mul {x y : Float32} {p q : ℚ} (hx : reading x = .number p)
    (hy : reading y = .number q) (hq : 1 ≤ q) : (reading (x * y)).Near (p * q) := by
  obtain ⟨n, f, hn, hnv, hfull, hmul⟩ := mul_eq hy hq
  rw [hmul]
  rw [reading] at hx
  generalize x.toModel.unpack = u at hx ⊢
  cases u with
  | notANumber => exact Reading.noConfusion hx
  | infinity s => cases s <;> exact Reading.noConfusion hx
  | zero s =>
      obtain rfl : 0 = p := Reading.number.inj hx
      refine (congrArg (Reading.Near (0 * q)) (reading_ofModel_pack (.zero _))).mpr ?_
      simpa only [readingOf, Reading.Near, zero_mul, sub_zero, abs_zero, zero_add] using
        least_pos.le
  | finite s m e hm =>
      have hlong : 23 ≤ (m * n).log2 := by
        refine (Nat.le_log2 (Nat.ne_of_gt (Nat.mul_pos hm hn))).2 ?_
        exact hfull.trans (Nat.le_mul_of_pos_left n hm)
      have hsign : s * .positive = s := by cases s <;> rfl
      have hvalue : ((s * .positive).apply (m * n : Nat) : ℚ) * 2 ^ (e + f) = p * q := by
        rw [hsign, ← Reading.number.inj hx, ← hnv, zpow_add₀ (by norm_num)]
        cases s <;> simp only [Sign.apply] <;> push_cast <;> ring
      exact hvalue ▸ near_roundWithAccuracy hlong

/-- What is infinite or no number stays so in such a product. -/
theorem reading_mul_of_ne_number {x y : Float32} {q : ℚ} (hx : ∀ p, reading x ≠ .number p)
    (hy : reading y = .number q) (hq : 1 ≤ q) : reading (x * y) = reading x := by
  obtain ⟨n, f, hn, -, -, hmul⟩ := mul_eq hy hq
  rw [hmul]
  rw [reading] at hx
  change _ = readingOf x.toModel.unpack
  generalize x.toModel.unpack = u at hx ⊢
  cases u with
  | notANumber => exact reading_ofModel_pack .notANumber
  | infinity s => cases s <;> exact reading_ofModel_pack (.infinity _)
  | zero s => exact absurd rfl (hx 0)
  | finite s m e h => exact absurd rfl (hx _)

/-! ### Rounding to natural numbers -/

/-- The nearest natural number to a reading, held between zero and a bound.  A half goes up, which
below zero makes no difference; what is not a number gives zero. -/
def Reading.nearestUpTo (cap : Nat) : Reading → Nat
  | .number q => (min (cap : Int) (max 0 (round q))).toNat
  | .above => cap
  | _ => 0

theorem Reading.nearestUpTo_le (cap : Nat) (r : Reading) : r.nearestUpTo cap ≤ cap := by
  cases r with
  | number q =>
      rw [Reading.nearestUpTo]
      omega
  | above => exact Nat.le_refl cap
  | below => exact Nat.zero_le cap
  | notANumber => exact Nat.zero_le cap

theorem Reading.nearestUpTo_of_le {cap : Nat} {q : ℚ} (h : (cap : ℚ) ≤ q) :
    (Reading.number q).nearestUpTo cap = cap := by
  have hround : (cap : Int) ≤ round q := by
    rw [round_eq, Int.le_floor]
    push_cast
    linarith
  rw [nearestUpTo]
  omega

theorem Reading.nearestUpTo_of_nonpos {cap : Nat} {q : ℚ} (h : q ≤ 0) :
    (Reading.number q).nearestUpTo cap = 0 := by
  have hround : round q < 1 := by
    rw [round_eq, Int.floor_lt]
    push_cast
    linarith
  rw [nearestUpTo]
  omega

/-- One half is exact. -/
theorem reading_half : reading ((1 : Nat) / (2 : Nat) : Float32) = .number (1 / 2) := by
  have hhalf : ((1 : Nat) / (2 : Nat) : Float32).toModel.unpack
      = .finite .positive (2 ^ 23) (-24) (by decide) := rfl
  rw [reading, hhalf, readingOf_positive]
  norm_num

/-- Rounding adds one to the whole part if what is left is at least one half. -/
theorem toNat_max_round (q : ℚ) :
    (max 0 (round q)).toNat = if 1 / 2 ≤ q - ⌊q⌋₊ then ⌊q⌋₊ + 1 else ⌊q⌋₊ := by
  rw [round_eq]
  rcases lt_or_ge q 0 with hneg | hnonneg
  · rw [Nat.floor_of_nonpos hneg.le, if_neg (by push_cast; linarith)]
    have : ⌊q + 1 / 2⌋ < 1 := Int.floor_lt.2 (by push_cast; linarith)
    omega
  · have hle := Nat.floor_le hnonneg
    have hlt := Nat.lt_floor_add_one q
    split
    · have : ⌊q + 1 / 2⌋ = (⌊q⌋₊ : Int) + 1 :=
        Int.floor_eq_iff.2 (by push_cast; constructor <;> linarith)
      omega
    · have : ⌊q + 1 / 2⌋ = (⌊q⌋₊ : Int) :=
        Int.floor_eq_iff.2 (by push_cast; constructor <;> linarith)
      omega

/-- What is left of a reading below a bound when its whole part is taken away. -/
theorem reading_sub_truncate {x : Float32} {q : ℚ} {cap : Nat} (hcap : cap < 2 ^ 24)
    (hx : reading x = .number q) (hq : q < cap) :
    Scalar.truncate x = ⌊q⌋₊ ∧
      reading (x - ((Scalar.truncate x : Nat) : Float32)) = .number (q - ⌊q⌋₊) := by
  have hcap' : (cap : ℚ) < 2 ^ 24 := by exact_mod_cast hcap
  have hwhole : Scalar.truncate x = ⌊q⌋₊ := by
    have : ⌊q⌋₊ ≤ cap := Nat.floor_le_of_le hq.le
    rw [truncate_eq, hx, Reading.truncate]
    omega
  refine ⟨hwhole, ?_⟩
  rw [hwhole]
  rcases lt_or_ge q 0 with hneg | hnonneg
  · rw [Nat.floor_of_nonpos hneg.le, reading_sub_zero, hx, Nat.cast_zero, sub_zero]
  · exact reading_fraction hx hnonneg (hq.trans hcap')

/-- **Floats are rounded to natural numbers as what they stand for.** -/
theorem nearestUpTo_eq {cap : Nat} (hcap : cap < 2 ^ 24) (x : Float32) :
    Scalar.nearestUpTo cap x = (reading x).nearestUpTo cap := by
  have hle : (cap : Float32) ≤ x ↔ (Reading.number cap).AtMost (reading x) := by
    rw [le_iff, reading_natCast hcap]
  have hhalf : ∀ y : Float32, ((1 : Nat) / (2 : Nat) : Float32) ≤ y ↔
      (Reading.number (1 / 2)).AtMost (reading y) := by
    intro y
    rw [le_iff, reading_half]
  have hread : Scalar.nearestUpTo cap x = if (cap : Float32) ≤ x then cap
      else min cap (if ((1 : Nat) / (2 : Nat) : Float32) ≤ x - ((Scalar.truncate x : Nat) : Float32)
        then Scalar.truncate x + 1 else Scalar.truncate x) := rfl
  -- what is not above any number and has no whole part becomes zero
  have hzero : ∀ r, reading x = r → r.truncate = 0 → ¬ (Reading.number cap).AtMost r →
      ¬ (Reading.number (1 / 2)).AtMost r → Scalar.nearestUpTo cap x = 0 := by
    intro r hx hwhole hlow hsmall
    have hwhole' : Scalar.truncate x = 0 := by rw [truncate_eq, hx, hwhole]
    rw [hread, hwhole', if_neg (by rwa [hle, hx]),
      if_neg (by rwa [hhalf, reading_sub_zero, hx]), Nat.min_zero]
  cases hx : reading x with
  | below => exact hzero .below hx rfl id id
  | notANumber => exact hzero .notANumber hx rfl id id
  | above => exact hread.trans (if_pos (hle.2 (hx ▸ trivial)))
  | number q =>
      by_cases hcap' : (cap : ℚ) ≤ q
      · rw [Reading.nearestUpTo_of_le hcap']
        exact hread.trans (if_pos (hle.2 (hx ▸ hcap')))
      · obtain ⟨hwhole, hleft⟩ := reading_sub_truncate hcap hx (not_le.1 hcap')
        have hup : ((1 : Nat) / (2 : Nat) : Float32) ≤ x - ((Scalar.truncate x : Nat) : Float32) ↔
            1 / 2 ≤ q - ⌊q⌋₊ := by
          rw [hhalf, hleft, Reading.AtMost]
        have hround := toNat_max_round q
        rw [Reading.nearestUpTo, hread, if_neg (by rwa [hle, hx]), hwhole]
        rw [hwhole] at hup
        by_cases hq : 1 / 2 ≤ q - ⌊q⌋₊
        · rw [if_pos hq] at hround
          rw [if_pos (hup.2 hq)]
          omega
        · rw [if_neg hq] at hround
          rw [if_neg (mt hup.1 hq)]
          omega

end Single

end VoxelBake
