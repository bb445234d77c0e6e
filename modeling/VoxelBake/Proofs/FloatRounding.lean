/-
**Single-precision arithmetic stays close to exact arithmetic.**

A positive float is a mantissa times a power of two.  The mantissa of a result is cut to 24 bits and
rounded, which moves it by less than one unit in the last place; so a result differs from the exact
value by at most one part in `2 ^ 23`.  That bound is stated only for floats far from the ends of
the range: from `2 ^ (-100)` to `2 ^ 100`.

Main definitions:

* `Single.Canonical` — the forms that a stored float takes;
* `Single.Between` — **a float of full precision whose value lies between two bounds**;
* `Single.slack` — one unit in the last place of the least mantissa.

Main results:

* `Single.canonical_unpack`, `Single.unpack_pack` — exactly the floats of these forms are stored;
* `Single.between_round` — rounding moves a value by at most one part in `2 ^ 23`;
* `Single.between_natCast`, `Single.Between.mul`, `Single.Between.div` — numbers, products and
  quotients;
* `Single.Between.truncate_le` — the whole part of a float is at most its upper bound.
-/
import Mathlib
import VoxelBake.Scalar

set_option relaxedAutoImplicit false
set_option autoImplicit false

namespace VoxelBake

open Float.Model Float.Model.UnpackedFloat

namespace Single

/-! ### Mantissas -/

/-- Shifts drop the low bits of a mantissa. -/
theorem mantissa_shiftRight (em : ExtendedMantissa) (k : Nat) :
    (em >>> k).mantissa = em.mantissa / 2 ^ k := by
  induction k with
  | zero => exact (Nat.div_one _).symm
  | succ k ih =>
      have hstep : (em >>> (k + 1)).mantissa = (em >>> k).mantissa / 2 := rfl
      rw [hstep, ih, Nat.div_div_eq_div_mul, Nat.pow_succ]

/-- Shifting a mantissa makes it longer. -/
theorem log2_shiftLeft {m : Nat} (hm : m ≠ 0) (k : Nat) : (m <<< k).log2 = m.log2 + k := by
  induction k with
  | zero => rfl
  | succ k ih =>
      have hne : m <<< k ≠ 0 := fun h => hm (Nat.shiftLeft_eq_zero_iff.1 h)
      rw [Nat.shiftLeft_succ, Nat.log2_two_mul hne, ih, Nat.add_assoc]

/-- Rounding adds one to a mantissa or leaves it. -/
theorem roundedMantissa_bounds (em : ExtendedMantissa) :
    em.mantissa ≤ em.roundedMantissa ∧ em.roundedMantissa ≤ em.mantissa + 1 := by
  obtain ⟨m, r, s⟩ := em
  cases r <;> cases s <;>
    simp only [ExtendedMantissa.roundedMantissa, ExtendedMantissa.accuracy,
      Accuracy.roundToNearestEven] <;> omega

theorem mantissa_ofMantissaAndAccuracy (m : Nat) (a : Accuracy) :
    (ExtendedMantissa.ofMantissaAndAccuracy m a).mantissa = m := by
  cases a with
  | exact => rfl
  | inexact o => cases o <;> rfl

/-- The exponent that a mantissa is shifted to. -/
theorem targetExponent_eq (m : Nat) (e : Int) :
    Format.binary32.targetExponent (totalExponent m e) = max ((m.log2 : Int) + e - 23) (-149) := by
  simp only [Format.targetExponent, totalExponent, Format.mantissaBits, Format.minExponent]
  omega

/-- A mantissa that is short enough for its exponent is not shifted. -/
theorem shiftToTargetExponent_of_le {m : Nat} {e : Int}
    (h : Format.binary32.targetExponent (totalExponent m e) ≤ e) :
    shiftToTargetExponent Format.binary32 m e .exact = (⟨m, false, false⟩, e) := by
  have ht : (Format.binary32.targetExponent (totalExponent m e) - e).toNat = 0 := by omega
  simp only [shiftToTargetExponent, shiftToExponent, ht]
  exact Prod.ext rfl (Int.add_zero e)

/-- An exact mantissa that is short enough for its exponent is not rounded. -/
theorem roundWithAccuracy_of_le {s : Sign} {m : Nat} {e : Int} (hm : 0 < m)
    (h : Format.binary32.targetExponent (totalExponent m e) ≤ e) :
    roundWithAccuracy Format.binary32 s m e .exact = .finite s m e hm := by
  have hkept : ExtendedMantissa.roundedMantissa ⟨m, false, false⟩ = m := rfl
  simp only [roundWithAccuracy, shiftToTargetExponent_of_le h, hkept, Nat.ne_of_gt hm, ↓reduceDIte]

/-- A mantissa with one bit too many is halved. -/
theorem shiftToTargetExponent_carry {e : Int} (he : -149 ≤ e) :
    shiftToTargetExponent Format.binary32 (2 ^ 24) e .exact = (⟨2 ^ 23, false, false⟩, e + 1) := by
  have ht : (Format.binary32.targetExponent (totalExponent (2 ^ 24) e) - e).toNat = 1 := by
    rw [targetExponent_eq, Nat.log2_two_pow]
    omega
  simp only [shiftToTargetExponent, shiftToExponent, ht]
  rfl

/-- **Rounding in two steps**: the low bits are dropped, then the mantissa is rounded; if that makes
it one bit too long, it is halved. -/
theorem roundWithAccuracy_eq {s : Sign} {m : Nat} {e t : Int} (a : Accuracy) (hm : m ≠ 0)
    (ht : t = max ((m.log2 : Int) + e - 23) (-149)) (hle : e ≤ t) :
    ∃ r, m / 2 ^ (t - e).toNat ≤ r ∧ r ≤ m / 2 ^ (t - e).toNat + 1 ∧
      (r = 0 ∧ roundWithAccuracy Format.binary32 s m e a = .zero s ∨
        ∃ r' : Nat, ∃ e' : Int, ∃ h : 0 < r',
          roundWithAccuracy Format.binary32 s m e a = .finite s r' e' h ∧
          r' < 2 ^ 24 ∧ (e' = -149 ∨ 2 ^ 23 ≤ r') ∧
          (r' = r ∧ e' = t ∨ r = 2 ^ 24 ∧ r' = 2 ^ 23 ∧ e' = t + 1)) := by
  obtain ⟨k, hk⟩ := Int.eq_ofNat_of_zero_le (sub_nonneg.2 hle)
  obtain ⟨hlow, hhigh⟩ := (Nat.log2_eq_iff hm).1 rfl
  have hnat : (t - e).toNat = k := by omega
  have hshort : m / 2 ^ k < 2 ^ 24 := by
    rw [Nat.div_lt_iff_lt_mul (Nat.two_pow_pos k), ← Nat.pow_add]
    exact Nat.lt_of_lt_of_le hhigh (Nat.pow_le_pow_right (by norm_num) (by omega))
  have hfull : t = -149 ∨ 2 ^ 23 ≤ m / 2 ^ k := by
    refine or_iff_not_imp_left.2 fun hne => ?_
    rw [Nat.le_div_iff_mul_le (Nat.two_pow_pos k), ← Nat.pow_add]
    exact Nat.le_trans (Nat.pow_le_pow_right (by norm_num) (by omega)) hlow
  obtain ⟨em, hem⟩ : ∃ em, em = ExtendedMantissa.ofMantissaAndAccuracy m a >>> k := ⟨_, rfl⟩
  have hfirst : shiftToTargetExponent Format.binary32 m e a = (em, t) := by
    simp only [shiftToTargetExponent, shiftToExponent, targetExponent_eq, ← ht, hnat, hem,
      Prod.mk.injEq, true_and]
    omega
  have hmant : em.mantissa = m / 2 ^ k := by
    rw [hem, mantissa_shiftRight, mantissa_ofMantissaAndAccuracy]
  obtain ⟨hr, hr'⟩ := roundedMantissa_bounds em
  rw [hmant] at hr hr'
  refine ⟨em.roundedMantissa, hnat ▸ hr, hnat ▸ hr', ?_⟩
  rcases Nat.lt_or_ge em.roundedMantissa (2 ^ 24) with hlt | hge
  · by_cases hzero : em.roundedMantissa = 0
    · left
      have hsecond : shiftToTargetExponent Format.binary32 0 t .exact
          = (⟨0, false, false⟩, t) := by
        refine shiftToTargetExponent_of_le ?_
        rw [targetExponent_eq, Nat.log2_zero]
        omega
      simp only [roundWithAccuracy, hfirst, hzero, hsecond, ↓reduceDIte, and_self]
    · right
      have hlog : em.roundedMantissa.log2 < 24 := (Nat.log2_lt hzero).2 hlt
      have hsecond : shiftToTargetExponent Format.binary32 em.roundedMantissa t .exact
          = (⟨em.roundedMantissa, false, false⟩, t) := by
        refine shiftToTargetExponent_of_le ?_
        rw [targetExponent_eq]
        omega
      refine ⟨em.roundedMantissa, t, Nat.pos_of_ne_zero hzero, ?_, hlt,
        hfull.imp_right fun h => Nat.le_trans h hr, Or.inl ⟨rfl, rfl⟩⟩
      simp only [roundWithAccuracy, hfirst, hsecond, hzero, ↓reduceDIte]
  · have hmax : em.roundedMantissa = 2 ^ 24 := by omega
    refine Or.inr ⟨2 ^ 23, t + 1, by decide, ?_, by decide, Or.inr (Nat.le_refl _),
      Or.inr ⟨hmax, rfl, rfl⟩⟩
    simp only [roundWithAccuracy, hfirst, hmax,
      shiftToTargetExponent_carry (show -149 ≤ t by omega)]
    rfl

/-! ### Stored floats -/

/-- **The forms that a stored float takes**: a mantissa has at most 24 bits, and no fewer unless its
exponent is the least one. -/
inductive Canonical : UnpackedFloat → Prop
  | notANumber : Canonical .notANumber
  | infinity (s : Sign) : Canonical (.infinity s)
  | zero (s : Sign) : Canonical (.zero s)
  | finite (s : Sign) {m : Nat} {e : Int} (h : 0 < m) (hm : m < 2 ^ 24) (he : -149 ≤ e)
      (he' : e ≤ 104) (hfull : e = -149 ∨ 2 ^ 23 ≤ m) : Canonical (.finite s m e h)

/-- The leading bit of a mantissa is not stored. -/
theorem toNat_append_one (v : BitVec 23) : (1#1 ++ v).toNat = 2 ^ 23 + v.toNat := by
  rw [BitVec.toNat_append, ← Nat.shiftLeft_add_eq_or_of_lt v.isLt]
  rfl

/-- Every stored float has one of these forms. -/
theorem canonical_unpack (x : Float32) : Canonical x.toModel.unpack := by
  obtain ⟨b, hb⟩ : ∃ b, b = x.toModel.toBits.toBitVec := ⟨_, rfl⟩
  change Canonical (UnpackedFloat.unpack Format.binary32 x.toModel.toBits.toBitVec)
  rw [← hb]
  have hbias : Format.binary32.exponentBias = 127 := rfl
  fun_cases UnpackedFloat.unpack Format.binary32 b with
  | case1 => exact .infinity _
  | case2 => exact .notANumber
  | case3 => exact .zero _
  | case4 mantissa field e _ _ _ hfield _ =>
      have hzero : field.toNat = 0 := congrArg BitVec.toNat hfield
      have hm : mantissa.toNat < 2 ^ 23 := mantissa.isLt
      have he : e = -150 := by
        simp only [e, hzero, hbias]
        rfl
      exact .finite _ _ (by omega) (by omega) (by omega) (.inl (by omega))
  | case5 mantissa field e _ _ hinf hzero =>
      have hm : mantissa.toNat < 2 ^ 23 := mantissa.isLt
      have hvalue := toNat_append_one mantissa
      have hfield : field.toNat < 2 ^ 8 := field.isLt
      have hfinite : field.toNat ≠ 255 := fun h => hinf (BitVec.eq_of_toNat_eq h)
      have hnormal : field.toNat ≠ 0 := fun h => hzero (BitVec.eq_of_toNat_eq h)
      have he : e = field.toNat - 150 := by
        simp only [e, hbias]
        omega
      exact .finite _ _ (by omega) (by omega) (by omega) (.inr (by omega))

/-- **A float of one of these forms is stored without loss.** -/
theorem unpack_pack {f : UnpackedFloat} (h : Canonical f) :
    (Float32.Model.pack f).unpack = f := by
  change UnpackedFloat.unpack Format.binary32 (UnpackedFloat.pack _ _) = _
  cases h with
  | notANumber => exact unpack_packedNaN
  | infinity s => simp [UnpackedFloat.pack, packedInfinity, UnpackedFloat.unpack]
  | zero s => exact unpack_packedZero
  | @finite s m e h hm he he' hfull =>
      have hbias : e + Format.binary32.exponentBias + Format.binary32.mantissaBitsWithoutImplicit
          = e + 150 := by
        simp only [Format.exponentBias]
        omega
      have hrange : ¬ 2 ^ Format.binary32.exponentBits ≤ (e + 150).toNat + 1 := by
        change ¬ 256 ≤ _
        omega
      by_cases hlog : m.log2 + 1 = Format.binary32.mantissaBits
      · have hlow : 2 ^ 23 ≤ m :=
          ((Nat.log2_eq_iff (Nat.ne_of_gt h)).1 (Nat.succ_injective hlog : m.log2 = 23)).1
        have hnat : (BitVec.ofNat 8 (e + 150).toNat).toNat = (e + 150).toNat := by
          rw [BitVec.toNat_ofNat]
          omega
        -- the field of the exponent is neither that of infinity nor that of zero
        have hfinite : BitVec.ofNat 8 (e + 150).toNat ≠ -1#8 := by
          intro heq
          have : (e + 150).toNat = 255 := hnat.symm.trans (congrArg BitVec.toNat heq)
          omega
        have hnormal : BitVec.ofNat 8 (e + 150).toNat ≠ 0#8 := by
          intro heq
          have : (e + 150).toNat = 0 := hnat.symm.trans (congrArg BitVec.toNat heq)
          omega
        have hmant : (1#1 ++ BitVec.ofNat 23 m).toNat = m := by
          rw [toNat_append_one, BitVec.toNat_ofNat]
          omega
        have hexp : ((e + 150).toNat : Int) - (Format.binary32.exponentBias + (23 : Nat)) = e := by
          simp only [Format.exponentBias]
          omega
        simp only [UnpackedFloat.pack, hbias, hlog, if_neg hrange, if_true]
        simp only [UnpackedFloat.unpack, unpackExponent_packComponents,
          unpackMantissa_packComponents, unpackSign_packComponents, Sign.ofBitVec_toBitVec, hfinite,
          hnormal, if_false, hnat, hmant, hexp]
      · have hshort : m < 2 ^ 23 := by
          refine Nat.lt_of_not_le fun hle => hlog ?_
          exact congrArg (· + 1) ((Nat.log2_eq_iff (Nat.ne_of_gt h)).2 ⟨hle, hm⟩)
        obtain rfl : e = -149 := hfull.resolve_right (Nat.not_le.2 hshort)
        have hnat : (BitVec.ofNat 23 m).toNat = m := by
          rw [BitVec.toNat_ofNat]
          omega
        have hmant : BitVec.ofNat 23 m ≠ 0#23 := by
          intro heq
          have : m = 0 := hnat.symm.trans (congrArg BitVec.toNat heq)
          omega
        simp only [UnpackedFloat.pack, hbias, hlog, if_neg hrange, if_false]
        simp only [UnpackedFloat.unpack, unpackExponent_packComponents,
          unpackMantissa_packComponents, unpackSign_packComponents, Sign.ofBitVec_toBitVec, hmant,
          hnat]
        rfl

/-! ### Values -/

/-- **A positive float of full precision whose value lies between two bounds.** -/
def Between (lo hi : ℚ) (x : Float32) : Prop :=
  ∃ m e h, x.toModel.unpack = .finite .positive m e h ∧ m.log2 = 23 ∧
    lo ≤ (m : ℚ) * 2 ^ e ∧ (m : ℚ) * 2 ^ e ≤ hi

/-- One unit in the last place of the least mantissa, as a part of it. -/
def slack : ℚ := (2 ^ 23)⁻¹

/-- The exponent of a value in the range that is considered. -/
theorem exponent_bounds {m : Nat} {e : Int} {v : ℚ} (hm : m ≠ 0) (hlo : (m : ℚ) * 2 ^ e ≤ v)
    (hhi : v < ((m + 1 : Nat) : ℚ) * 2 ^ e) (hmin : (2 : ℚ) ^ (-100 : Int) ≤ v)
    (hmax : v ≤ (2 : ℚ) ^ (100 : Int)) : (m.log2 : Int) + e ≤ 100 ∧ -101 < (m.log2 : Int) + e := by
  obtain ⟨hlow, hhigh⟩ := (Nat.log2_eq_iff hm).1 rfl
  have hpos : (0 : ℚ) < 2 ^ e := zpow_pos (by norm_num) e
  have hbase : (1 : ℚ) < 2 := by norm_num
  have hne : (2 : ℚ) ≠ 0 := by norm_num
  constructor
  · have hpow : (2 : ℚ) ^ m.log2 ≤ m := by exact_mod_cast hlow
    have hle : (2 : ℚ) ^ ((m.log2 : Int) + e) ≤ 2 ^ (100 : Int) :=
      calc (2 : ℚ) ^ ((m.log2 : Int) + e) = 2 ^ m.log2 * 2 ^ e := by
            rw [zpow_add₀ hne, zpow_natCast]
        _ ≤ m * 2 ^ e := mul_le_mul_of_nonneg_right hpow hpos.le
        _ ≤ 2 ^ (100 : Int) := hlo.trans hmax
    exact (zpow_le_zpow_iff_right₀ hbase).1 hle
  · have hpow : ((m + 1 : Nat) : ℚ) ≤ 2 ^ (m.log2 + 1) := by exact_mod_cast hhigh
    have hlt : (2 : ℚ) ^ (-100 : Int) < 2 ^ ((m.log2 : Int) + 1 + e) :=
      calc (2 : ℚ) ^ (-100 : Int) ≤ v := hmin
        _ < ((m + 1 : Nat) : ℚ) * 2 ^ e := hhi
        _ ≤ 2 ^ (m.log2 + 1) * 2 ^ e := mul_le_mul_of_nonneg_right hpow hpos.le
        _ = 2 ^ ((m.log2 : Int) + 1 + e) := by
            rw [zpow_add₀ hne, ← zpow_natCast]
            push_cast
            rfl
    have := (zpow_lt_zpow_iff_right₀ hbase).1 hlt
    omega

theorem slack_pos : 0 < slack := by norm_num [slack]

theorem slack_lt_one : slack < 1 := by norm_num [slack]

theorem Between.mono {lo lo' hi hi' : ℚ} {x : Float32} (h : Between lo hi x) (hlo : lo' ≤ lo)
    (hhi : hi ≤ hi') : Between lo' hi' x := by
  obtain ⟨m, e, hm, hu, hlog, hl, hh⟩ := h
  exact ⟨m, e, hm, hu, hlog, hlo.trans hl, hh.trans hhi⟩

/-- **Rounding moves a value by at most one part in `2 ^ 23`.** -/
theorem between_round {m : Nat} {e : Int} {a : Accuracy} {v : ℚ} (hm : 23 ≤ m.log2)
    (hlo : (m : ℚ) * 2 ^ e ≤ v) (hhi : v < ((m + 1 : Nat) : ℚ) * 2 ^ e)
    (hmin : (2 : ℚ) ^ (-100 : Int) ≤ v) (hmax : v ≤ (2 : ℚ) ^ (100 : Int)) :
    Between (v * (1 - slack)) (v * (1 + slack))
      (.ofModel (.pack (roundWithAccuracy Format.binary32 .positive m e a))) := by
  obtain ⟨k, hk⟩ : ∃ k, m.log2 = 23 + k := ⟨m.log2 - 23, by omega⟩
  have hm0 : m ≠ 0 := by
    rintro rfl
    rw [Nat.log2_zero] at hk
    omega
  obtain ⟨hmax', hmin'⟩ := exponent_bounds hm0 hlo hhi hmin hmax
  -- nothing near the least exponent is rounded here, so the mantissa stays full
  obtain ⟨r, hr, hr', hround⟩ := roundWithAccuracy_eq (s := .positive) (e := e) (t := e + k) a hm0
    (by omega) (by omega)
  have hshift : (e + k - e).toNat = k := by omega
  rw [hshift] at hr hr'
  have hlong : 2 ^ 23 ≤ r := by
    refine Nat.le_trans ?_ hr
    rw [Nat.le_div_iff_mul_le (Nat.two_pow_pos k), ← Nat.pow_add, ← hk]
    exact Nat.log2_self_le hm0
  obtain ⟨m', e', hpos, hround, hlt, hfull, hvalue⟩ := hround.resolve_left (by omega)
  have hlog : m'.log2 = 23 :=
    (Nat.log2_eq_iff (Nat.ne_of_gt hpos)).2 ⟨hfull.resolve_left (by omega), hlt⟩
  have hne : (2 : ℚ) ≠ 0 := by norm_num
  have hunit : (0 : ℚ) < 2 ^ (e + k) := zpow_pos (by norm_num) _
  have hsplit : (2 : ℚ) ^ (e + k) = 2 ^ k * 2 ^ e := by
    rw [zpow_add₀ hne, zpow_natCast, mul_comm]
  -- halving a mantissa that is too long keeps the value
  have hsame : (m' : ℚ) * 2 ^ e' = r * 2 ^ (e + k) := by
    rcases hvalue with ⟨rfl, rfl⟩ | ⟨rfl, rfl, rfl⟩
    · rfl
    · rw [zpow_add_one₀ hne]
      push_cast
      ring
  have hulp : (2 : ℚ) ^ (e + k) ≤ v * slack := by
    have hlow := ((Nat.log2_eq_iff hm0).1 hk).1
    have hlow' : (2 : ℚ) ^ (23 + k) ≤ m := by exact_mod_cast hlow
    have hfull : (2 : ℚ) ^ 23 * 2 ^ (e + k) ≤ v := by
      calc (2 : ℚ) ^ 23 * 2 ^ (e + k) = 2 ^ (23 + k) * 2 ^ e := by
            rw [hsplit, pow_add]
            ring
        _ ≤ m * 2 ^ e := mul_le_mul_of_nonneg_right hlow' (zpow_pos (by norm_num) e).le
        _ ≤ v := hlo
    rw [slack]
    linarith
  refine ⟨m', e', hpos, ?_, hlog, ?_, ?_⟩
  · change (Float32.Model.pack _).unpack = _
    obtain ⟨hlow, hhigh⟩ := (Nat.log2_eq_iff (Nat.ne_of_gt hpos)).1 hlog
    rw [hround, unpack_pack (.finite _ hpos hhigh (by omega) (by omega) (.inr hlow))]
  · -- the exact value lies below the next mantissa
    have hnext : m + 1 ≤ (r + 1) * 2 ^ k := by
      calc m + 1 ≤ 2 ^ k * (m / 2 ^ k + 1) := Nat.lt_mul_div_succ m (Nat.two_pow_pos k)
        _ ≤ 2 ^ k * (r + 1) := Nat.mul_le_mul_left _ (Nat.succ_le_succ hr)
        _ = (r + 1) * 2 ^ k := Nat.mul_comm _ _
    have hnext' : ((m + 1 : Nat) : ℚ) ≤ (r + 1) * 2 ^ k := by exact_mod_cast hnext
    have hlt : v < (r + 1) * 2 ^ (e + k) := by
      calc v < ((m + 1 : Nat) : ℚ) * 2 ^ e := hhi
        _ ≤ (r + 1) * 2 ^ k * 2 ^ e :=
          mul_le_mul_of_nonneg_right hnext' (zpow_pos (by norm_num) e).le
        _ = (r + 1) * 2 ^ (e + k) := by rw [hsplit, mul_assoc]
    rw [hsame]
    linarith
  · have hcut : (r : ℚ) * 2 ^ k ≤ m + 2 ^ k := by
      have := Nat.div_mul_le_self m (2 ^ k)
      have := Nat.mul_le_mul_right (2 ^ k) hr'
      have hnat : r * 2 ^ k ≤ m + 2 ^ k := by
        rw [Nat.add_mul] at this
        omega
      exact_mod_cast hnat
    have hle : (r : ℚ) * 2 ^ (e + k) ≤ v + 2 ^ (e + k) := by
      calc (r : ℚ) * 2 ^ (e + k) = r * 2 ^ k * 2 ^ e := by rw [hsplit, mul_assoc]
        _ ≤ (m + 2 ^ k) * 2 ^ e := mul_le_mul_of_nonneg_right hcut (zpow_pos (by norm_num) e).le
        _ = m * 2 ^ e + 2 ^ (e + k) := by rw [hsplit, add_mul]
        _ ≤ v + 2 ^ (e + k) := by linarith
    rw [hsame]
    linarith

/-- A value between two bounds is rounded to a float close to both. -/
theorem between_round_of_le {m : Nat} {e : Int} {a : Accuracy} {v lo hi : ℚ} (hm : 23 ≤ m.log2)
    (hfloor : (m : ℚ) * 2 ^ e ≤ v) (hnext : v < ((m + 1 : Nat) : ℚ) * 2 ^ e) (hlow : lo ≤ v)
    (hhigh : v ≤ hi) (hmin : (2 : ℚ) ^ (-100 : Int) ≤ lo) (hmax : hi ≤ (2 : ℚ) ^ (100 : Int)) :
    Between (lo * (1 - slack)) (hi * (1 + slack))
      (.ofModel (.pack (roundWithAccuracy Format.binary32 .positive m e a))) := by
  refine (between_round hm hfloor hnext (hmin.trans hlow) (hhigh.trans hmax)).mono ?_ ?_
  · exact mul_le_mul_of_nonneg_right hlow (sub_nonneg.2 slack_lt_one.le)
  · exact mul_le_mul_of_nonneg_right hhigh (add_nonneg zero_le_one slack_pos.le)

/-- The value of a mantissa is less than that of the next one. -/
theorem value_lt_next (m : Nat) (e : Int) : (m : ℚ) * 2 ^ e < ((m + 1 : Nat) : ℚ) * 2 ^ e := by
  refine mul_lt_mul_of_pos_right ?_ (zpow_pos (by norm_num) _)
  exact_mod_cast Nat.lt_succ_self m

/-! ### Operations -/

/-- A natural number as a float, before it is rounded. -/
theorem natCast_eq {n : Nat} (hn : n < 2 ^ 64) : (n : Float32) =
    .ofModel (.pack (UnpackedFloat.normalize Format.binary32 n 0 .positive)) := by
  have hword : n.toUInt64.toNat = n := Nat.mod_eq_of_lt hn
  change Float32.ofModel (.pack (UnpackedFloat.normalize Format.binary32
    (n.toUInt64.toNat : Int) 0 .positive)) = _
  rw [hword]

/-- Numbers of 64 bits. -/
theorem between_natCast {n : Nat} (hpos : 0 < n) (hn : n < 2 ^ 64) :
    Between (n * (1 - slack)) (n * (1 + slack)) (n : Float32) := by
  have hne : (2 : ℚ) ≠ 0 := by norm_num
  have hlog : n.log2 < 64 := (Nat.log2_lt (Nat.ne_of_gt hpos)).2 hn
  -- the number is first shifted to a mantissa that is long enough
  have htarget : Format.binary32.targetExponent (totalExponent n 0) = (n.log2 : Int) - 23 := by
    rw [targetExponent_eq]
    omega
  obtain ⟨s, hs⟩ : ∃ s, s = (0 - ((n.log2 : Int) - 23)).toNat := ⟨_, rfl⟩
  have hcast : (n : Float32) = .ofModel (.pack
      (roundWithAccuracy Format.binary32 .positive (n <<< s) (0 - s) .exact)) := by
    rw [natCast_eq hn, UnpackedFloat.normalize, Int.compare_eq_gt.2 (by omega)]
    simp only [UnpackedFloat.round, Int.toNat_natCast, htarget, decreaseExponent, ← hs]
  have hexact : ((n <<< s : Nat) : ℚ) * 2 ^ (0 - s : Int) = n := by
    rw [Nat.shiftLeft_eq, zero_sub, zpow_neg, zpow_natCast]
    push_cast
    rw [mul_assoc, mul_inv_cancel₀ (pow_ne_zero s hne), mul_one]
  have hone : (1 : ℚ) ≤ n := by exact_mod_cast hpos
  have hle : (n : ℚ) ≤ 2 ^ 64 := by exact_mod_cast hn.le
  rw [hcast]
  refine between_round ?_ hexact.le (hexact ▸ value_lt_next _ _) ?_ ?_
  · rw [log2_shiftLeft (Nat.ne_of_gt hpos)]
    omega
  · refine le_trans ?_ hone
    norm_num
  · refine hle.trans ?_
    norm_num

/-- The product of two floats. -/
theorem Between.mul {a b c d : ℚ} {x y : Float32} (hx : Between a b x) (hy : Between c d y)
    (ha : 0 < a) (hc : 0 < c) (hmin : (2 : ℚ) ^ (-100 : Int) ≤ a * c)
    (hmax : b * d ≤ (2 : ℚ) ^ (100 : Int)) :
    Between (a * c * (1 - slack)) (b * d * (1 + slack)) (x * y) := by
  obtain ⟨m, e, hm, hxu, hmlog, hax, hxb⟩ := hx
  obtain ⟨n, f, hn, hyu, hnlog, hcy, hyd⟩ := hy
  obtain ⟨v, hv⟩ : ∃ v : ℚ, v = (m * 2 ^ e) * (n * 2 ^ f) := ⟨_, rfl⟩
  have hne : (2 : ℚ) ≠ 0 := by norm_num
  have hlow : a * c ≤ v := hv ▸ mul_le_mul hax hcy hc.le (ha.le.trans hax)
  have hhigh : v ≤ b * d := hv ▸ mul_le_mul hxb hyd (hc.le.trans hcy) ((ha.le.trans hax).trans hxb)
  have hexact : ((m * n : Nat) : ℚ) * 2 ^ (e + f) = v := by
    rw [hv, zpow_add₀ hne]
    push_cast
    ring
  have hlong : 23 ≤ (m * n).log2 := by
    have hml := ((Nat.log2_eq_iff (Nat.ne_of_gt hm)).1 hmlog).1
    exact (Nat.le_log2 (Nat.ne_of_gt (Nat.mul_pos hm hn))).2
      (hml.trans (Nat.le_mul_of_pos_right m hn))
  have hmul : x * y = .ofModel (.pack
      (roundWithAccuracy Format.binary32 .positive (m * n) (e + f) .exact)) := by
    change Float32.ofModel (.pack (UnpackedFloat.mul Format.binary32 x.toModel.unpack
      y.toModel.unpack)) = _
    rw [hxu, hyu]
    rfl
  have hnext : v < ((m * n + 1 : Nat) : ℚ) * 2 ^ (e + f) := hexact ▸ value_lt_next _ _
  rw [hmul]
  exact between_round_of_le hlong hexact.le hnext hlow hhigh hmin hmax

/-- The quotient of two floats. -/
theorem Between.div {a b c d : ℚ} {x y : Float32} (hx : Between a b x) (hy : Between c d y)
    (ha : 0 < a) (hc : 0 < c) (hmin : (2 : ℚ) ^ (-100 : Int) ≤ a / d)
    (hmax : b / c ≤ (2 : ℚ) ^ (100 : Int)) :
    Between (a / d * (1 - slack)) (b / c * (1 + slack)) (x / y) := by
  obtain ⟨m, e, hm, hxu, hmlog, hax, hxb⟩ := hx
  obtain ⟨n, f, hn, hyu, hnlog, hcy, hyd⟩ := hy
  obtain ⟨v, hv⟩ : ∃ v : ℚ, v = (m * 2 ^ e) / (n * 2 ^ f) := ⟨_, rfl⟩
  have hne : (2 : ℚ) ≠ 0 := by norm_num
  have hlow : a / d ≤ v := hv ▸ div_le_div₀ (ha.le.trans hax) hax (hc.trans_le hcy) hyd
  have hhigh : v ≤ b / c := hv ▸ div_le_div₀ ((ha.le.trans hax).trans hxb) hxb hc hcy
  obtain ⟨hml, hmh⟩ := (Nat.log2_eq_iff (Nat.ne_of_gt hm)).1 hmlog
  obtain ⟨hnl, hnh⟩ := (Nat.log2_eq_iff (Nat.ne_of_gt hn)).1 hnlog
  have hn' : (0 : ℚ) < n := by exact_mod_cast hn
  have hpow : ∀ i : Int, (0 : ℚ) < 2 ^ i := fun i => zpow_pos (by norm_num) i
  -- the exponent of the quotient
  have hexp : -102 < e - f := by
    have hlt : (2 : ℚ) ^ (-100 : Int) < 2 ^ (1 + (e - f)) := by
      have hratio : (m : ℚ) / n < 2 := by
        rw [div_lt_iff₀ hn']
        have : m < 2 * n := by omega
        exact_mod_cast this
      calc (2 : ℚ) ^ (-100 : Int) ≤ v := hmin.trans hlow
        _ = m / n * 2 ^ (e - f) := by
            rw [hv, zpow_sub₀ hne, mul_div_mul_comm]
        _ < 2 * 2 ^ (e - f) := mul_lt_mul_of_pos_right hratio (hpow _)
        _ = 2 ^ (1 + (e - f)) := by rw [zpow_one_add₀ hne]
    have := (zpow_lt_zpow_iff_right₀ (by norm_num : (1 : ℚ) < 2)).1 hlt
    omega
  obtain ⟨q, hq⟩ : ∃ q, q = (m <<< 24) / n := ⟨_, rfl⟩
  have hlong : 23 ≤ q.log2 := by
    have hge : 2 ^ 23 ≤ q := by
      rw [hq, Nat.shiftLeft_eq, Nat.le_div_iff_mul_le hn]
      omega
    exact (Nat.le_log2 (by omega)).2 hge
  have hexact : ((m <<< 24 : Nat) : ℚ) / n * 2 ^ (e - f - 24) = v := by
    rw [hv, Nat.shiftLeft_eq, zpow_sub₀ hne, zpow_sub₀ hne]
    push_cast
    field_simp
  have hfloor : (q : ℚ) * 2 ^ (e - f - 24) ≤ v := by
    rw [← hexact]
    refine mul_le_mul_of_nonneg_right ?_ (hpow _).le
    rw [le_div_iff₀ hn', hq]
    exact_mod_cast Nat.div_mul_le_self _ _
  have hnext : v < ((q + 1 : Nat) : ℚ) * 2 ^ (e - f - 24) := by
    rw [← hexact]
    refine mul_lt_mul_of_pos_right ?_ (hpow _)
    have hlt := Nat.lt_mul_div_succ (m <<< 24) hn
    rw [Nat.mul_comm, ← hq] at hlt
    rw [div_lt_iff₀ hn']
    exact_mod_cast hlt
  have hdiv : x / y = .ofModel (.pack (roundWithAccuracy Format.binary32 .positive q (e - f - 24)
      (accuracyOfFraction ((m <<< 24) % n) n))) := by
    have htarget : min (e - f) (Format.binary32.targetExponent
        (totalExponent m e - totalExponent n f)) = e - f - 24 := by
      simp only [Format.targetExponent, totalExponent, Format.mantissaBits, Format.minExponent,
        hmlog, hnlog]
      omega
    have hshift : (e - f - (e - f - 24)).toNat = 24 := by omega
    change Float32.ofModel (.pack (UnpackedFloat.div Format.binary32 x.toModel.unpack
      y.toModel.unpack)) = _
    rw [hxu, hyu]
    simp only [UnpackedFloat.div, divCore, htarget, hshift, hq]
    rfl
  rw [hdiv]
  exact between_round_of_le hlong hfloor hnext hlow hhigh hmin hmax

/-- The whole part of a float is that of its value. -/
theorem toNat_roundToInt (m : Nat) (e : Int) :
    (roundToInt .positive m e).toNat = ⌊(m : ℚ) * 2 ^ e⌋₊ := by
  have hshift : ∀ (n : Nat) (f : Int), (shiftToExponent n f .exact 0).1.mantissa
      = n / 2 ^ (-f).toNat := by
    intro n f
    simp only [shiftToExponent, mantissa_shiftRight, mantissa_ofMantissaAndAccuracy, zero_sub]
  have hread : (roundToInt .positive m e).toNat = m <<< e.toNat / 2 ^ (-(e - e.toNat)).toNat := by
    simp only [roundToInt, decreaseExponent, hshift, Int.sub_zero]
    exact Int.toNat_natCast _
  rw [hread]
  rcases Int.le_total 0 e with he | he
  · obtain ⟨k, rfl⟩ := Int.eq_ofNat_of_zero_le he
    have hvalue : (m : ℚ) * 2 ^ (k : Int) = (m * 2 ^ k : Nat) := by
      push_cast
      rw [zpow_natCast]
    rw [hvalue, Nat.floor_natCast]
    simp [Nat.shiftLeft_eq]
  · obtain ⟨k, hk⟩ := Int.eq_ofNat_of_zero_le (Int.neg_nonneg_of_nonpos he)
    obtain rfl : e = -k := by omega
    have hnat : (-(k : Int)).toNat = 0 := by omega
    have hvalue : (m : ℚ) * 2 ^ (-(k : Int)) = m / (2 ^ k : Nat) := by
      rw [zpow_neg, zpow_natCast, ← div_eq_mul_inv]
      push_cast
      rfl
    rw [hnat, Nat.shiftLeft_zero, Int.natCast_zero, Int.sub_zero, Int.neg_neg, Int.toNat_natCast,
      hvalue, Nat.floor_div_eq_div]

/-- A number that 32 bits cannot hold becomes the greatest one that they can. -/
theorem toNat_ofNatClamp (n : Nat) : (UInt32.ofNatClamp n).toNat = min n (2 ^ 32 - 1) := by
  rw [UInt32.ofNatClamp]
  split
  · rename_i hlt
    exact (Nat.min_eq_left (Nat.le_pred_of_lt hlt)).symm
  · rename_i hge
    exact (Nat.min_eq_right (Nat.le_trans (by decide) (Nat.le_of_not_lt hge))).symm

/-- The whole part of a float is at most its upper bound. -/
theorem Between.truncate_le {lo hi : ℚ} {x : Float32} (h : Between lo hi x) :
    (Scalar.truncate x : ℚ) ≤ hi := by
  obtain ⟨m, e, hm, hxu, -, -, hhi⟩ := h
  have hread : Scalar.truncate x ≤ (roundToInt .positive m e).toNat := by
    change (x.toModel.unpack.toUInt32).toNat ≤ _
    rw [hxu, UnpackedFloat.toUInt32, toNat_ofNatClamp]
    exact Nat.min_le_left _ _
  have hpos : (0 : ℚ) ≤ (m : ℚ) * 2 ^ e := mul_nonneg m.cast_nonneg (zpow_pos (by norm_num) e).le
  calc (Scalar.truncate x : ℚ) ≤ ((roundToInt .positive m e).toNat : ℚ) := by exact_mod_cast hread
    _ = (⌊(m : ℚ) * 2 ^ e⌋₊ : ℚ) := by rw [toNat_roundToInt]
    _ ≤ (m : ℚ) * 2 ^ e := Nat.floor_le hpos
    _ ≤ hi := hhi

end Single

end VoxelBake
