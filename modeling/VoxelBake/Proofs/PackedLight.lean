/-
**Light and directions share one number without touching each other.**

A vertex carries the byte of its light and, above it, the directions in which its block is open
there.  The byte never reaches the bits of the directions, whatever the light is: the seventeenfold
light is rounded and held between zero and 255, and what is not a number gives zero.  As long as the
directions have at most sixteen bits, both together are a whole number below `2 ^ 24`, which a float
holds exactly.

Main definitions:

* `Single.Reading.IsByte` — what the byte of a light is;
* `Carries` — **a float carries a light and directions**;
* `packedSides` — the directions that a format packs.

Main results:

* `openSides_lt` — there are six directions;
* `isByte_lightByte`, `lightByte_natCast`, `lightByte_of_nonpos`, `lightByte_of_le` — the byte of
  any light, of the lights from zero to fifteen, and of those below and above;
* `carries_packExtra` — whatever is packed can be taken apart again;
* `emitted_light_returns` — **so it is for every vertex of a block that is drawn**.
-/
import Mathlib
import VoxelBake.Proofs.Emission
import VoxelBake.Proofs.FloatValues

set_option relaxedAutoImplicit false
set_option autoImplicit false

namespace VoxelBake

open Single

/-! ### Directions -/

section Directions

variable {α : Type} [Scalar α]

theorem openBit_le (mask : NeighbourMask) (dx dy dz : Int) (value : Nat) :
    openBit mask dx dy dz value ≤ value := by
  rw [openBit]
  split
  · exact Nat.zero_le value
  · exact Nat.le_refl value

theorem openAlong_le (a : α) (high low : Nat) : openAlong a high low ≤ max high low := by
  rw [openAlong]
  split
  · exact Nat.le_max_left _ _
  · split
    · exact Nat.le_max_right _ _
    · exact Nat.zero_le _

/-- The directions in which a point is open take six bits. -/
theorem openSides_lt (p : Vec3 α) (mask : NeighbourMask) : openSides p mask < 64 := by
  have hz := openAlong_le p.z (openBit mask 0 0 1 1) (openBit mask 0 0 (-1) 2)
  have hy := openAlong_le p.y (openBit mask 0 1 0 4) (openBit mask 0 (-1) 0 8)
  have hx := openAlong_le p.x (openBit mask 1 0 0 16) (openBit mask (-1) 0 0 32)
  have := openBit_le mask 0 0 1 1
  have := openBit_le mask 0 0 (-1) 2
  have := openBit_le mask 0 1 0 4
  have := openBit_le mask 0 (-1) 0 8
  have := openBit_le mask 1 0 0 16
  have := openBit_le mask (-1) 0 0 32
  rw [openSides]
  omega

/-- The directions that a format packs with the light of a point, if it packs any. -/
def packedSides (p : Vec3 α) (mask : NeighbourMask) : ExtraFormat → Option Nat
  | .light => none
  | .openSides => some (openSides p mask)
  | .everySide => some everySideBits

theorem packedSides_lt {format : ExtraFormat} {p : Vec3 α} {mask : NeighbourMask} {sides : Nat}
    (h : packedSides p mask format = some sides) : sides < 2 ^ 16 := by
  cases format with
  | light => nomatch h
  | openSides =>
      obtain rfl : openSides p mask = sides := Option.some.inj h
      have := openSides_lt p mask
      omega
  | everySide =>
      obtain rfl : everySideBits = sides := Option.some.inj h
      decide

/-- A format that packs directions packs them with the light. -/
theorem extraOf_of_packedSides {ctx : EmitContext α} {p : Vec3 α} {sides : Nat}
    (h : packedSides p ctx.mask ctx.format = some sides) (light : α) :
    extraOf ctx p light = packExtra light sides := by
  rw [extraOf]
  generalize ctx.format = format at h ⊢
  cases format with
  | light => nomatch h
  | openSides => exact congrArg (packExtra light) (Option.some.inj h)
  | everySide => exact congrArg (packExtra light) (Option.some.inj h)

end Directions

/-! ### The byte of a light -/

/-- The byte of a light is its seventeenfold, rounded and held between zero and 255. -/
theorem lightByte_eq (light : Float32) :
    lightByte light = (reading (light * ((17 : Nat) : Float32))).nearestUpTo 255 :=
  nearestUpTo_eq (by decide) _

/-- **What the byte of a light is, whatever the light stands for**: the seventeenfold light, as
exact as one rounding allows, is rounded and held between zero and 255; what is not a number gives
zero. -/
def Single.Reading.IsByte (byte : Nat) : Reading → Prop
  | .number q => ∃ r : ℚ, |r - q * 17| ≤ |q * 17| * slack + least ∧
      byte = (min 255 (max 0 (round r))).toNat
  | .above => byte = 255
  | .below => byte = 0
  | .notANumber => byte = 0

theorem isByte_lightByte (light : Float32) : (reading light).IsByte (lightByte light) := by
  have hbyte := lightByte_eq light
  have hfactor : reading ((17 : Nat) : Float32) = .number 17 := reading_natCast (by decide)
  have hsame : (∀ q, reading light ≠ .number q) →
      lightByte light = (reading light).nearestUpTo 255 := by
    intro h
    rw [hbyte, reading_mul_of_ne_number h hfactor (by norm_num)]
  cases hlight : reading light with
  | number q =>
      have hnear := near_mul hlight hfactor (by norm_num)
      -- beyond the greatest float the exact product rounds to the same byte
      have herror : |q * 17 - q * 17| ≤ |q * 17| * slack + least := by
        have := mul_nonneg (abs_nonneg (q * 17)) slack_pos.le
        have := least_pos
        rw [sub_self, abs_zero]
        linarith
      generalize reading (light * ((17 : Nat) : Float32)) = r at hbyte hnear
      cases r with
      | number r => exact ⟨r, hnear, hbyte⟩
      | above =>
          have hgreat : ((255 : Nat) : ℚ) ≤ q * 17 := le_trans (by norm_num) hnear
          exact ⟨q * 17, herror, hbyte.trans (Reading.nearestUpTo_of_le hgreat).symm⟩
      | below =>
          have hsmall : q * 17 ≤ 0 := le_trans hnear (by norm_num)
          exact ⟨q * 17, herror, hbyte.trans (Reading.nearestUpTo_of_nonpos hsmall).symm⟩
      | notANumber => exact absurd hnear id
  | above => exact (hsame (by simp [hlight])).trans (hlight ▸ rfl)
  | below => exact (hsame (by simp [hlight])).trans (hlight ▸ rfl)
  | notANumber => exact (hsame (by simp [hlight])).trans (hlight ▸ rfl)

/-- The error of one rounding at lights that are not above fifteen. -/
theorem error_lt {r q : ℚ} (hr : |r - q * 17| ≤ |q * 17| * slack + least)
    (hlow : 0 ≤ q) (hhigh : q ≤ 15) : |r - q * 17| < 1 / 2 := by
  have hleast := least_lt
  have hmul : q * 17 * slack ≤ 255 * slack :=
    mul_le_mul_of_nonneg_right (by linarith) slack_pos.le
  have hslack : 255 * slack < 1 / 4 := by norm_num [slack]
  rw [abs_of_nonneg (by linarith : 0 ≤ q * 17)] at hr
  linarith

/-- Whole lights up to fifteen give their seventeenfold. -/
theorem lightByte_natCast {n : Nat} (hn : n ≤ 15) : lightByte (n : Float32) = 17 * n := by
  have hbyte := isByte_lightByte (n : Float32)
  rw [reading_natCast (by omega)] at hbyte
  obtain ⟨r, hr, hbyte⟩ := hbyte
  have hlt := abs_lt.1 (error_lt hr n.cast_nonneg (by exact_mod_cast hn))
  have hround : round r = 17 * n := by
    rw [round_eq, Int.floor_eq_iff]
    push_cast
    constructor <;> linarith
  omega

/-- Lights below zero give no light. -/
theorem lightByte_of_nonpos {light : Float32} {q : ℚ} (h : reading light = .number q)
    (hq : q ≤ 0) : lightByte light = 0 := by
  have hbyte := isByte_lightByte light
  rw [h] at hbyte
  obtain ⟨r, hr, hbyte⟩ := hbyte
  have hlarge := (abs_le.1 hr).2
  have hcut : q * 17 + |q * 17| * slack ≤ 0 := by
    have := mul_nonneg (show 0 ≤ -(q * 17) by linarith) (sub_nonneg.2 slack_lt_one.le)
    rw [abs_of_nonpos (by linarith)]
    linarith
  have hleast := least_lt
  have hround : round r < 1 := by
    rw [round_eq, Int.floor_lt]
    push_cast
    linarith
  omega

/-- Lights of at least fifteen give the brightest byte. -/
theorem lightByte_of_le {light : Float32} {q : ℚ} (h : reading light = .number q)
    (hq : 15 ≤ q) : lightByte light = 255 := by
  have hbyte := isByte_lightByte light
  rw [h] at hbyte
  obtain ⟨r, hr, hbyte⟩ := hbyte
  have hsmall := (abs_le.1 hr).1
  have hcut : 255 * (1 - slack) ≤ q * 17 - |q * 17| * slack := by
    have := mul_le_mul_of_nonneg_right (show 255 ≤ q * 17 by linarith)
      (sub_nonneg.2 slack_lt_one.le)
    rw [abs_of_nonneg (by linarith)]
    linarith
  have hleast := least_lt
  have hslack : 255 * slack < 1 / 4 := by norm_num [slack]
  have hround : 255 ≤ round r := by
    rw [round_eq, Int.le_floor]
    push_cast
    linarith
  omega

/-! ### Packing -/

/-- **A float carries a light and directions**: it is exactly a whole number below `2 ^ 24`, and
taken apart it gives the byte of the light and the directions. -/
structure Carries (packed light : Float32) (sides : Nat) : Prop where
  /-- Nothing is rounded. -/
  whole : ∃ n : Nat, n < 2 ^ 24 ∧ reading packed = .number n
  /-- What it is taken apart into. -/
  apart : unpackExtra packed = ((reading (light * ((17 : Nat) : Float32))).nearestUpTo 255, sides)
  /-- What the byte says of the light. -/
  isByte : (reading light).IsByte (unpackExtra packed).1

/-- **Light and directions of at most sixteen bits can be taken apart again.** -/
theorem carries_packExtra (light : Float32) {sides : Nat} (h : sides < 2 ^ 16) :
    Carries (packExtra light sides) light sides := by
  have hbyte : lightByte light ≤ 255 := lightByte_eq light ▸ Reading.nearestUpTo_le 255 _
  have hmod : sides % 0x1000000 = sides := Nat.mod_eq_of_lt (by omega)
  have hlt : sides * 256 + lightByte light < 2 ^ 24 := by omega
  have hpack : packExtra light sides = ((sides * 256 + lightByte light : Nat) : Float32) := by
    rw [packExtra, hmod]
  have htruncate := truncate_natCast hlt
  rw [← hpack] at htruncate
  have hapart : unpackExtra (packExtra light sides) = (lightByte light, sides) := by
    rw [unpackExtra, htruncate, Prod.mk.injEq]
    omega
  refine ⟨⟨_, hlt, hpack ▸ reading_natCast hlt⟩, ?_, ?_⟩
  · rw [hapart, lightByte_eq]
  · rw [hapart]
    exact isByte_lightByte light

/-- **Every vertex carries its light and its directions.**  Whatever the light is, directions of at
most sixteen bits can be taken apart from it; so can those that are packed at any point between any
neighbours, and those of every vertex of a block. -/
theorem emitted_light_returns :
    (∀ (light : Float32) (sides : Nat), sides < 2 ^ 16 →
      Carries (packExtra light sides) light sides) ∧
    (∀ (ctx : EmitContext Float32) (p : Vec3 Float32) (light : Float32) (sides : Nat),
      packedSides p ctx.mask ctx.format = some sides → Carries (extraOf ctx p light) light sides) ∧
    ∀ (g : Geometry Float32) (ctx : EmitContext Float32), ∀ v ∈ blockVertices g ctx,
      ∃ side, ∃ k ∈ g.bucket side, v.position = k.position + ctx.offset ∧
        ∀ sides, packedSides k.position ctx.mask ctx.format = some sides →
          Carries v.extra (ctx.lights.at side k.position) sides := by
  have hpoint : ∀ (ctx : EmitContext Float32) (p : Vec3 Float32) (light : Float32) (sides : Nat),
      packedSides p ctx.mask ctx.format = some sides →
        Carries (extraOf ctx p light) light sides := by
    intro ctx p light sides h
    rw [extraOf_of_packedSides h]
    exact carries_packExtra light (packedSides_lt h)
  refine ⟨fun light sides h => carries_packExtra light h, hpoint, ?_⟩
  intro g ctx v hv
  obtain ⟨facing, side, kept, k, hk, rfl⟩ := exists_of_mem_blockVertices hv
  exact ⟨side, k, hk, rfl, fun sides h => hpoint ctx k.position _ sides h⟩

theorem emitted_light_returns_fern :
    everySideBits < 2 ^ 16 ∧
      unpackExtra (packExtra ((7 : Nat) : Float32) everySideBits) = (119, everySideBits) := by
  refine ⟨by decide, ?_⟩
  have hcarries := emitted_light_returns.1 ((7 : Nat) : Float32) everySideBits (by decide)
  rw [hcarries.apart, ← lightByte_eq, lightByte_natCast (by decide)]

end VoxelBake
