/-
**Each way of drawing a state is chosen in proportion to its share.**

The shares of the ways of drawing a state, laid one after another, fill the numbers below their
total.  A seed is reduced modulo that total and selects the way in whose stretch it falls, so as
many seeds in a row as there are shares select each way as often as it has shares.

Main definitions:

* `StateModel.sharesBefore` — the shares of the ways before a given one.

Main results:

* `StateModel.pickFrom_eq_some_iff` — **what the scan finds**: the way in whose stretch the number
  lies;
* `StateModel.isSome_pickFrom_iff` — the scan finds something below the total, and only there;
* `StateModel.chooseIndexed_eq_some_iff` — what a seed selects;
* `StateModel.chosen_in_proportion` — **how often each way is selected**.
-/
import Mathlib.Data.Nat.Periodic
import VoxelBake.Blockstate.Assembly

set_option relaxedAutoImplicit false
set_option autoImplicit false

namespace VoxelBake.StateModel

variable {α : Type}

/-! ### Shares -/

/-- The shares of the first `i` of some ways together. -/
def sharesBefore (ways : List (StateGeometry α)) (i : Nat) : Nat :=
  ((ways.take i).map StateGeometry.share).sum

@[simp] theorem sharesBefore_zero (ways : List (StateGeometry α)) : sharesBefore ways 0 = 0 := rfl

theorem sharesBefore_cons_succ (g : StateGeometry α) (ways : List (StateGeometry α)) (i : Nat) :
    sharesBefore (g :: ways) (i + 1) = g.share + sharesBefore ways i := by
  simp [sharesBefore]

theorem sharesBefore_length (m : StateModel α) :
    sharesBefore m.geometries m.geometries.length = m.totalShare := by
  rw [sharesBefore, List.take_length]
  rfl

/-- A way and those before it have no more shares than all together. -/
theorem sharesBefore_add_share_le {ways : List (StateGeometry α)} {i : Nat} {g : StateGeometry α}
    (h : ways[i]? = some g) :
    sharesBefore ways i + g.share ≤ (ways.map StateGeometry.share).sum := by
  induction ways generalizing i with
  | nil => simp at h
  | cons f ways ih =>
      rw [List.map_cons, List.sum_cons]
      cases i with
      | zero =>
          obtain rfl : f = g := by simpa using h
          rw [sharesBefore_zero]
          omega
      | succ i =>
          have hrest := ih (i := i) (by simpa using h)
          rw [sharesBefore_cons_succ]
          omega

/-! ### The scan -/

/-- **What the scan finds**: the way in whose stretch the number lies. -/
theorem pickFrom_eq_some_iff {ways : List (StateGeometry α)} {index pick j : Nat}
    {g : StateGeometry α} :
    pickFrom index pick ways = some (j, g) ↔
      ∃ i, j = index + i ∧ ways[i]? = some g ∧
        sharesBefore ways i ≤ pick ∧ pick < sharesBefore ways i + g.share := by
  induction ways generalizing index pick with
  | nil => simp [pickFrom]
  | cons f ways ih =>
      rw [pickFrom]
      split
      · rename_i hpick
        constructor
        · rintro ⟨⟩
          exact ⟨0, rfl, rfl, Nat.zero_le _, by simpa using hpick⟩
        · rintro ⟨i, rfl, hi, hle, -⟩
          -- a later way would start behind the shares of this one
          cases i with
          | zero =>
              obtain rfl : f = g := by simpa using hi
              rfl
          | succ i =>
              rw [sharesBefore_cons_succ] at hle
              omega
      · rename_i hpick
        rw [ih]
        constructor
        · rintro ⟨i, rfl, hi, hle, hlt⟩
          refine ⟨i + 1, by omega, by simpa using hi, ?_, ?_⟩ <;> rw [sharesBefore_cons_succ] <;>
            omega
        · rintro ⟨i, rfl, hi, hle, hlt⟩
          cases i with
          | zero =>
              obtain rfl : f = g := by simpa using hi
              rw [sharesBefore_zero] at hlt
              omega
          | succ i =>
              rw [sharesBefore_cons_succ] at hle hlt
              exact ⟨i, by omega, by simpa using hi, by omega, by omega⟩

/-- The scan finds something below the total of the shares, and only there. -/
theorem isSome_pickFrom_iff {ways : List (StateGeometry α)} {index pick : Nat} :
    (pickFrom index pick ways).isSome ↔ pick < (ways.map StateGeometry.share).sum := by
  induction ways generalizing index pick with
  | nil => simp [pickFrom]
  | cons f ways ih =>
      rw [pickFrom, List.map_cons, List.sum_cons]
      split
      · simp only [Option.isSome_some, true_iff]
        omega
      · rw [ih]
        omega

/-! ### What a seed selects -/

/-- There are shares exactly if there are ways to draw the state. -/
theorem totalShare_eq_zero_iff {m : StateModel α} : m.totalShare = 0 ↔ m.geometries = [] := by
  rw [← sharesBefore_length]
  cases m.geometries with
  | nil => simp
  | cons g ways =>
      have hshare : 0 < g.share := Nat.lt_of_lt_of_le Nat.zero_lt_one (Nat.le_max_right _ _)
      rw [List.length_cons, sharesBefore_cons_succ]
      simp only [reduceCtorEq, iff_false]
      omega

/-- Below the total of the shares the scan never misses. -/
theorem isSome_pickFrom_mod {m : StateModel α} (h : m.totalShare ≠ 0) (seed : Nat) :
    (pickFrom 0 (seed % m.totalShare) m.geometries).isSome :=
  isSome_pickFrom_iff.2 (Nat.mod_lt _ (Nat.pos_of_ne_zero h))

/-- A seed selects what the scan finds; the last way never has to stand in. -/
theorem chooseIndexed_eq_pickFrom {m : StateModel α} (h : m.totalShare ≠ 0) (seed : Nat) :
    m.chooseIndexed seed = pickFrom 0 (seed % m.totalShare) m.geometries := by
  obtain ⟨picked, hpicked⟩ := Option.isSome_iff_exists.1 (isSome_pickFrom_mod h seed)
  simp only [chooseIndexed, h, if_false, hpicked]

/-- **What a seed selects**: the way in whose stretch it falls, modulo the total. -/
theorem chooseIndexed_eq_some_iff {m : StateModel α} {seed i : Nat} {g : StateGeometry α} :
    m.chooseIndexed seed = some (i, g) ↔
      m.geometries[i]? = some g ∧ sharesBefore m.geometries i ≤ seed % m.totalShare ∧
        seed % m.totalShare < sharesBefore m.geometries i + g.share := by
  by_cases h : m.totalShare = 0
  · have hnone : m.chooseIndexed seed = none := by simp [chooseIndexed, h]
    simp [hnone, totalShare_eq_zero_iff.1 h]
  · rw [chooseIndexed_eq_pickFrom h, pickFrom_eq_some_iff]
    simp only [Nat.zero_add]
    exact ⟨fun ⟨_, hj, hg⟩ => hj ▸ hg, fun hg => ⟨i, rfl, hg⟩⟩

/-- The way at a place is selected by the seeds that fall into its stretch. -/
theorem selects_iff {m : StateModel α} {seed i : Nat} {g : StateGeometry α}
    (hi : m.geometries[i]? = some g) :
    (m.chooseIndexed seed).map Prod.fst = some i ↔
      sharesBefore m.geometries i ≤ seed % m.totalShare ∧
        seed % m.totalShare < sharesBefore m.geometries i + g.share := by
  rw [Option.map_eq_some_iff]
  constructor
  · rintro ⟨⟨j, f⟩, hpick, rfl⟩
    obtain ⟨hf, hstretch⟩ := chooseIndexed_eq_some_iff.1 hpick
    obtain rfl : f = g := Option.some.inj (hf.symm.trans hi)
    exact hstretch
  · intro hstretch
    exact ⟨(i, g), chooseIndexed_eq_some_iff.2 ⟨hi, hstretch⟩, rfl⟩

theorem chooseIndexed_eq_none_iff {m : StateModel α} {seed : Nat} :
    m.chooseIndexed seed = none ↔ m.geometries = [] := by
  rw [← totalShare_eq_zero_iff]
  by_cases h : m.totalShare = 0
  · simp [chooseIndexed, h]
  · have hsome := isSome_pickFrom_mod h seed
    rw [← chooseIndexed_eq_pickFrom h, Option.isSome_iff_ne_none] at hsome
    simp [hsome, h]

theorem chooseIndexed_mod (m : StateModel α) (seed : Nat) :
    m.chooseIndexed (seed % m.totalShare) = m.chooseIndexed seed := by
  simp only [chooseIndexed, Nat.mod_mod]

/-- The number that comes with a selected way is its place in the list. -/
theorem choose_eq_getElem? (m : StateModel α) (seed : Nat) :
    m.choose seed = ((m.chooseIndexed seed).map Prod.fst).bind (m.geometries[·]?) := by
  rw [choose]
  cases hpick : m.chooseIndexed seed with
  | none => rfl
  | some picked => exact (chooseIndexed_eq_some_iff.1 hpick).1.symm

/-! ### Seeds in a row -/

/-- As many numbers in a row as the modulus meet each stretch of remainders as often as it is
long. -/
theorem card_filter_mod_mem (start total lower length : Nat) (h : lower + length ≤ total) :
    ((Finset.Ico start (start + total)).filter fun n =>
      lower ≤ n % total ∧ n % total < lower + length).card = length := by
  have hperiodic : Function.Periodic
      (fun n => lower ≤ n % total ∧ n % total < lower + length) total :=
    fun n => by simp only [Nat.add_mod_right]
  have hstretch : ((Finset.range total).filter fun n =>
      lower ≤ n % total ∧ n % total < lower + length) = Finset.Ico lower (lower + length) := by
    ext n
    simp only [Finset.mem_filter, Finset.mem_range, Finset.mem_Ico]
    constructor
    · rintro ⟨hn, hlen⟩
      rwa [Nat.mod_eq_of_lt hn] at hlen
    · intro hlen
      have hn : n < total := by omega
      rw [Nat.mod_eq_of_lt hn]
      exact ⟨hn, hlen⟩
  rw [Nat.filter_Ico_card_eq_of_periodic _ _ _ hperiodic, Nat.count_eq_card_filter_range,
    hstretch, Nat.card_Ico, Nat.add_sub_cancel_left]

/-- **How often each way is selected.**  Each way counts with its weight, and with one if it has
none.  Over as many seeds in a row as that makes together, the way at place `i` is selected exactly
as often as it counts.  The seed only matters modulo that total.  Nothing is selected exactly if
there is nothing to draw; otherwise the scan always finds a way, so that the last one never has to
stand in. -/
theorem chosen_in_proportion (m : StateModel α) :
    m.totalShare = (m.geometries.map fun g => max g.weight 1).sum ∧
    (∀ (start : Nat) (i : Fin m.geometries.length),
      ((Finset.Ico start (start + m.totalShare)).filter fun seed =>
        (m.chooseIndexed seed).map Prod.fst = some i.val).card = max m.geometries[i].weight 1) ∧
    (∀ seed, m.choose seed = ((m.chooseIndexed seed).map Prod.fst).bind (m.geometries[·]?)) ∧
    (∀ seed, m.choose seed = m.choose (seed % m.totalShare)) ∧
    (∀ seed, m.choose seed = none ↔ m.geometries = []) ∧
    ∀ seed, ¬ (m.totalShare ≠ 0 ∧ pickFrom 0 (seed % m.totalShare) m.geometries = none) := by
  refine ⟨rfl, ?_, choose_eq_getElem? m, ?_, ?_, ?_⟩
  · intro start i
    have hi : m.geometries[i.val]? = some m.geometries[i] := List.getElem?_eq_getElem i.isLt
    simp only [selects_iff hi]
    exact card_filter_mod_mem start m.totalShare _ _ (sharesBefore_add_share_le hi)
  · intro seed
    rw [choose, choose, chooseIndexed_mod]
  · intro seed
    rw [choose, Option.map_eq_none_iff, chooseIndexed_eq_none_iff]
  · rintro seed ⟨htotal, hnone⟩
    have hsome := isSome_pickFrom_mod htotal seed
    rw [hnone] at hsome
    cases hsome

end VoxelBake.StateModel
