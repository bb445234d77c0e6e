/-
**How many layers a model has.**

Layers are slots of the names `layer0`, `layer1` and so on, and they are counted up to the first one
that is missing.  Names of different numbers are different and a table has finitely many slots, so
there is a missing one; counting finds it after no more look-ups than there are slots, and one.
Slots of other names, also those that only look like layers, have no say.

Main definitions:

* `Model.LayerScan`, `Model.LayerScan.step` — counting without a bound, one look-up at a time;
* `Model.IsLayer`, `Model.onlyLayers` — the names of layers, and a model that has no other slots.

Main results:

* `Model.le_size_of_layers` — no more layers than slots;
* `Model.layersFrom_spec` — what counting from a number on gives;
* `Model.LayerScan.iterate_step` — **where counting without a bound is after so many look-ups**;
* `Model.isLayer_iff` — which names are those of layers, by the number that they would have;
* `Model.layerCount_exact` — **the number of layers**.
-/
import Mathlib.Data.Finset.Card
import Mathlib.Logic.Function.Iterate
import VoxelBake.Model.Basic

set_option relaxedAutoImplicit false
set_option autoImplicit false

namespace VoxelBake.Model

/-! ### Layers and slots -/

section Layers

variable {textures : Table String TextureRef}

/-- A table has at least as many slots as it has layers. -/
theorem le_size_of_layers {n : Nat} (h : ∀ i < n, layerSlot i ∈ textures.keys) :
    n ≤ textures.size := by
  have hnodup : ((List.range n).map layerSlot).Nodup :=
    List.nodup_range.map fun _ _ => layerSlot_injective
  have hsubset : (List.range n).map layerSlot ⊆ textures.keys := by
    intro name hname
    obtain ⟨i, hi, rfl⟩ := List.mem_map.1 hname
    exact h i (List.mem_range.1 hi)
  have hle := (hnodup.subperm hsubset).length_le
  rwa [List.length_map, List.length_range, Table.keys, List.length_map] at hle

/-- Numbers that are preceded by layers only and are none themselves are the same. -/
theorem layers_unique {n k : Nat} (hn : ∀ i < n, layerSlot i ∈ textures.keys)
    (hn' : layerSlot n ∉ textures.keys) (hk : ∀ i < k, layerSlot i ∈ textures.keys)
    (hk' : layerSlot k ∉ textures.keys) : n = k := by
  rcases lt_trichotomy n k with hlt | heq | hgt
  · exact absurd (hk n hlt) hn'
  · exact heq
  · exact absurd (hn k hgt) hk'

/-- Counting from a number on passes over layers only, and stops at a missing one unless the fuel
is used up. -/
theorem layersFrom_spec (textures : Table String TextureRef) (fuel n : Nat) :
    (∀ i < layersFrom textures fuel n, layerSlot (n + i) ∈ textures.keys) ∧
      (layersFrom textures fuel n = fuel ∨
        layerSlot (n + layersFrom textures fuel n) ∉ textures.keys) := by
  induction fuel generalizing n with
  | zero => exact ⟨nofun, .inl rfl⟩
  | succ fuel ih =>
      rw [layersFrom]
      split
      next hslot =>
        obtain ⟨hlayers, hend⟩ := ih (n + 1)
        refine ⟨fun i hi => ?_, ?_⟩
        · cases i with
          | zero => exact Table.contains_eq_true_iff.1 hslot
          | succ i =>
              rw [Nat.add_comm i 1, ← Nat.add_assoc]
              exact hlayers i (Nat.lt_of_succ_lt_succ hi)
        · rw [Nat.add_comm _ 1, ← Nat.add_assoc, Nat.add_comm fuel 1, Nat.add_right_inj]
          exact hend
      next hslot =>
        exact ⟨nofun, .inr fun hmem => hslot (Table.contains_eq_true_iff.2 hmem)⟩

end Layers

/-! ### The number of layers -/

section Count

variable {α β : Type}

/-- What lies below the number of layers is a layer. -/
theorem layerSlot_mem_keys {m : Model α} {i : Nat} (h : i < m.layerCount) :
    layerSlot i ∈ m.textures.keys := by
  have hmem := (layersFrom_spec m.textures m.textures.size 0).1 i h
  rwa [Nat.zero_add] at hmem

theorem layerCount_le_size (m : Model α) : m.layerCount ≤ m.textures.size :=
  le_size_of_layers fun _ => layerSlot_mem_keys

/-- The slot after the last layer is missing: the fuel is used up only where every slot is a layer,
and then one more layer would be one more than there are slots. -/
theorem layerSlot_layerCount_not_mem (m : Model α) :
    layerSlot m.layerCount ∉ m.textures.keys := by
  rcases (layersFrom_spec m.textures m.textures.size 0).2 with hall | hend
  · intro hmem
    have hlayers : ∀ i < m.layerCount + 1, layerSlot i ∈ m.textures.keys := by
      intro i hi
      rcases Nat.lt_succ_iff_lt_or_eq.1 hi with hlt | rfl
      · exact layerSlot_mem_keys hlt
      · exact hmem
    have hsize : m.layerCount = m.textures.size := hall
    exact absurd (le_size_of_layers hlayers) (by omega)
  · rwa [Nat.zero_add] at hend

theorem layerCount_eq_iff {m : Model α} {n : Nat} :
    m.layerCount = n ↔ (∀ i < n, layerSlot i ∈ m.textures.keys) ∧
      layerSlot n ∉ m.textures.keys := by
  constructor
  · rintro rfl
    exact ⟨fun _ => layerSlot_mem_keys, layerSlot_layerCount_not_mem m⟩
  · rintro ⟨hlayers, hend⟩
    exact layers_unique (fun _ => layerSlot_mem_keys) (layerSlot_layerCount_not_mem m)
      hlayers hend

/-- Models with the same layers among their slots have equally many. -/
theorem layerCount_congr {m : Model α} {m' : Model β}
    (h : ∀ n, layerSlot n ∈ m'.textures.keys ↔ layerSlot n ∈ m.textures.keys) :
    m'.layerCount = m.layerCount := by
  simp only [layerCount_eq_iff, h]
  exact layerCount_eq_iff.1 rfl

end Count

/-! ### Counting without a bound -/

/-- Where a count of layers is that knows no bound. -/
inductive LayerScan
  /-- The slot of this number is looked up next. -/
  | looking (next : Nat)
  /-- So many layers were counted. -/
  | stopped (count : Nat)
deriving DecidableEq

/-- One look-up. -/
def LayerScan.step (textures : Table String TextureRef) : LayerScan → LayerScan
  | looking next =>
      if textures.contains (layerSlot next) then looking (next + 1) else stopped next
  | stopped count => stopped count

section Scan

variable {textures : Table String TextureRef} {n : Nat}

theorem LayerScan.step_looking_of_mem (h : layerSlot n ∈ textures.keys) :
    step textures (looking n) = looking (n + 1) :=
  if_pos (Table.contains_eq_true_iff.2 h)

theorem LayerScan.step_looking_of_not_mem (h : layerSlot n ∉ textures.keys) :
    step textures (looking n) = stopped n :=
  if_neg fun hmem => h (Table.contains_eq_true_iff.1 hmem)

/-- Counting without a bound looks at one layer after another and stops at the first missing
one. -/
theorem LayerScan.iterate_step {α : Type} (m : Model α) (k : Nat) :
    (step m.textures)^[k] (looking 0) =
      if k ≤ m.layerCount then looking k else stopped m.layerCount := by
  induction k with
  | zero => rfl
  | succ k ih =>
      rw [Function.iterate_succ_apply', ih]
      rcases lt_trichotomy k m.layerCount with hlt | rfl | hgt
      · rw [if_pos hlt.le, if_pos (show k + 1 ≤ m.layerCount from hlt)]
        exact step_looking_of_mem (layerSlot_mem_keys hlt)
      · rw [if_pos le_rfl, if_neg (Nat.not_succ_le_self _)]
        exact step_looking_of_not_mem (layerSlot_layerCount_not_mem m)
      · rw [if_neg hgt.not_ge, if_neg (Nat.lt_succ_of_lt hgt).not_ge]
        rfl

end Scan

/-! ### Names that look like layers -/

/-- The name of a layer. -/
def IsLayer (name : String) : Prop := ∃ n, layerSlot n = name

/-- The number that the signs after `layer` stand for, if they are digits. -/
def layerNumber (name : String) : Nat := Nat.ofDigitChars 10 (name.toList.drop 5) 0

theorem layerNumber_layerSlot (n : Nat) : layerNumber (layerSlot n) = n := by
  have hdigits : (layerSlot n).toList.drop 5 = Nat.toDigits 10 n := by simp [layerSlot]
  rw [layerNumber, hdigits, Nat.ofDigitChars_toDigits (by decide) (by decide)]

/-- Only one number has to be tried. -/
theorem isLayer_iff {name : String} : IsLayer name ↔ layerSlot (layerNumber name) = name := by
  constructor
  · rintro ⟨n, rfl⟩
    rw [layerNumber_layerSlot]
  · exact fun h => ⟨_, h⟩

instance (name : String) : Decidable (IsLayer name) := decidable_of_iff' _ isLayer_iff

/-- The model without the slots that are no layers. -/
def onlyLayers {α : Type} (m : Model α) : Model α :=
  { m with textures :=
      ⟨m.textures.entries.filter (IsLayer ·.1),
        m.textures.nodup_keys.sublist (List.filter_sublist.map Prod.fst)⟩ }

theorem layerSlot_mem_keys_onlyLayers {α : Type} (m : Model α) (n : Nat) :
    layerSlot n ∈ (onlyLayers m).textures.keys ↔ layerSlot n ∈ m.textures.keys := by
  simp only [onlyLayers, Table.keys, List.mem_map, List.mem_filter, decide_eq_true_eq]
  constructor
  · rintro ⟨slot, ⟨hslot, -⟩, hname⟩
    exact ⟨slot, hslot, hname⟩
  · rintro ⟨slot, hslot, hname⟩
    exact ⟨slot, ⟨hslot, n, hname.symm⟩, hname⟩

/-- **The number of layers**: the number of a model is the one before which every number names a
slot and which names none itself, and it is no larger than the number of slots.  Counting without
a bound ends with it, after one look-up more.  Slots of other names do not matter, nor do
the textures of the layers. -/
theorem layerCount_exact {α : Type} (m : Model α) :
    (∀ n, m.layerCount = n ↔
      (∀ i < n, layerSlot i ∈ m.textures.keys) ∧ layerSlot n ∉ m.textures.keys) ∧
    m.layerCount ≤ m.textures.size ∧
    (∀ k, (LayerScan.step m.textures)^[k] (.looking 0) =
      if k ≤ m.layerCount then .looking k else .stopped m.layerCount) ∧
    ∀ m' : Model α, (∀ n, layerSlot n ∈ m'.textures.keys ↔ layerSlot n ∈ m.textures.keys) →
      m'.layerCount = m.layerCount :=
  ⟨fun _ => layerCount_eq_iff, layerCount_le_size m, LayerScan.iterate_step m,
    fun _ => layerCount_congr⟩

/-- A model with two layers, a gap, and slots whose names look like the missing layer. -/
def lookAlikes : Model Rat where
  textures := Table.ofList
    (["layer00", "layer0", "layer+2", "layer1", "layer02", "layer2 ", "layer3"].map fun name =>
      (name, .texture ⟨"minecraft", "block/stone"⟩))
  elements := []
  display := ∅

/-- The third layer is missing, whatever looks like it; without the look-alikes the number is the
same. -/
theorem layerCount_exact_lookAlikes :
    lookAlikes.textures.size = 7 ∧ lookAlikes.layerCount = 2 ∧
    (LayerScan.step lookAlikes.textures)^[3] (.looking 0) = .stopped 2 ∧
    (onlyLayers lookAlikes).textures.size = 3 ∧ (onlyLayers lookAlikes).layerCount = 2 := by
  obtain ⟨hcount, -, hscan, hother⟩ := layerCount_exact lookAlikes
  have htwo : lookAlikes.layerCount = 2 := (hcount 2).2 (by decide)
  refine ⟨by decide, htwo, ?_, by decide, ?_⟩
  · rw [hscan 3, htwo]
    rfl
  · rw [hother (onlyLayers lookAlikes) (layerSlot_mem_keys_onlyLayers lookAlikes), htwo]

end VoxelBake.Model
