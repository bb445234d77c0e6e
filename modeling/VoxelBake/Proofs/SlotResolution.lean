/-
**Which texture a slot stands for.**

A slot of a model holds a texture or points at another slot.  The texture of a slot is found by
following the pointers, no more than fifty of them; where that leads to no texture the slot stands
for the missing texture.  Without a bound there are three ways for the pointers to go: they come to
a texture, to a slot that is not there, or back to a slot where they were before.  The bound matters
only in the first case, and only in tables of more than fifty-one slots.

Main definitions:

* `Model.Points` — the slots that the pointers of a table lead to;
* `Model.ShowsAfter` — **the texture that the pointers come to**, whatever their number;
* `Model.DeadEnd`, `Model.Circular` — pointers that come to no texture.

Main results:

* `Model.showsAfter_iff`, `Model.deadEnd_iff`, `Model.circular_iff` — pointers as chains;
* `Model.resolveSlot_exact` — **the texture of a slot**.
-/
import VoxelBake.Model.Basic
import VoxelBake.Proofs.BoundedWalks

set_option relaxedAutoImplicit false
set_option autoImplicit false

namespace VoxelBake.Model

/-! ### Following pointers -/

/-- The slots that the pointers of a table lead to: `Points textures name n l` says that `n`
pointers lead from the slot `name` to the slot `l`, which may not be there. -/
inductive Points (textures : Table String TextureRef) (name : String) : Nat → String → Prop
  | here : Points textures name 0 name
  | pointer {n : Nat} {l next : String} : Points textures name n l →
      textures.get? l = some (.slot next) → Points textures name (n + 1) next

/-- The pointers from a slot on come to a texture. -/
def ShowsAfter (textures : Table String TextureRef) (name : String) (n : Nat) (id : Identifier) :
    Prop :=
  ∃ l, Points textures name n l ∧ textures.get? l = some (.texture id)

/-- The pointers from a slot on come to a slot that is not there. -/
def DeadEnd (textures : Table String TextureRef) (name : String) : Prop :=
  ∃ n l, Points textures name n l ∧ textures.get? l = none

/-- The pointers from a slot on come to the same slot twice. -/
def Circular (textures : Table String TextureRef) (name : String) : Prop :=
  ∃ n l m, Points textures name n l ∧ Points textures l (m + 1) l

section Chains

variable {textures : Table String TextureRef} {name : String}

theorem slotStep_eq_next_iff {next : String} :
    slotStep textures name = .next next ↔ textures.get? name = some (.slot next) := by
  rw [slotStep]
  split <;> simp_all

theorem slotStep_eq_done_iff {id : Identifier} :
    slotStep textures name = .done id ↔ textures.get? name = some (.texture id) := by
  rw [slotStep]
  split <;> simp_all

theorem slotStep_eq_missing_iff :
    slotStep textures name = .missing ↔ textures.get? name = none := by
  rw [slotStep]
  split <;> simp_all

theorem mem_keys_of_slotStep (h : slotStep textures name ≠ .missing) : name ∈ textures.keys := by
  rw [ne_eq, slotStep_eq_missing_iff, Table.get?_eq_none_iff, Decidable.not_not] at h
  exact h

theorem points_iff {n : Nat} {l : String} :
    Points textures name n l ↔ Chain.Reaches (slotStep textures) name n l := by
  constructor
  · intro h
    induction h with
    | here => exact .here
    | pointer _ hget ih => exact .hop ih (slotStep_eq_next_iff.2 hget)
  · intro h
    induction h with
    | here => exact .here
    | hop _ hnext ih => exact .pointer ih (slotStep_eq_next_iff.1 hnext)

theorem showsAfter_iff {n : Nat} {id : Identifier} :
    ShowsAfter textures name n id ↔ Chain.EndsAt (slotStep textures) name n id := by
  simp only [ShowsAfter, Chain.EndsAt, points_iff, slotStep_eq_done_iff]

theorem deadEnd_iff :
    DeadEnd textures name ↔ ∃ n, Chain.BreaksOff (slotStep textures) name n := by
  simp only [DeadEnd, Chain.BreaksOff, points_iff, slotStep_eq_missing_iff]

theorem circular_iff : Circular textures name ↔ Chain.GoesRound (slotStep textures) name := by
  simp only [Circular, Chain.GoesRound, points_iff]

/-- **Where pointers lead.**  They come to a texture, break off, or go round. -/
theorem pointers_cases (textures : Table String TextureRef) (name : String) :
    (∃ n id, ShowsAfter textures name n id) ∨ DeadEnd textures name ∨ Circular textures name := by
  simp only [showsAfter_iff, deadEnd_iff, circular_iff]
  exact Chain.cases_of_keys (fun _ => mem_keys_of_slotStep) name

theorem ShowsAfter.unique {n m : Nat} {id other : Identifier} (h : ShowsAfter textures name n id)
    (h' : ShowsAfter textures name m other) : m = n ∧ other = id :=
  (showsAfter_iff.1 h).unique (showsAfter_iff.1 h')

/-- Pointers that come to a texture come to no dead end and do not go round. -/
theorem ShowsAfter.not_deadEnd {n : Nat} {id : Identifier} (h : ShowsAfter textures name n id) :
    ¬ DeadEnd textures name := by
  rw [deadEnd_iff]
  rintro ⟨m, hbreak⟩
  exact (showsAfter_iff.1 h).not_breaksOff hbreak

theorem ShowsAfter.not_circular {n : Nat} {id : Identifier} (h : ShowsAfter textures name n id) :
    ¬ Circular textures name := by
  rw [circular_iff]
  exact (showsAfter_iff.1 h).not_goesRound

/-- A texture is reached with fewer pointers than there are slots. -/
theorem ShowsAfter.lt_size {n : Nat} {id : Identifier} (h : ShowsAfter textures name n id) :
    n < textures.size := by
  have hlt := (showsAfter_iff.1 h).lt_length fun _ => mem_keys_of_slotStep
  rwa [Table.keys, List.length_map] at hlt

end Chains

/-! ### The texture of a slot -/

variable {α : Type} {m : Model α} {name : String}

theorem resolveSlot_of_showsAfter {n : Nat} {id : Identifier}
    (h : ShowsAfter m.textures name n id) (hn : n ≤ maxSlotHops) : m.resolveSlot name = id := by
  rw [resolveSlot, (showsAfter_iff.1 h).outcome hn]

theorem resolveSlot_of_not_showsAfter
    (h : ¬ ∃ n ≤ maxSlotHops, ∃ id, ShowsAfter m.textures name n id) :
    m.resolveSlot name = Identifier.missing := by
  rw [resolveSlot]
  cases hwalk : (Chain.follow (slotStep m.textures) maxSlotHops name).outcome with
  | error e => rfl
  | ok id =>
      obtain ⟨n, hn, hend⟩ := Chain.outcome_eq_ok_iff.1 hwalk
      exact absurd ⟨n, hn, id, showsAfter_iff.2 hend⟩ h

/-- What a slot stands for if pointers are followed as long as their number is allowed. -/
theorem resolveSlot_eq_iff {allowed : Nat → Prop}
    (hbound : ∀ n id, ShowsAfter m.textures name n id → (allowed n ↔ n ≤ maxSlotHops))
    (id : Identifier) :
    m.resolveSlot name = id ↔
      (∃ n, allowed n ∧ ShowsAfter m.textures name n id) ∨
        id = Identifier.missing ∧
          ¬ ∃ n, allowed n ∧ ∃ other, ShowsAfter m.textures name n other := by
  by_cases h : ∃ n, allowed n ∧ ∃ other, ShowsAfter m.textures name n other
  · obtain ⟨n, hn, other, hother⟩ := h
    rw [resolveSlot_of_showsAfter hother ((hbound n other hother).1 hn)]
    constructor
    · rintro rfl
      exact .inl ⟨n, hn, hother⟩
    · rintro (⟨k, -, hk⟩ | ⟨-, hnone⟩)
      · exact (hother.unique hk).2.symm
      · exact absurd ⟨n, hn, other, hother⟩ hnone
  · have hnone : ¬ ∃ n ≤ maxSlotHops, ∃ id, ShowsAfter m.textures name n id := by
      rintro ⟨n, hn, other, hother⟩
      exact h ⟨n, (hbound n other hother).2 hn, other, hother⟩
    rw [resolveSlot_of_not_showsAfter hnone]
    constructor
    · rintro rfl
      exact .inr ⟨rfl, h⟩
    · rintro (⟨n, hn, hid⟩ | ⟨rfl, -⟩)
      · exact absurd ⟨n, hn, id, hid⟩ h
      · rfl

/-- **The texture of a slot.**  A slot stands for the texture that its pointers come to, provided
that there are no more than fifty of them, and for the missing texture otherwise: if they break off,
go round, or come to a texture later.  In a table of at most fifty-one slots pointers never come to
a texture later, so that a slot stands for whatever texture its pointers come to at all. -/
theorem resolveSlot_exact (m : Model α) (name : String) :
    (∀ id, m.resolveSlot name = id ↔
      (∃ n ≤ 50, ShowsAfter m.textures name n id) ∨
        id = Identifier.missing ∧ ¬ ∃ n ≤ 50, ∃ other, ShowsAfter m.textures name n other) ∧
    ((¬ ∃ n ≤ 50, ∃ id, ShowsAfter m.textures name n id) ↔
      DeadEnd m.textures name ∨ Circular m.textures name ∨
        ∃ n > 50, ∃ id, ShowsAfter m.textures name n id) ∧
    (m.textures.size ≤ 51 → ∀ id, m.resolveSlot name = id ↔
      (∃ n, ShowsAfter m.textures name n id) ∨
        id = Identifier.missing ∧ ¬ ∃ n other, ShowsAfter m.textures name n other) := by
  refine ⟨fun id => resolveSlot_eq_iff (fun _ _ _ => Iff.rfl) id, ⟨fun h => ?_, ?_⟩, ?_⟩
  · rcases pointers_cases m.textures name with ⟨n, id, hend⟩ | hbreak | hround
    · have hn : 50 < n := Nat.lt_of_not_le fun hle => h ⟨n, hle, id, hend⟩
      exact .inr (.inr ⟨n, hn, id, hend⟩)
    · exact .inl hbreak
    · exact .inr (.inl hround)
  · rintro hother ⟨n, hn, id, hend⟩
    rcases hother with hbreak | hround | ⟨k, hk, other, hlate⟩
    · exact hend.not_deadEnd hbreak
    · exact hend.not_circular hround
    · obtain ⟨rfl, -⟩ := hlate.unique hend
      exact Nat.not_lt_of_le hn hk
  · intro hsize id
    have hbound : ∀ n other, ShowsAfter m.textures name n other → (True ↔ n ≤ maxSlotHops) := by
      intro n other hother
      have hlt := hother.lt_size
      exact ⟨fun _ => Nat.le_of_lt_succ (hlt.trans_le hsize), fun _ => trivial⟩
    simpa using resolveSlot_eq_iff hbound id

/-! ### At the bound -/

/-- A model in whose table each slot points at the one before it, down to a texture. -/
def ladder (n : Nat) : Model Rat where
  textures := Table.ofList ((layerSlot 0, .texture ⟨"minecraft", "block/stone"⟩) ::
    (List.range n).map fun i => (layerSlot (i + 1), .slot (layerSlot i)))
  elements := []
  display := ∅

theorem entries_ladder (n : Nat) :
    (ladder n).textures.entries = (layerSlot 0, .texture ⟨"minecraft", "block/stone"⟩) ::
      (List.range n).map fun i => (layerSlot (i + 1), .slot (layerSlot i)) := by
  refine Table.entries_ofList (List.nodup_cons.2 ⟨?_, ?_⟩)
  · simp only [List.map_map, List.mem_map, not_exists, not_and]
    intro i _ h
    exact absurd (layerSlot_injective h) (Nat.succ_ne_zero i)
  · rw [List.map_map]
    exact List.nodup_range.map fun i j h => Nat.succ.inj (layerSlot_injective h)

theorem size_ladder (n : Nat) : (ladder n).textures.size = n + 1 := by
  rw [Table.size, entries_ladder, List.length_cons, List.length_map, List.length_range]

/-- The pointers of a ladder lead from its last slot down to its texture. -/
theorem showsAfter_ladder (n : Nat) :
    ShowsAfter (ladder n).textures (layerSlot n) n ⟨"minecraft", "block/stone"⟩ := by
  have hdown : ∀ k ≤ n, Points (ladder n).textures (layerSlot n) k (layerSlot (n - k)) := by
    intro k
    induction k with
    | zero => exact fun _ => .here
    | succ k ih =>
        intro hk
        refine .pointer (ih (Nat.le_of_succ_le hk)) (Table.get?_eq_some_iff.2 ?_)
        rw [entries_ladder]
        refine List.mem_cons_of_mem _ (List.mem_map.2 ⟨n - (k + 1), ?_, ?_⟩)
        · rw [List.mem_range]
          omega
        · have hprev : n - (k + 1) + 1 = n - k := by omega
          rw [hprev]
  refine ⟨layerSlot 0, ?_, Table.get?_eq_some_iff.2 ?_⟩
  · simpa using hdown n le_rfl
  · rw [entries_ladder]
    exact List.mem_cons_self

/-- With fifty-one slots the texture is found over all of them; with one slot more it is not. -/
theorem resolveSlot_exact_ladder :
    (ladder 50).textures.size = 51 ∧
    (ladder 50).resolveSlot (layerSlot 50) = ⟨"minecraft", "block/stone"⟩ ∧
    (ladder 51).textures.size = 52 ∧
    (ladder 51).resolveSlot (layerSlot 51) = Identifier.missing := by
  have hsize := size_ladder 50
  obtain ⟨hexact, hnone, -⟩ := resolveSlot_exact (ladder 51) (layerSlot 51)
  have hlate : ∃ n > 50, ∃ id, ShowsAfter (ladder 51).textures (layerSlot 51) n id :=
    ⟨51, by decide, _, showsAfter_ladder 51⟩
  exact ⟨hsize,
    ((resolveSlot_exact (ladder 50) _).2.2 hsize.le _).2 (.inl ⟨50, showsAfter_ladder 50⟩),
    size_ladder 51, (hexact _).2 (.inr ⟨rfl, hnone.2 (.inr (.inr hlate))⟩)⟩

end VoxelBake.Model
