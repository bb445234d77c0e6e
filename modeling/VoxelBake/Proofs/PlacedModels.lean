/-
**How a placement is drawn, given the models that are remembered.**

Geometry that was compiled before is only used again for the same model at the same orientation.  A
model that was loaded once is the same ever after, so the geometry is what would be compiled now,
and assembling reads and writes the memory of models alone: a placement is drawn with the model that
a load gives, and drawing it leaves that model behind.

Main definitions:

* `BlockCaches.Sound` — **the invariant of what was made before**: the geometry that is kept is
  compiled from the models that are remembered;
* `Assembler.drawn` — a placement drawn with the models of a memory;
* `Assembler.modelIds` — the models that some placements mean.

Main results:

* `ModelCache.resolves_load_self`, `ModelCache.Resolves.loadAll` — a loaded model is the same ever
  after;
* `Assembler.place_spec`, `Assembler.compileVariants_spec`, `Assembler.compileParts_spec` —
  **placements are drawn with the models remembered at the end**;
* `Assembler.sound_states` — assembling a block keeps the invariant.
-/
import Mathlib.Data.List.Basic
import VoxelBake.Blockstate.Assembly
import VoxelBake.Proofs.LoadHistory

set_option relaxedAutoImplicit false
set_option autoImplicit false

namespace VoxelBake

/-! ### Models that were loaded -/

namespace ModelCache

variable {α : Type} [Scalar α] {read : Identifier → Option (ModelDocument α)}
  {cache : ModelCache α} {id : Identifier} {r : Resolved α}

/-- A model that was just loaded resolves without a hop to what the load gave. -/
theorem resolves_load_self (read : Identifier → Option (ModelDocument α)) (cache : ModelCache α)
    (id : Identifier) :
    Resolves read (load read id cache).2 0 id (load read id cache).1 := by
  obtain ⟨r, hr⟩ := resolves_load read cache id
  suffices hsame : r = (load read id cache).1 from hsame ▸ hr
  rcases load_cases read cache id with hl | ⟨-, hload⟩
  · cases hr with
    | known hk => exact hl.value.unique (hl.entries hk)
    | top hc hp =>
        -- nothing was remembered before either
        have hnone : cache.get? id = none := by
          cases hk : cache.get? id with
          | none => rfl
          | some v =>
              rw [hl.grows hk] at hc
              cases hc
        have htop : Resolves read cache maxParents id (topmost read id) := .top hnone hp
        exact hl.value.unique htop
  · rw [hload] at hr ⊢
    have hk : Resolves read (cache.insert id Resolved.empty) 0 id Resolved.empty :=
      .known (Table.get?_insert_self ..)
    exact hk.unique hr

/-- Another load changes nothing about a model that resolves without a hop. -/
theorem Resolves.load (h : Resolves read cache 0 id r) (j : Identifier) :
    Resolves read (ModelCache.load read j cache).2 0 id r := by
  cases h with
  | known hk => exact .known (get?_load_of_eq_some hk j)
  | top hc hp =>
      cases hk : (ModelCache.load read j cache).2.get? id with
      | none => exact .top hk hp
      | some v =>
          have htop : Resolves read cache maxParents id (topmost read id) := .top hc hp
          have hv : v = topmost read id := by
            rcases load_cases read cache j with hl | ⟨hnot, hload⟩
            · exact htop.unique (hl.entries hk)
            · rw [hload, Table.get?_insert] at hk
              split at hk
              · rename_i hid
                subst hid
                exact absurd htop (hnot _)
              · rw [hc] at hk
                cases hk
          exact .known (hv ▸ hk)

theorem Resolves.loadAll (h : Resolves read cache 0 id r) (ids : List Identifier) :
    Resolves read (ModelCache.loadAll read cache ids) 0 id r := by
  induction ids generalizing cache with
  | nil => exact h
  | cons j ids ih => exact ih (h.load j)

/-- Each of some models that were loaded resolves without a hop. -/
theorem exists_resolves_loadAll (cache : ModelCache α) {ids : List Identifier} (h : id ∈ ids) :
    ∃ r, Resolves read (ModelCache.loadAll read cache ids) 0 id r := by
  obtain ⟨before, after, rfl⟩ := List.append_of_mem h
  rw [loadAll_append]
  exact ⟨_, (resolves_load_self read (ModelCache.loadAll read cache before) id).loadAll after⟩

/-- What resolves without a hop is what a load gives. -/
theorem Resolves.fst_load (h : Resolves read cache 0 id r) :
    (ModelCache.load read id cache).1 = r :=
  fst_load_of_resolves (h.mono (Nat.zero_le _))

end ModelCache

open ModelCache

namespace Assembler

variable {α : Type} (a : Assembler α)

/-! ### Models that placements mean -/

/-- The models that some placements mean. -/
def modelIds (ps : List Placement) : List Identifier := ps.filterMap fun p => a.modelId p.model

/-- The placements of a file with variants, in order. -/
def allPlacements (variants : List (String × List Placement)) : List Placement :=
  variants.flatMap Prod.snd

variable {a}

theorem modelIds_cons (p : Placement) (ps : List Placement) :
    a.modelIds (p :: ps) = (a.modelId p.model).toList ++ a.modelIds ps := by
  simp only [modelIds, List.filterMap_cons]
  cases a.modelId p.model <;> rfl

theorem modelIds_singleton (p : Placement) : a.modelIds [p] = (a.modelId p.model).toList := by
  rw [modelIds_cons]
  exact List.append_nil _

theorem modelIds_append (ps qs : List Placement) :
    a.modelIds (ps ++ qs) = a.modelIds ps ++ a.modelIds qs :=
  List.filterMap_append

theorem contains_modelId {model id : Identifier} (h : a.modelId model = some id) :
    a.contains id = true := by
  simp only [modelId] at h
  split at h
  · rename_i hknown
    cases h
    exact hknown
  · split at h
    · rename_i hknown
      cases h
      exact hknown
    · cases h

theorem modelId_of_contains {id : Identifier} (h : a.contains id = true) :
    a.modelId id = some id := by
  simp [modelId, h]

/-- Each model that placements mean is known. -/
theorem contains_of_mem_modelIds {ps : List Placement} {id : Identifier}
    (h : id ∈ a.modelIds ps) : a.contains id = true := by
  obtain ⟨p, -, hp⟩ := List.mem_filterMap.1 h
  exact contains_modelId hp

/-- A placement of a model as it is. -/
def plainPlacement (id : Identifier) : Placement := ⟨id, 0, 0, false, 1⟩

theorem modelIds_map_plainPlacement {ids : List Identifier}
    (h : ∀ id ∈ ids, a.contains id = true) :
    a.modelIds (ids.map plainPlacement) = ids := by
  induction ids with
  | nil => rfl
  | cons id ids ih =>
      have hid : a.modelId id = some id := modelId_of_contains (h id List.mem_cons_self)
      have hrest := ih fun j hj => h j (List.mem_cons_of_mem _ hj)
      rw [List.map_cons, modelIds_cons, hrest]
      simp [plainPlacement, hid]

variable [Scalar α]

/-- The model that a placement means was loaded. -/
def Remembers (a : Assembler α) (memory : ModelCache α) (p : Placement) : Prop :=
  ∀ id, a.modelId p.model = some id → ∃ r, Resolves a.read memory 0 id r

/-- The models that are remembered after a file with variants was assembled. -/
def memoryAfter (a : Assembler α) (memory : ModelCache α)
    (variants : List (String × List Placement)) : ModelCache α :=
  loadAll a.read memory (a.modelIds (allPlacements variants))

theorem memoryAfter_cons (memory : ModelCache α) (e : String × List Placement)
    (variants : List (String × List Placement)) :
    a.memoryAfter memory (e :: variants)
      = a.memoryAfter (loadAll a.read memory (a.modelIds e.2)) variants := by
  rw [memoryAfter, allPlacements, List.flatMap_cons, modelIds_append, loadAll_append]
  rfl

theorem remembers_self (memory : ModelCache α) (p : Placement) :
    a.Remembers (loadAll a.read memory (a.modelId p.model).toList) p := by
  intro id hid
  exact exists_resolves_loadAll memory (Option.mem_toList.2 hid)

theorem remembers_loadAll {p : Placement} {ps : List Placement} (hp : p ∈ ps)
    (memory : ModelCache α) : a.Remembers (loadAll a.read memory (a.modelIds ps)) p := by
  intro id hid
  exact exists_resolves_loadAll memory (List.mem_filterMap.2 ⟨p, hp, hid⟩)

end Assembler

variable {α : Type} [Scalar α] [Trig α]

/-! ### Geometry that was compiled -/

/-- The geometry that is kept is compiled from the models that are remembered. -/
def BlockCaches.Sound (a : Assembler α) (c : BlockCaches α) : Prop :=
  ∀ id o g, c.geometry.get? (id, o) = some g →
    ∃ r, Resolves a.read c.models 0 id r ∧ g = compile r.model o a.atlas

theorem BlockCaches.sound_empty (a : Assembler α) : BlockCaches.empty.Sound a := by
  intro id o g h
  cases h

/-- Loading a model keeps the invariant. -/
theorem BlockCaches.Sound.load {a : Assembler α} {c : BlockCaches α} (h : c.Sound a)
    (id : Identifier) :
    BlockCaches.Sound a ⟨(ModelCache.load a.read id c.models).2, c.geometry⟩ := by
  intro j o g hg
  obtain ⟨r, hr, hcompile⟩ := h j o g hg
  exact ⟨r, hr.load id, hcompile⟩

namespace Assembler

/-! ### Placements -/

/-- A placement drawn with the models of a memory. -/
def drawn (a : Assembler α) (memory : ModelCache α) (p : Placement) : Option (Placed α) :=
  (a.modelId p.model).map fun id =>
    let model := (ModelCache.load a.read id memory).1.model
    ⟨compile model p.orientation a.atlas, model.resolveSlot particleSlot, p.weight⟩

variable {a : Assembler α} {c : BlockCaches α}

/-- A placement whose model was loaded is drawn in the same way ever after. -/
theorem Remembers.drawn_loadAll {memory : ModelCache α} {p : Placement}
    (h : a.Remembers memory p) (ids : List Identifier) :
    a.drawn (ModelCache.loadAll a.read memory ids) p = a.drawn memory p := by
  cases hid : a.modelId p.model with
  | none => simp only [drawn, hid, Option.map_none]
  | some id =>
      obtain ⟨r, hr⟩ := h id hid
      simp only [drawn, hid, Option.map_some, hr.fst_load, (hr.loadAll ids).fst_load]

/-- Loading its own model does not change how a placement is drawn. -/
theorem drawn_self (memory : ModelCache α) (p : Placement) :
    a.drawn (loadAll a.read memory (a.modelId p.model).toList) p = a.drawn memory p := by
  cases hid : a.modelId p.model with
  | none => rfl
  | some id =>
      have hr := (resolves_load_self a.read memory id).fst_load
      simp only [drawn, hid, Option.map_some, Option.toList_some, loadAll, List.foldl_cons,
        List.foldl_nil, hr]

/-- **A placement is drawn with the model that a load gives**, whatever was compiled before. -/
theorem place_spec (h : c.Sound a) (p : Placement) :
    (a.place p c).1 = a.drawn c.models p ∧
    (a.place p c).2.models = loadAll a.read c.models (a.modelId p.model).toList ∧
    (a.place p c).2.Sound a := by
  cases hid : a.modelId p.model with
  | none =>
      simp only [place, drawn, hid]
      exact ⟨rfl, rfl, h⟩
  | some id =>
      obtain ⟨⟨resolved, models⟩, hload⟩ : ∃ out, ModelCache.load a.read id c.models = out :=
        ⟨_, rfl⟩
      have hr := resolves_load_self a.read c.models id
      have hmodels := h.load id
      rw [hload] at hr hmodels
      -- what was compiled before is what would be compiled now
      have hshape : (Table.fetch c.geometry (id, p.orientation) fun _ =>
          compile resolved.model p.orientation a.atlas).1
            = compile resolved.model p.orientation a.atlas := by
        rw [Table.fst_fetch]
        cases hg : c.geometry.get? (id, p.orientation) with
        | none => rfl
        | some g =>
            obtain ⟨r, hr', rfl⟩ := hmodels id p.orientation g hg
            rw [Option.getD_some, hr.unique hr']
      simp only [place, drawn, hid, hload, hshape, Option.map_some]
      refine ⟨trivial, ?_, ?_⟩
      · simp only [Option.toList_some, loadAll, List.foldl_cons, List.foldl_nil, hload]
      · intro j o g hg
        rw [Table.get?_fetch, hshape] at hg
        split at hg
        · rename_i hkey
          cases hkey
          cases hg
          exact ⟨resolved, hr, rfl⟩
        · exact hmodels j o g hg

/-- The placements of a list are drawn with the models remembered at its end. -/
theorem placeAll_spec (h : c.Sound a) (ps : List Placement) :
    (a.placeAll ps c).1 = ps.filterMap (a.drawn (a.placeAll ps c).2.models) ∧
    (a.placeAll ps c).2.models = loadAll a.read c.models (a.modelIds ps) ∧
    (a.placeAll ps c).2.Sound a := by
  induction ps generalizing c with
  | nil => exact ⟨rfl, rfl, h⟩
  | cons p ps ih =>
      obtain ⟨hplaced, hmodels, hsound⟩ := place_spec h p
      obtain ⟨hrest, hmodels', hsound'⟩ := ih hsound
      have hstep : a.placeAll (p :: ps) c
          = ((a.place p c).1.toList ++ (a.placeAll ps (a.place p c).2).1,
            (a.placeAll ps (a.place p c).2).2) := rfl
      rw [hstep]
      refine ⟨?_, ?_, hsound'⟩
      · have hkeep : a.drawn (a.placeAll ps (a.place p c).2).2.models p = a.drawn c.models p := by
          rw [hmodels', hmodels, (remembers_self c.models p).drawn_loadAll, drawn_self]
        rw [hrest, hplaced, List.filterMap_cons, hkeep]
        cases a.drawn c.models p <;> rfl
      · rw [modelIds_cons, loadAll_append, hmodels', hmodels]

/-- **The variants of a file are drawn with the models remembered at its end.** -/
theorem compileVariants_spec (h : c.Sound a) (variants : List (String × List Placement)) :
    (a.compileVariants variants c).1 = (variants.map fun e =>
      Variant.ofPlaced e.1 (e.2.filterMap (a.drawn (a.memoryAfter c.models variants)))) ∧
    (a.compileVariants variants c).2.models = a.memoryAfter c.models variants ∧
    (a.compileVariants variants c).2.Sound a := by
  induction variants generalizing c with
  | nil => exact ⟨rfl, rfl, h⟩
  | cons e variants ih =>
      obtain ⟨hplaced, hmodels, hsound⟩ := placeAll_spec h e.2
      obtain ⟨hrest, hmodels', hsound'⟩ := ih hsound
      have hstep : a.compileVariants (e :: variants) c
          = (Variant.ofPlaced e.1 (a.placeAll e.2 c).1
              :: (a.compileVariants variants (a.placeAll e.2 c).2).1,
            (a.compileVariants variants (a.placeAll e.2 c).2).2) := rfl
      have hmemory : a.memoryAfter c.models (e :: variants)
          = a.memoryAfter (a.placeAll e.2 c).2.models variants := by
        rw [memoryAfter_cons, hmodels]
      rw [hstep, hmemory]
      refine ⟨?_, hmodels', hsound'⟩
      have hkeep : ∀ p ∈ e.2, a.drawn (a.placeAll e.2 c).2.models p
          = a.drawn (a.memoryAfter (a.placeAll e.2 c).2.models variants) p := by
        intro p hp
        rw [hmodels, memoryAfter, (remembers_loadAll hp c.models).drawn_loadAll]
      rw [hplaced, hrest, List.map_cons, List.filterMap_congr hkeep]

/-- **The parts of a file are drawn with the models remembered at its end.** -/
theorem compileParts_spec (h : c.Sound a) (parts : List Part) :
    (a.compileParts parts c).1 = (parts.filterMap fun part =>
      (a.drawn (a.compileParts parts c).2.models part.placement).map (part, ·)) ∧
    (a.compileParts parts c).2.models
      = loadAll a.read c.models (a.modelIds (parts.map Part.placement)) ∧
    (a.compileParts parts c).2.Sound a := by
  induction parts generalizing c with
  | nil => exact ⟨rfl, rfl, h⟩
  | cons part parts ih =>
      obtain ⟨hplaced, hmodels, hsound⟩ := place_spec h part.placement
      obtain ⟨hrest, hmodels', hsound'⟩ := ih hsound
      have hstep : a.compileParts (part :: parts) c
          = ((a.place part.placement c).1.toList.map (part, ·)
              ++ (a.compileParts parts (a.place part.placement c).2).1,
            (a.compileParts parts (a.place part.placement c).2).2) := rfl
      rw [hstep]
      refine ⟨?_, ?_, hsound'⟩
      · have hkeep : a.drawn (a.compileParts parts (a.place part.placement c).2).2.models
            part.placement = a.drawn c.models part.placement := by
          rw [hmodels', hmodels, (remembers_self c.models part.placement).drawn_loadAll, drawn_self]
        rw [hrest, hplaced, List.filterMap_cons, hkeep]
        cases a.drawn c.models part.placement <;> rfl
      · rw [List.map_cons, modelIds_cons, loadAll_append, hmodels', hmodels]

/-- Assembling a block keeps the invariant. -/
theorem sound_states (h : c.Sound a) (palette : BlockPalette) (block : Identifier)
    (file : BlockstateDocument) : (a.states palette block file c).2.Sound a := by
  cases file with
  | variants variants => exact (compileVariants_spec h variants).2.2
  | parts parts => exact (compileParts_spec h parts).2.2

end Assembler

end VoxelBake
