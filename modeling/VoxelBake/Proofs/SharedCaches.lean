/-
**What was made before does not show in what is assembled.**

Blocks and items share memories: models by name, compiled geometry by model and orientation, the
boxes of flat items by shape.  As long as every chain of parents ends in time, a memory holds
nothing but what would be made again, so each block and each item is assembled as if nothing had
been made before.  The memory of geometry then has one entry for each model at each orientation at
which it was placed.

Main definitions:

* `BlockCaches.Faithful`, `ItemCaches.Faithful` — **the invariants of what was made before**;
* `Assembler.placedAt`, `Assembler.placedIn` — the models and orientations of placements;
* `ItemAssembler.drawnModel`, `ItemAssembler.plainItem` — an item without any memory;
* `Library.statesAlone`, `Library.itemAlone`, `Library.placedModels` — states, items and placements
  of a library, each on its own.

Main results:

* `Assembler.fst_states`, `ItemAssembler.item_spec` — a block or an item is assembled as with
  nothing made before, and keeps the invariant;
* `Assembler.mem_keys_states` — which geometry a block leaves behind;
* `Library.get?_states_finished`, `Library.get?_items_finished`,
  `Library.geometryCount_finished` — the same for all blocks and items of a library;
* `Library.built_as_if_alone` — **a build is the sum of its blocks and items, each assembled
  alone**.
-/
import Mathlib.Data.Finset.Card
import Mathlib.Data.Finset.Dedup
import Mathlib.Data.Finset.Lattice.Basic
import VoxelBake.Proofs.BuildPhases
import VoxelBake.Proofs.VariantChoice

set_option relaxedAutoImplicit false
set_option autoImplicit false

namespace VoxelBake

open ModelCache

/-! ### Blocks -/

section Blocks

variable {α : Type} [Scalar α] [Trig α]

/-- What was made before is what would be made now. -/
structure BlockCaches.Faithful (a : Assembler α) (c : BlockCaches α) : Prop where
  /-- The geometry that is kept is compiled from the models that are remembered. -/
  sound : c.Sound a
  /-- The models that are remembered come from loads. -/
  explained : Explained a.read c.models

namespace Assembler

variable {a : Assembler α} {c : BlockCaches α}

theorem faithful_empty (a : Assembler α) : BlockCaches.empty.Faithful a :=
  ⟨BlockCaches.sound_empty a, explained_empty⟩

/-- If all chains end in time, a placement is drawn with fresh models. -/
theorem drawn_eq_fresh (hends : ∀ id, EndsInTime a.read id) {memory : ModelCache α}
    (h : Explained a.read memory) (p : Placement) : a.drawn memory p = a.drawn ∅ p := by
  cases hid : a.modelId p.model with
  | none => simp only [drawn, hid, Option.map_none]
  | some id =>
      simp only [drawn, hid, Option.map_some, h.fst_load (hends id),
        explained_empty.fst_load (hends id)]

theorem fst_compileVariants (hends : ∀ id, EndsInTime a.read id) (h : c.Faithful a)
    (variants : List (String × List Placement)) :
    (a.compileVariants variants c).1 = variants.map (a.entryVariant ∅) := by
  have hexp : Explained a.read (a.memoryAfter c.models variants) := h.explained.loadAll _
  have hdrawn : a.drawn (a.memoryAfter c.models variants) = a.drawn ∅ :=
    funext (drawn_eq_fresh hends hexp)
  rw [(compileVariants_spec h.sound variants).1, hdrawn]
  rfl

theorem fst_compileParts (hends : ∀ id, EndsInTime a.read id) (h : c.Faithful a)
    (parts : List Part) :
    (a.compileParts parts c).1
      = parts.filterMap fun part => (a.drawn ∅ part.placement).map (part, ·) := by
  obtain ⟨hparts, hmodels, -⟩ := compileParts_spec h.sound parts
  have hexp : Explained a.read (a.compileParts parts c).2.models := by
    rw [hmodels]
    exact h.explained.loadAll _
  have hdrawn : a.drawn (a.compileParts parts c).2.models = a.drawn ∅ :=
    funext (drawn_eq_fresh hends hexp)
  rw [hparts, hdrawn]

/-- **A block is assembled as with nothing made before.** -/
theorem fst_states (hends : ∀ id, EndsInTime a.read id) (h : c.Faithful a)
    (palette : BlockPalette) (block : Identifier) (file : BlockstateDocument) :
    (a.states palette block file c).1 = (a.states palette block file BlockCaches.empty).1 := by
  rw [states_eq, states_eq]
  cases file with
  | variants variants =>
      rw [shapedStates_variants, shapedStates_variants, fst_compileVariants hends h,
        fst_compileVariants hends (faithful_empty a)]
  | parts parts =>
      rw [shapedStates_parts, shapedStates_parts, fst_compileParts hends h,
        fst_compileParts hends (faithful_empty a)]

theorem faithful_states (h : c.Faithful a) (palette : BlockPalette) (block : Identifier)
    (file : BlockstateDocument) : (a.states palette block file c).2.Faithful a := by
  refine ⟨sound_states h.sound palette block file, ?_⟩
  cases file with
  | variants variants =>
      have hmodels : (a.states palette block (.variants variants) c).2.models
          = a.memoryAfter c.models variants := (compileVariants_spec h.sound variants).2.1
      rw [hmodels]
      exact h.explained.loadAll _
  | parts parts =>
      have hmodels : (a.states palette block (.parts parts) c).2.models
          = loadAll a.read c.models (a.modelIds (parts.map Part.placement)) :=
        (compileParts_spec h.sound parts).2.1
      rw [hmodels]
      exact h.explained.loadAll _

/-! ### The geometry that blocks leave behind -/

/-- The model and the orientation that a placement draws, if its model is known. -/
def placedAt (a : Assembler α) (p : Placement) : Option (Identifier × Orientation) :=
  (a.modelId p.model).map (·, p.orientation)

/-- The models and orientations of all placements of a file, whether or not some state takes
them. -/
def placedIn (a : Assembler α) : BlockstateDocument → List (Identifier × Orientation)
  | .variants variants => (allPlacements variants).filterMap a.placedAt
  | .parts parts => (parts.map Part.placement).filterMap a.placedAt

variable {k : Identifier × Orientation}

theorem mem_keys_place (p : Placement) :
    k ∈ (a.place p c).2.geometry.keys ↔ k ∈ c.geometry.keys ∨ k ∈ [p].filterMap a.placedAt := by
  cases hid : a.modelId p.model with
  | none =>
      have hplace : (a.place p c).2 = c := by simp only [place, hid]
      simp [hplace, placedAt, hid]
  | some id =>
      have hplace : (a.place p c).2.geometry
          = (Table.fetch c.geometry (id, p.orientation) fun _ =>
            compile (ModelCache.load a.read id c.models).1.model p.orientation a.atlas).2 := by
        simp only [place, hid]
      rw [hplace, Table.mem_keys_fetch]
      simp [placedAt, hid]

theorem mem_keys_placeAll (ps : List Placement) :
    k ∈ (a.placeAll ps c).2.geometry.keys ↔
      k ∈ c.geometry.keys ∨ k ∈ ps.filterMap a.placedAt := by
  induction ps generalizing c with
  | nil => exact (or_iff_left List.not_mem_nil).symm
  | cons p ps ih =>
      have hstep : (a.placeAll (p :: ps) c).2 = (a.placeAll ps (a.place p c).2).2 := rfl
      rw [hstep, ih, mem_keys_place, or_assoc, ← List.mem_append, ← List.filterMap_append]
      rfl

theorem mem_keys_compileVariants (variants : List (String × List Placement)) :
    k ∈ (a.compileVariants variants c).2.geometry.keys ↔
      k ∈ c.geometry.keys ∨ k ∈ (allPlacements variants).filterMap a.placedAt := by
  induction variants generalizing c with
  | nil => exact (or_iff_left List.not_mem_nil).symm
  | cons e variants ih =>
      have hstep : (a.compileVariants (e :: variants) c).2
          = (a.compileVariants variants (a.placeAll e.2 c).2).2 := rfl
      rw [hstep, ih, mem_keys_placeAll, or_assoc, ← List.mem_append, ← List.filterMap_append]
      rfl

theorem mem_keys_compileParts (parts : List Part) :
    k ∈ (a.compileParts parts c).2.geometry.keys ↔
      k ∈ c.geometry.keys ∨ k ∈ (parts.map Part.placement).filterMap a.placedAt := by
  induction parts generalizing c with
  | nil => exact (or_iff_left List.not_mem_nil).symm
  | cons part parts ih =>
      have hstep : (a.compileParts (part :: parts) c).2
          = (a.compileParts parts (a.place part.placement c).2).2 := rfl
      rw [hstep, ih, mem_keys_place, or_assoc, ← List.mem_append, ← List.filterMap_append]
      rfl

/-- **A block leaves the geometry of its placements behind**, each model once for each
orientation. -/
theorem mem_keys_states (palette : BlockPalette) (block : Identifier)
    (file : BlockstateDocument) :
    k ∈ (a.states palette block file c).2.geometry.keys ↔
      k ∈ c.geometry.keys ∨ k ∈ a.placedIn file := by
  cases file with
  | variants variants => exact mem_keys_compileVariants variants
  | parts parts => exact mem_keys_compileParts parts

end Assembler

end Blocks

/-! ### Items -/

section Items

variable {α : Type} [Scalar α]

/-- What was made before is what would be made now. -/
structure ItemCaches.Faithful (a : ItemAssembler α) (c : ItemCaches α) : Prop where
  /-- The boxes that are kept are those of their shape. -/
  sprites : ∀ shape boxes, c.sprites.get? shape = some boxes → boxes = shape.elements
  /-- The models that are remembered come from loads. -/
  explained : Explained a.read c.models

namespace ItemAssembler

variable {a : ItemAssembler α} {c : ItemCaches α}

theorem faithful_empty (a : ItemAssembler α) : ItemCaches.empty.Faithful a := by
  refine ⟨?_, explained_empty⟩
  intro shape boxes h
  cases h

theorem load_spec (hends : ∀ id, EndsInTime a.read id) (h : c.Faithful a) (id : Identifier) :
    (a.load id c).1 = fresh a.read id ∧ (a.load id c).2.Faithful a :=
  ⟨h.explained.fst_load (hends id), h.sprites, h.explained.load id⟩

/-- The model whose boxes are compiled for an item: its own boxes, those cut out of its layers, or
none. -/
def drawnModel (a : ItemAssembler α) (r : Resolved α) (tintable : Bool) : Model α :=
  match r.kind with
  | .elements => r.model
  | .generated => { r.model with elements := (a.shapeOf r.model tintable).elements }
  | .entity => { r.model with elements := [] }

variable [Trig α]

/-- The geometry of an item whose model is fresh. -/
def plainGeometry (a : ItemAssembler α) (id : Identifier) (tintable : Bool) : ItemGeometry α :=
  ItemGeometry.ofModel (a.drawnModel (fresh a.read id) tintable) a.atlas

/-- The geometry of the rules of a model whose targets are fresh, those whose target is not known
left out. -/
def plainOverrides (a : ItemAssembler α) (tintable : Bool) (rules : List (OverrideRule α)) :
    List (ItemOverride α) :=
  rules.filterMap fun rule =>
    let target := Identifier.parse rule.model
    if a.contains target then some ⟨rule.thresholds, a.plainGeometry target tintable⟩ else none

/-- The model of an item without any memory; nothing if its model is not known. -/
def plainItem (a : ItemAssembler α) (item : Identifier) (tintable : Bool) :
    Option (ItemModel α) :=
  if a.contains item.itemModel then
    let resolved := fresh a.read item.itemModel
    some
      { geometry := a.plainGeometry item.itemModel tintable
        renderType := a.renderTypeOf item resolved.kind
        overrides := a.plainOverrides tintable resolved.overrides }
  else none

theorem geometry_spec (h : c.Faithful a) (r : Resolved α) (tintable : Bool) :
    (a.geometry r tintable c).1 = ItemGeometry.ofModel (a.drawnModel r tintable) a.atlas ∧
    (a.geometry r tintable c).2.Faithful a := by
  cases hkind : r.kind with
  | elements =>
      simp only [geometry, drawnModel, hkind]
      exact ⟨trivial, h⟩
  | generated =>
      have hboxes : (SpriteCache.boxes c.sprites (a.shapeOf r.model tintable)).1
          = (a.shapeOf r.model tintable).elements := by
        rw [SpriteCache.boxes, Table.fst_fetch]
        cases hs : c.sprites.get? (a.shapeOf r.model tintable) with
        | none => rfl
        | some boxes => exact h.sprites _ _ hs
      simp only [geometry, drawnModel, hkind, hboxes]
      refine ⟨rfl, ?_, h.explained⟩
      intro shape boxes hs
      rw [SpriteCache.boxes, Table.get?_fetch] at hs
      split at hs
      · rename_i hshape
        subst hshape
        rw [← Option.some.inj hs]
        exact hboxes
      · exact h.sprites shape boxes hs
  | entity =>
      -- without boxes nothing is compiled, whatever the slots are
      have hcompile : compile { r.model with elements := [] } Orientation.identity a.atlas
          = Geometry.empty := rfl
      simp only [geometry, drawnModel, hkind, ItemGeometry.ofModel, hcompile]
      refine ⟨?_, h⟩
      simp [CullSide.all]

theorem overrides_spec (hends : ∀ id, EndsInTime a.read id) (h : c.Faithful a) (tintable : Bool)
    (rules : List (OverrideRule α)) :
    (a.overrides tintable rules c).1 = a.plainOverrides tintable rules ∧
    (a.overrides tintable rules c).2.Faithful a := by
  induction rules generalizing c with
  | nil => exact ⟨rfl, h⟩
  | cons rule rules ih =>
      by_cases hknown : a.contains (Identifier.parse rule.model) = true
      · obtain ⟨⟨target, loaded⟩, hload⟩ :
            ∃ out, a.load (Identifier.parse rule.model) c = out := ⟨_, rfl⟩
        obtain ⟨⟨g, drawn⟩, hdraw⟩ : ∃ out, a.geometry target tintable loaded = out := ⟨_, rfl⟩
        have hstep : a.overrides tintable (rule :: rules) c
            = (⟨rule.thresholds, g⟩ :: (a.overrides tintable rules drawn).1,
              (a.overrides tintable rules drawn).2) := by
          simp only [overrides, hknown, if_true, bind, StateT.bind, hload, hdraw]
          rfl
        have hplain : a.plainOverrides tintable (rule :: rules)
            = ⟨rule.thresholds, a.plainGeometry (Identifier.parse rule.model) tintable⟩
              :: a.plainOverrides tintable rules := by
          simp [plainOverrides, hknown]
        have hloaded := load_spec hends h (Identifier.parse rule.model)
        rw [hload] at hloaded
        have hdrawn := geometry_spec hloaded.2 target tintable
        rw [hdraw] at hdrawn
        obtain ⟨hrest, hfaithful⟩ := ih hdrawn.2
        refine ⟨?_, by rw [hstep]; exact hfaithful⟩
        rw [hstep, hplain, hrest, plainGeometry, ← hloaded.1, ← hdrawn.1]
      · have hstep : a.overrides tintable (rule :: rules) c = a.overrides tintable rules c := by
          rw [overrides, if_neg hknown]
        have hplain : a.plainOverrides tintable (rule :: rules)
            = a.plainOverrides tintable rules := by
          simp [plainOverrides, hknown]
        rw [hstep, hplain]
        exact ih h

/-- **An item is assembled without any memory**, and keeps the invariant. -/
theorem item_spec (hends : ∀ id, EndsInTime a.read id) (h : c.Faithful a) (item : Identifier)
    (tintable : Bool) :
    (a.item item tintable c).1 = a.plainItem item tintable ∧
    (a.item item tintable c).2.Faithful a := by
  by_cases hknown : a.contains item.itemModel = true
  · obtain ⟨⟨r, loaded⟩, hload⟩ : ∃ out, a.load item.itemModel c = out := ⟨_, rfl⟩
    obtain ⟨⟨rules, ruled⟩, hrules⟩ : ∃ out, a.overrides tintable r.overrides loaded = out :=
      ⟨_, rfl⟩
    obtain ⟨⟨g, drawn⟩, hdraw⟩ : ∃ out, a.geometry r tintable ruled = out := ⟨_, rfl⟩
    have hstep : a.item item tintable c
        = (some ⟨g, a.renderTypeOf item r.kind, rules⟩, drawn) := by
      simp only [ItemAssembler.item, hknown, if_true, bind, StateT.bind, hload, hrules, hdraw]
      rfl
    have hloaded := load_spec hends h item.itemModel
    rw [hload] at hloaded
    have hruled := overrides_spec hends hloaded.2 tintable r.overrides
    rw [hrules] at hruled
    have hdrawn := geometry_spec hruled.2 r tintable
    rw [hdraw] at hdrawn
    obtain ⟨rfl, -⟩ := hruled
    refine ⟨?_, by rw [hstep]; exact hdrawn.2⟩
    rw [hstep, plainItem, if_pos hknown, plainGeometry, ← hloaded.1, ← hdrawn.1]
  · have hstep : a.item item tintable c = (none, c) := by
      rw [ItemAssembler.item, if_neg hknown]
      rfl
    rw [hstep, plainItem, if_neg hknown]
    exact ⟨rfl, h⟩

end ItemAssembler

end Items

/-! ### First answers in lists -/

section Lookup

variable {ι κ β : Type} [DecidableEq κ]

/-- The first value of a key in lists one after another is that of the first list that has one. -/
theorem lookup_flatMap_eq (f : ι → List (κ × β)) (k : κ) (l : List ι) :
    (l.flatMap f).lookup k = l.findSome? fun x => (f x).lookup k := by
  induction l with
  | nil => rfl
  | cons x l ih =>
      rw [List.flatMap_cons, List.lookup_append, ih, List.findSome?_cons]
      cases (f x).lookup k <;> rfl

/-- Among pairs of which some have no value, the first value of a key is that of the first pair
under it that has one. -/
theorem lookup_filterMap_eq (f : κ × ι → Option β) (k : κ) (l : List (κ × ι)) :
    (l.filterMap fun e => (f e).map (e.1, ·)).lookup k
      = (l.find? fun e => decide (e.1 = k) && (f e).isSome).bind f := by
  induction l with
  | nil => rfl
  | cons e l ih =>
      rw [List.filterMap_cons, List.find?_cons]
      cases hv : f e with
      | none => simpa [hv] using ih
      | some v =>
          by_cases hk : e.1 = k
          · simp [hk, hv]
          · have hne : (k == e.1) = false := by simpa using fun h => hk h.symm
            simpa [hk, hne, List.lookup_cons] using ih

end Lookup

/-! ### The states and items of a library -/

namespace Library

variable {l : Library} {atlas : Atlas Float32} {palette : BlockPalette} {items : ItemPalette}

/-- The states of a block alone, with nothing made before; none if its file cannot be read. -/
def statesAlone (l : Library) (atlas : Atlas Float32) (palette : BlockPalette)
    (block : Identifier) : List (Nat × StateModel Float32) :=
  (l.blockstate block).toList.flatMap fun file =>
    ((l.assembler atlas).states palette block file BlockCaches.empty).1

/-- An item alone, with nothing made before. -/
def itemAlone (l : Library) (atlas : Atlas Float32) (palette : BlockPalette) (items : ItemPalette)
    (item : Identifier) : Option (ItemModel Float32) :=
  ((l.itemAssembler atlas palette).item item (items.isTintable item) ItemCaches.empty).1

/-- The models and orientations of all placements in the readable files of some blocks. -/
def placedModels (l : Library) (blocks : List Identifier) : List (Identifier × Orientation) :=
  blocks.flatMap fun block =>
    (l.blockstate block).toList.flatMap (l.assembler Atlas.empty).placedIn

/-- The atlas has no say in which models are placed. -/
theorem placedIn_assembler (atlas : Atlas Float32) (file : BlockstateDocument) :
    (l.assembler atlas).placedIn file = (l.assembler Atlas.empty).placedIn file := by
  cases file <;> rfl

theorem itemAlone_eq (hends : l.ChainsEnd) (item : Identifier) :
    l.itemAlone atlas palette items item
      = (l.itemAssembler atlas palette).plainItem item (items.isTintable item) :=
  (ItemAssembler.item_spec (a := l.itemAssembler atlas palette) hends.items
    (ItemAssembler.faithful_empty _) item _).1

theorem isSome_itemAlone (hends : l.ChainsEnd) (item : Identifier) :
    (l.itemAlone atlas palette items item).isSome = l.itemSource.contains item.itemModel := by
  have hknown : (l.itemAssembler atlas palette).contains item.itemModel
      = l.itemSource.contains item.itemModel := rfl
  rw [itemAlone_eq hends, ItemAssembler.plainItem, hknown]
  cases l.itemSource.contains item.itemModel <;> rfl

/-- Blocks one after another are assembled as each of them alone, and leave the geometry of all
their placements behind. -/
theorem assembleBlocks_spec (hends : l.ChainsEnd) {c : BlockCaches Float32}
    (h : c.Faithful (l.assembler atlas)) (blocks : List Identifier) :
    (l.assembleBlocks (l.assembler atlas) palette blocks c).1
      = blocks.flatMap (l.statesAlone atlas palette) ∧
    ∀ k, k ∈ (l.assembleBlocks (l.assembler atlas) palette blocks c).2.geometry.keys ↔
      k ∈ c.geometry.keys ∨ k ∈ l.placedModels blocks := by
  induction blocks generalizing c with
  | nil => exact ⟨rfl, fun k => (or_iff_left List.not_mem_nil).symm⟩
  | cons block blocks ih =>
      cases hfile : l.blockstate block with
      | none =>
          have hstep : l.assembleBlocks (l.assembler atlas) palette (block :: blocks) c
              = l.assembleBlocks (l.assembler atlas) palette blocks c := by
            simp only [assembleBlocks, hfile]
            rfl
          rw [hstep]
          simpa only [placedModels, statesAlone, List.flatMap_cons, hfile, Option.toList_none,
            List.flatMap_nil, List.nil_append] using ih h
      | some file =>
          obtain ⟨hrest, hkeys⟩ := ih (Assembler.faithful_states h palette block file)
          have hmade : (l.assembleBlocks (l.assembler atlas) palette (block :: blocks) c).1
              = ((l.assembler atlas).states palette block file c).1
                ++ (l.assembleBlocks (l.assembler atlas) palette blocks
                  ((l.assembler atlas).states palette block file c).2).1 := by
            simp only [assembleBlocks, hfile]
            rfl
          have hleft : (l.assembleBlocks (l.assembler atlas) palette (block :: blocks) c).2
              = (l.assembleBlocks (l.assembler atlas) palette blocks
                  ((l.assembler atlas).states palette block file c).2).2 := by
            simp only [assembleBlocks, hfile]
            rfl
          have hplaced : l.placedModels (block :: blocks)
              = (l.assembler atlas).placedIn file ++ l.placedModels blocks := by
            simp only [placedModels, List.flatMap_cons, hfile, Option.toList_some,
              List.flatMap_nil, List.append_nil, placedIn_assembler atlas]
          refine ⟨?_, fun k => ?_⟩
          · rw [hmade, hrest, Assembler.fst_states (a := l.assembler atlas) hends.blocks h]
            simp only [statesAlone, List.flatMap_cons, hfile, Option.toList_some,
              List.flatMap_nil, List.append_nil]
          · rw [hleft, hkeys, hplaced, Assembler.mem_keys_states, List.mem_append, or_assoc]

/-- Items one after another are assembled as each of them alone. -/
theorem assembleItems_spec (hends : l.ChainsEnd) {c : ItemCaches Float32}
    (h : c.Faithful (l.itemAssembler atlas palette)) (es : List (Nat × Identifier)) :
    (assembleItems (l.itemAssembler atlas palette) items es c).1
      = es.filterMap fun e => (l.itemAlone atlas palette items e.2).map (e.1, ·) := by
  induction es generalizing c with
  | nil => rfl
  | cons e es ih =>
      obtain ⟨number, item⟩ := e
      obtain ⟨hitem, hfaithful⟩ := ItemAssembler.item_spec (a := l.itemAssembler atlas palette)
        hends.items h item (items.isTintable item)
      have hstep : (assembleItems (l.itemAssembler atlas palette) items ((number, item) :: es) c).1
          = ((l.itemAssembler atlas palette).item item (items.isTintable item) c).1.toList.map
              (number, ·)
            ++ (assembleItems (l.itemAssembler atlas palette) items es
              ((l.itemAssembler atlas palette).item item (items.isTintable item) c).2).1 := rfl
      rw [hstep, ih hfaithful, hitem, ← itemAlone_eq hends, List.filterMap_cons]
      cases l.itemAlone atlas palette items item <;> rfl

/-! ### What a build leaves -/

theorem ChainsEnd.prepared (hends : l.ChainsEnd) : l.prepared.ChainsEnd :=
  ⟨hends.blocks, hends.items⟩

theorem faithful_prepared_blocks (l : Library) (atlas : Atlas Float32) :
    l.prepared.blockCaches.Faithful (l.prepared.assembler atlas) := by
  refine ⟨?_, ?_⟩
  · intro id o g hk
    cases hk
  · have hmodels : l.prepared.blockCaches.models
        = loadAll l.blockSource.read ∅ l.files.blockModels.keys := snd_resolveAll ..
    rw [hmodels]
    exact explained_empty.loadAll _

theorem faithful_prepared_items (l : Library) (atlas : Atlas Float32) (palette : BlockPalette) :
    l.prepared.itemCaches.Faithful (l.prepared.itemAssembler atlas palette) := by
  refine ⟨?_, ?_⟩
  · intro shape boxes hs
    cases hs
  · have hmodels : l.prepared.itemCaches.models
        = loadAll l.itemSource.read ∅ l.files.itemModels.keys := snd_resolveAll ..
    rw [hmodels]
    exact explained_empty.loadAll _

theorem stateModel_finished (l : Library) (state : Nat) :
    (l.finished atlas palette items).stateModel state
      = .ok ((l.finished atlas palette items).states.get? state) := rfl

theorem itemModel_finished (l : Library) (item : Nat) :
    (l.finished atlas palette items).itemModel item
      = .ok ((l.finished atlas palette items).items.get? item) := rfl

theorem states_finished (hends : l.ChainsEnd) :
    (l.prepared.finished atlas palette items).states
      = (palette.blocks.flatMap (l.statesAlone atlas palette)).foldl
          (fun t s => t.insertNew s.1 s.2) ∅ := by
  have hstates : (l.prepared.finished atlas palette items).states
      = (l.prepared.assembleBlocks (l.prepared.assembler atlas) palette palette.blocks
          l.prepared.blockCaches).1.foldl (fun t s => t.insertNew s.1 s.2) ∅ := rfl
  rw [hstates,
    (assembleBlocks_spec hends.prepared (faithful_prepared_blocks l atlas) palette.blocks).1]
  rfl

theorem items_finished (hends : l.ChainsEnd) :
    (l.prepared.finished atlas palette items).items
      = Table.ofList (items.items.filterMap fun e =>
          (l.itemAlone atlas palette items e.2).map (e.1, ·)) := by
  have hitems : (l.prepared.finished atlas palette items).items
      = Table.ofList (assembleItems (l.prepared.itemAssembler atlas palette) items items.items
          l.prepared.itemCaches).1 := rfl
  rw [hitems,
    assembleItems_spec hends.prepared (faithful_prepared_items l atlas palette) items.items]
  rfl

/-- A state has the model of the first block that assembles it. -/
theorem get?_states_finished (hends : l.ChainsEnd) (state : Nat) :
    (l.prepared.finished atlas palette items).states.get? state
      = palette.blocks.findSome? fun block =>
        (l.statesAlone atlas palette block).lookup state := by
  -- a state that is known already keeps its model, so the first block that has it decides
  have hempty : (∅ : Table Nat (StateModel Float32)).get? state = none := rfl
  rw [states_finished hends, Table.get?_foldl_insertNew, hempty, Option.none_or, lookup_flatMap_eq]

/-- An item has the model of the last entry whose item model is known. -/
theorem get?_items_finished (hends : l.ChainsEnd) (item : Nat) :
    (l.prepared.finished atlas palette items).items.get? item
      = (items.items.reverse.find? fun e =>
          decide (e.1 = item) && l.itemSource.contains e.2.itemModel).bind fun e =>
        l.itemAlone atlas palette items e.2 := by
  -- an item that is known already is replaced, so the last entry that has a model decides
  rw [items_finished hends, Table.get?_ofList, ← List.filterMap_reverse, lookup_filterMap_eq]
  simp only [isSome_itemAlone hends]

/-- There is geometry for each model once for each orientation at which it is placed. -/
theorem geometryCount_finished (hends : l.ChainsEnd) :
    (l.prepared.finished atlas palette items).geometryCount
      = (l.placedModels palette.blocks).toFinset.card := by
  have hgeometry : (l.prepared.finished atlas palette items).blockCaches.geometry
      = (l.prepared.assembleBlocks (l.prepared.assembler atlas) palette palette.blocks
          l.prepared.blockCaches).2.geometry := rfl
  have hkeys : (l.prepared.finished atlas palette items).blockCaches.geometry.keys.toFinset
      = (l.placedModels palette.blocks).toFinset := by
    ext k
    rw [List.mem_toFinset, List.mem_toFinset, hgeometry,
      (assembleBlocks_spec hends.prepared (faithful_prepared_blocks l atlas) palette.blocks).2]
    exact or_iff_right List.not_mem_nil
  -- the keys of a table are distinct, so their number is that of the set
  have hnodup : (l.prepared.finished atlas palette items).blockCaches.geometry.keys.Nodup :=
    Table.nodup_keys _
  rw [← hkeys, List.toFinset_card_of_nodup hnodup, Table.keys, List.length_map]
  rfl

section Built

variable {σ : Type} {uploader : Uploader σ (Atlas Float32)} {h h' : Handoff σ (Atlas Float32)}
  {built : Library}

/-- **A build is the sum of its blocks and items, each assembled alone.**  After a successful build
a state has the model of the first block that assembles it alone, an item that of the last entry
under its number whose item model is known, and there is one geometry for each model at each
orientation at which it is placed. -/
theorem built_as_if_alone (hends : l.ChainsEnd)
    (hbuild : l.build palette items uploader h = (.ok (), built, h')) :
    (∀ state, built.stateModel state
      = .ok (palette.blocks.findSome? fun block =>
        (l.statesAlone built.atlas palette block).lookup state)) ∧
    (∀ item, built.itemModel item
      = .ok ((items.items.reverse.find? fun e =>
          decide (e.1 = item) && l.itemSource.contains e.2.itemModel).bind fun e =>
        l.itemAlone built.atlas palette items e.2)) ∧
    built.geometryCount = (l.placedModels palette.blocks).toFinset.card := by
  obtain ⟨atlas, -, rfl⟩ := build_ok hbuild
  refine ⟨fun state => ?_, fun item => ?_, geometryCount_finished hends⟩
  · rw [stateModel_finished, get?_states_finished hends]
    rfl
  · rw [itemModel_finished, get?_items_finished hends]
    rfl

end Built

/-- In the quarry the stone is placed once, and its item is that of the first entry. -/
theorem built_as_if_alone_quarry :
    quarry.ChainsEnd ∧ ∃ built h',
      quarry.build quarryBlocks quarryItems acceptAll (Handoff.start ()) = (.ok (), built, h') ∧
      built.itemModel 1
        = .ok (quarry.itemAlone built.atlas quarryBlocks quarryItems ⟨"minecraft", "stone"⟩) ∧
      built.geometryCount = 1 := by
  obtain ⟨built, h', hbuild⟩ := exists_quarry_build
  obtain ⟨-, hitems, hcount⟩ := built_as_if_alone quarry_chainsEnd hbuild
  have hentry : (quarryItems.items.reverse.find? fun e =>
      decide (e.1 = 1) && quarry.itemSource.contains e.2.itemModel)
        = some (1, ⟨"minecraft", "stone"⟩) := by decide +kernel
  have hplaced : (quarry.placedModels quarryBlocks.blocks).toFinset.card = 1 := by decide +kernel
  refine ⟨quarry_chainsEnd, built, h', hbuild, ?_, hcount.trans hplaced⟩
  rw [hitems, hentry, Option.bind_some]

/-- The last entry does not decide if its item has no model: the item model of the entry before it
stays. -/
theorem last_entry_left_out :
    quarry.ChainsEnd ∧ ∃ built h',
      quarry.build quarryBlocks quarryItems acceptAll (Handoff.start ()) = (.ok (), built, h') ∧
      (quarryItems.items.reverse.find? fun e => decide (e.1 = 1))
        = some (1, ⟨"minecraft", "ghost"⟩) ∧
      built.itemModel 1
        ≠ .ok (quarry.itemAlone built.atlas quarryBlocks quarryItems ⟨"minecraft", "ghost"⟩) := by
  obtain ⟨built, h', hbuild⟩ := exists_quarry_build
  obtain ⟨atlas, -, rfl⟩ := build_ok hbuild
  have hentry : (quarryItems.items.reverse.find? fun e =>
      decide (e.1 = 1) && quarry.itemSource.contains e.2.itemModel)
        = some (1, ⟨"minecraft", "stone"⟩) := by decide +kernel
  have hstone : (quarry.itemAlone atlas quarryBlocks quarryItems ⟨"minecraft", "stone"⟩).isSome
      = true := (isSome_itemAlone quarry_chainsEnd _).trans (by decide +kernel)
  have hghost : (quarry.itemAlone atlas quarryBlocks quarryItems ⟨"minecraft", "ghost"⟩).isSome
      = false := (isSome_itemAlone quarry_chainsEnd _).trans (by decide +kernel)
  refine ⟨quarry_chainsEnd, _, h', hbuild, by decide +kernel, ?_⟩
  rw [itemModel_finished, get?_items_finished quarry_chainsEnd, hentry, Option.bind_some]
  intro hsame
  have hdiffer := congrArg Option.isSome (Except.ok.inj hsame)
  rw [hstone] at hdiffer
  exact absurd (hdiffer.trans hghost) (by decide)

end Library

end VoxelBake
