/-
From item models to the geometry of items.

The model of an item says how it is drawn, and its rules name other models that take over when the
item has certain properties: the last rule whose thresholds are all reached decides.

* `ItemProperties` — the properties of an item;
* `ItemOverride`, `ItemOverride.matches` — geometry that takes over, and when it does;
* `ItemModel`, `ItemModel.select`, `ItemModel.selectIndex` — an item, and the geometry for given
  properties or the number of the rule that decides; `ItemModel.selectIndex_eq_some_iff` and
  `ItemModel.select_eq` say which rule that is, and that its geometry is the one selected;
* `ItemCaches` — models and boxes made before;
* `ItemAssembler`, `ItemAssembler.item` — the model of an item.
-/
import VoxelBake.Mesh.Item
import VoxelBake.Model.Inheritance
import VoxelBake.Palette

set_option relaxedAutoImplicit false
set_option autoImplicit false

namespace VoxelBake

/-! ### Numbered lists -/

/-- A numbered list from behind, taken apart at one of its places. -/
theorem reverse_zipIdx_of_getElem? {β : Type} {l : List β} {i : Nat} {b : β} (h : l[i]? = some b) :
    l.zipIdx.reverse
      = ((l.drop (i + 1)).zipIdx (i + 1)).reverse ++ (b, i) :: (l.take i).zipIdx.reverse := by
  obtain ⟨hi, rfl⟩ := List.getElem?_eq_some_iff.1 h
  have htake : (l.take i).length = i := List.length_take_of_le (Nat.le_of_lt hi)
  have hsplit : l.zipIdx = (l.take i ++ l[i] :: l.drop (i + 1)).zipIdx := by
    rw [← List.drop_eq_getElem_cons hi, List.take_append_drop]
  rw [hsplit, List.zipIdx_append, List.zipIdx_cons, htake, Nat.zero_add, List.reverse_append,
    List.reverse_cons, List.append_assoc, List.singleton_append]

/-! ### Models of items -/

/-- The properties of an item. -/
abbrev ItemProperties (α : Type) := Table String α

/-- Geometry that takes over when all thresholds are reached. -/
structure ItemOverride (α : Type) where
  /-- The threshold of each property. -/
  thresholds : Table String α
  /-- The geometry. -/
  geometry : ItemGeometry α

/-- Whether given properties reach all thresholds; a property that an item lacks reaches none. -/
def ItemOverride.matches {α : Type} [Scalar α] (o : ItemOverride α) (p : ItemProperties α) :
    Bool :=
  o.thresholds.entries.all fun t =>
    match p.get? t.1 with
    | some value => decide (t.2 ≤ value)
    | none => false

/-- An item. -/
structure ItemModel (α : Type) where
  /-- Its geometry unless a rule decides otherwise. -/
  geometry : ItemGeometry α
  /-- How it is drawn. -/
  renderType : RenderType
  /-- The geometry of its rules, in the order of the file. -/
  overrides : List (ItemOverride α)

namespace ItemModel

variable {α : Type} [Scalar α]

/-- The number of the last rule that decides for given properties. -/
def selectIndex (m : ItemModel α) (p : ItemProperties α) : Option Nat :=
  (m.overrides.zipIdx.reverse.find? fun o => o.1.matches p).map Prod.snd

/-- The geometry for given properties: that of the last rule that decides, or that of the item. -/
def select (m : ItemModel α) (p : ItemProperties α) : ItemGeometry α :=
  match m.overrides.reverse.find? fun o => o.matches p with
  | some o => o.geometry
  | none => m.geometry

/-- **Which rule decides**: one that matches and has none behind it that does. -/
theorem selectIndex_eq_some_iff {m : ItemModel α} {p : ItemProperties α} {i : Nat} :
    m.selectIndex p = some i ↔ (∃ o, m.overrides[i]? = some o ∧ o.matches p) ∧
      ∀ o ∈ m.overrides.drop (i + 1), ¬ o.matches p := by
  constructor
  · intro h
    obtain ⟨⟨o, place⟩, hfound, rfl⟩ := Option.map_eq_some_iff.1 h
    have hrule : m.overrides[place]? = some o := List.mk_mem_zipIdx_iff_getElem?.1
      (List.mem_reverse.1 (List.mem_of_find?_eq_some hfound))
    have hmatches : o.matches p := by simpa only using List.find?_some hfound
    refine ⟨⟨o, hrule, hmatches⟩, fun later hlater hlaterMatches => ?_⟩
    obtain ⟨j, hj⟩ := List.mem_iff_getElem?.1 hlater
    -- a later rule that matches would have been found first
    rw [reverse_zipIdx_of_getElem? hrule, List.find?_append] at hfound
    cases hfirst : List.find? (fun o => o.1.matches p)
        ((m.overrides.drop (place + 1)).zipIdx (place + 1)).reverse with
    | none =>
        exact List.find?_eq_none.1 hfirst _
          (List.mem_reverse.2 (List.mk_add_mem_zipIdx_iff_getElem?.2 hj)) hlaterMatches
    | some first =>
        have hle := List.le_snd_of_mem_zipIdx
          (List.mem_reverse.1 (List.mem_of_find?_eq_some hfirst))
        rw [hfirst, Option.some_or] at hfound
        cases hfound
        omega
  · rintro ⟨⟨o, hrule, hmatches⟩, hbehind⟩
    have hnone : ((m.overrides.drop (i + 1)).zipIdx (i + 1)).reverse.find?
        (fun o => o.1.matches p) = none :=
      List.find?_eq_none.2 fun o ho =>
        hbehind o.1 (List.fst_mem_of_mem_zipIdx (List.mem_reverse.1 ho))
    rw [selectIndex, reverse_zipIdx_of_getElem? hrule, List.find?_append, hnone, Option.none_or,
      List.find?_cons, hmatches]
    rfl

/-- The geometry that is selected is that of the rule that decides, if there is one. -/
theorem select_eq (m : ItemModel α) (p : ItemProperties α) :
    m.select p = match m.selectIndex p with
      | some i => (m.overrides[i]?.map ItemOverride.geometry).getD m.geometry
      | none => m.geometry := by
  have hfound : m.overrides.reverse.find? (fun o => o.matches p)
      = (m.overrides.zipIdx.reverse.find? fun o => o.1.matches p).map Prod.fst := by
    rw [← Function.comp_def (fun o : ItemOverride α => o.matches p) Prod.fst, ← List.find?_map,
      List.map_reverse, List.zipIdx_map_fst]
  rw [select, selectIndex, hfound]
  cases h : m.overrides.zipIdx.reverse.find? fun o => o.1.matches p with
  | none => rfl
  | some found =>
      have hrule := List.mk_mem_zipIdx_iff_getElem?.1
        (List.mem_reverse.1 (List.mem_of_find?_eq_some h))
      simp only [Option.map_some, hrule, Option.getD_some]

end ItemModel

/-! ### Assembling -/

/-- Models and boxes made before. -/
structure ItemCaches (α : Type) where
  /-- The models. -/
  models : ModelCache α
  /-- The boxes of items cut out of their texture. -/
  sprites : SpriteCache α

/-- Nothing made before. -/
def ItemCaches.empty {α : Type} : ItemCaches α := ⟨∅, ∅⟩

/-- What assembling items needs: where models are known and read, the atlas, how blocks are drawn,
and the shape of items cut out of their texture. -/
structure ItemAssembler (α : Type) where
  /-- Whether a model is known. -/
  contains : Identifier → Bool
  /-- The file of a model. -/
  read : Identifier → Option (ModelDocument α)
  /-- The atlas. -/
  atlas : Atlas α
  /-- How the block of an item is drawn. -/
  blockRenderType : Identifier → RenderType
  /-- The number of pixel columns. -/
  precision : Nat
  /-- The thickness in sixteenths of a block. -/
  thickness : Nat

namespace ItemAssembler

variable {α : Type} [Scalar α]

/-- The shape of an item cut out of the texture layers of its model. -/
def shapeOf (a : ItemAssembler α) (m : Model α) (tintable : Bool) : SpriteShape :=
  ⟨m.layerCount, a.precision, a.thickness, tintable⟩

variable [Trig α]

/-- The geometry of a model as an item. -/
def geometry (a : ItemAssembler α) (r : Resolved α) (tintable : Bool) :
    StateM (ItemCaches α) (ItemGeometry α) := fun caches =>
  match r.kind with
  | .elements => (ItemGeometry.ofModel r.model a.atlas, caches)
  | .generated =>
      let (boxes, sprites) := SpriteCache.boxes caches.sprites (a.shapeOf r.model tintable)
      (ItemGeometry.ofSprite r.model boxes a.atlas, { caches with sprites := sprites })
  | .entity => (⟨#[], r.model.display⟩, caches)

/-- The model of a given name with everything it inherits. -/
def load (a : ItemAssembler α) (id : Identifier) : StateM (ItemCaches α) (Resolved α) :=
  fun caches =>
    let (resolved, models) := ModelCache.load a.read id caches.models
    (resolved, { caches with models := models })

/-- The geometry of the rules of a model, leaving out those whose model is not known. -/
def overrides (a : ItemAssembler α) (tintable : Bool) :
    List (OverrideRule α) → StateM (ItemCaches α) (List (ItemOverride α))
  | [] => pure []
  | rule :: rest => do
      let target := Identifier.parse rule.model
      if a.contains target then
        let resolved ← a.load target
        let g ← a.geometry resolved tintable
        let others ← overrides a tintable rest
        pure (⟨rule.thresholds, g⟩ :: others)
      else overrides a tintable rest

/-- How an item is drawn: as its block is, unless its model says otherwise. -/
def renderTypeOf (a : ItemAssembler α) (item : Identifier) : ModelKind → RenderType
  | .generated => .cutout
  | .entity => .entity
  | .elements => a.blockRenderType item

/-- The model of an item; nothing if its model is not known. -/
def item (a : ItemAssembler α) (item : Identifier) (tintable : Bool) :
    StateM (ItemCaches α) (Option (ItemModel α)) := do
  if a.contains item.itemModel then
    let resolved ← a.load item.itemModel
    let overrides ← a.overrides tintable resolved.overrides
    let base ← a.geometry resolved tintable
    pure (some ⟨base, a.renderTypeOf item resolved.kind, overrides⟩)
  else pure none

end ItemAssembler

end VoxelBake
