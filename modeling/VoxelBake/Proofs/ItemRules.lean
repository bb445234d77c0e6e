/-
**The last rule that counts decides how an item looks.**

The file of an item may name other models that take over when properties of the item reach
thresholds.  A rule counts if its model is known and every threshold is reached by a property that
the item has; the last rule of the file that counts decides, and its model is drawn with the tint of
the item.  Rules of other files, whether they are parents or models that take over, have no say.
Since reaching a threshold is kept when properties are raised or added, the choice then only moves
towards the end of the file.

Main definitions:

* `SameButRules` — two readings of files that differ in rules only;
* `ItemAssembler.ownRules` — the rules in the file of an item;
* `ItemAssembler.Counts`, `ItemAssembler.Decides` — **which rules count, and which one decides**;
* `ItemAssembler.geometryOf` — the geometry of a model as an item, made with nothing remembered;
* `Raised` — properties that are raised or added.

Main results:

* `ModelCache.fresh_congr` — the rules of files do not show in models;
* `ItemAssembler.select_of_decides`, `ItemAssembler.select_of_none` — what is selected;
* `ItemAssembler.Decides.raise` — raising properties moves the choice towards the end;
* `ItemAssembler.last_rule_decides` — **all of it for the model of an item**.
-/
import VoxelBake.Proofs.FloatValues
import VoxelBake.Proofs.NearestDeclaration
import VoxelBake.Proofs.SharedCaches

set_option relaxedAutoImplicit false
set_option autoImplicit false

namespace VoxelBake

open ModelCache

/-! ### Files without their rules -/

section WithoutRules

variable {α : Type}

/-- A file without its rules. -/
def ModelDocument.withoutRules (d : ModelDocument α) : ModelDocument α :=
  { d with overrides := none }

/-- Two readings of files that differ in rules only. -/
def SameButRules (read other : Identifier → Option (ModelDocument α)) : Prop :=
  ∀ id, (other id).map ModelDocument.withoutRules = (read id).map ModelDocument.withoutRules

namespace ModelCache

variable {read other : Identifier → Option (ModelDocument α)}

theorem parent?_congr (h : SameButRules read other) : parent? other = parent? read := by
  funext id
  have hparent := congrArg (Option.bind · ModelDocument.parentId) (h id)
  rw [Option.bind_map, Option.bind_map] at hparent
  simp only [parent?]
  split
  · rfl
  · exact hparent

theorem ownDocument_congr (h : SameButRules read other) :
    SameButRules (ownDocument read) (ownDocument other) := by
  intro id
  simp only [ownDocument]
  split
  · rfl
  · exact h id

theorem Climb.congr (hparent : parent? other = parent? read) {id top : Identifier}
    {below : List Identifier} (h : Climb read id below top) : Climb other id below top := by
  induction h with
  | here id => exact .here id
  | up hp _ ih => exact .up (hparent ▸ hp) ih

theorem EndsInTime.congr (hparent : parent? other = parent? read) {id : Identifier}
    (h : EndsInTime read id) : EndsInTime other id := by
  obtain ⟨below, top, hcl, ht, hn⟩ := h
  exact ⟨below, top, hcl.congr hparent, hparent ▸ ht, hn⟩

end ModelCache

variable [Scalar α]

theorem Model.overlay_withoutRules (m : Model α) (d : ModelDocument α) :
    m.overlay d.withoutRules = m.overlay d := rfl

/-- What a model inherits does not depend on rules. -/
theorem Resolved.inherit_congr {r s : Resolved α} {d e : Option (ModelDocument α)}
    (hmodel : r.model = s.model) (hkind : r.kind = s.kind)
    (hfile : d.map ModelDocument.withoutRules = e.map ModelDocument.withoutRules)
    (id : Identifier) :
    (r.inherit id d).model = (s.inherit id e).model ∧
      (r.inherit id d).kind = (s.inherit id e).kind := by
  have hinherit : (r.inherit id d).model = (s.inherit id e).model := by
    rw [Resolved.model_inherit, Resolved.model_inherit]
    cases d with
    | none =>
        obtain rfl := Option.map_eq_none_iff.1 hfile.symm
        exact hmodel
    | some d =>
        obtain ⟨e, rfl, he⟩ := Option.map_eq_some_iff.1 hfile.symm
        change r.model.overlay d = s.model.overlay e
        rw [← Model.overlay_withoutRules, ← he, Model.overlay_withoutRules, hmodel]
  have hboxes : d.bind (·.elements) = e.bind (·.elements) := by
    have := congrArg (Option.bind · (·.elements)) hfile
    rwa [Option.bind_map, Option.bind_map] at this
  refine ⟨hinherit, ?_⟩
  rw [Resolved.kind_inherit, Resolved.kind_inherit, hinherit, hboxes, hkind]

namespace ModelCache

variable {read other : Identifier → Option (ModelDocument α)}

theorem layers_congr (h : SameButRules read other) (kind : ModelKind)
    (chain : List Identifier) :
    (layers other kind chain).model = (layers read kind chain).model ∧
      (layers other kind chain).kind = (layers read kind chain).kind := by
  induction chain with
  | nil => exact ⟨rfl, rfl⟩
  | cons id above ih =>
      rw [layers_cons, layers_cons]
      exact Resolved.inherit_congr ih.1 ih.2 (ownDocument_congr h id) id

/-- **The rules of files do not show in models.** -/
theorem fresh_congr (h : SameButRules read other) {id : Identifier} (hends : EndsInTime read id) :
    (fresh other id).model = (fresh read id).model ∧
      (fresh other id).kind = (fresh read id).kind := by
  have hparent := parent?_congr h
  obtain ⟨below, top, hcl, ht, hn⟩ := hends
  rw [fresh_eq_layers hcl ht hn, fresh_eq_layers (hcl.congr hparent) (hparent ▸ ht) hn]
  exact layers_congr h _ _

/-- The rules of a model are those of its own file. -/
theorem overrides_fresh {id : Identifier} (hends : EndsInTime read id) :
    (fresh read id).overrides = ((ownDocument read id).bind (·.overrides)).getD [] := by
  obtain ⟨below, top, hcl, ht, hn⟩ := hends
  rw [fresh_eq_layers hcl ht hn]
  cases hcl with
  | here => exact overrides_layers _ _ []
  | up _ _ => exact overrides_layers _ _ _

end ModelCache

end WithoutRules

/-! ### Rules that count -/

/-- Properties that are raised or added. -/
def Raised {α : Type} [Scalar α] (p q : ItemProperties α) : Prop :=
  ∀ name value, p.get? name = some value → ∃ higher, q.get? name = some higher ∧ value ≤ higher

section Counting

variable {α : Type} [Scalar α]

theorem ItemOverride.matches_iff (o : ItemOverride α) (p : ItemProperties α) :
    o.matches p = true ↔
      ∀ t ∈ o.thresholds.entries, ∃ value, p.get? t.1 = some value ∧ t.2 ≤ value := by
  rw [ItemOverride.matches, List.all_eq_true]
  refine forall₂_congr fun t _ => ?_
  cases p.get? t.1 with
  | none => simp
  | some value => simp

namespace ItemAssembler

/-- The rules in the file of an item, in the order of the file. -/
def ownRules (a : ItemAssembler α) (item : Identifier) : List (OverrideRule α) :=
  ((a.read item.itemModel).bind (·.overrides)).getD []

/-- **A rule counts**: its model is known, and each of its thresholds is reached by a property that
the item has. -/
def Counts (a : ItemAssembler α) (p : ItemProperties α) (rule : OverrideRule α) : Prop :=
  a.contains (Identifier.parse rule.model) = true ∧
    ∀ t ∈ rule.thresholds.entries, ∃ value, p.get? t.1 = some value ∧ t.2 ≤ value

/-- **A rule decides** among others: it counts, and none behind it does. -/
def Decides (a : ItemAssembler α) (p : ItemProperties α) (rules : List (OverrideRule α))
    (place : Nat) (rule : OverrideRule α) : Prop :=
  ∃ behind, rules.drop place = rule :: behind ∧ a.Counts p rule ∧ ∀ r ∈ behind, ¬ a.Counts p r

variable {a : ItemAssembler α} {p q : ItemProperties α} {rules : List (OverrideRule α)}
  {place : Nat} {rule : OverrideRule α}

theorem counts_iff (g : ItemGeometry α) : a.Counts p rule ↔
    a.contains (Identifier.parse rule.model) = true ∧
      ItemOverride.matches ⟨rule.thresholds, g⟩ p = true := by
  rw [Counts, ItemOverride.matches_iff]

instance : Decidable (a.Counts p rule) := decidable_of_iff _ (counts_iff ⟨#[], ∅⟩).symm

/-- Where some rule counts, one decides. -/
theorem exists_decides (h : ∃ rule ∈ rules, a.Counts p rule) :
    ∃ place rule, a.Decides p rules place rule := by
  induction rules with
  | nil => simp at h
  | cons r rules ih =>
      by_cases hbehind : ∃ rule ∈ rules, a.Counts p rule
      · obtain ⟨place, rule, hdecides⟩ := ih hbehind
        exact ⟨place + 1, rule, hdecides⟩
      · have hnone : ∀ rule ∈ rules, ¬ a.Counts p rule := fun rule hr hc => hbehind ⟨rule, hr, hc⟩
        obtain ⟨rule, hr, hc⟩ := h
        rcases List.mem_cons.1 hr with rfl | hr
        · exact ⟨0, rule, rules, rfl, hc, hnone⟩
        · exact absurd hc (hnone rule hr)

/-- **Raising properties moves the choice towards the end of the file.** -/
theorem Decides.raise (htrans : ∀ x y z : α, x ≤ y → y ≤ z → x ≤ z) (hraised : Raised p q)
    (h : a.Decides p rules place rule) :
    ∃ later rule', place ≤ later ∧ a.Decides q rules later rule' := by
  obtain ⟨behind, hdrop, ⟨hknown, hreached⟩, -⟩ := h
  have hcounts : a.Counts q rule := by
    refine ⟨hknown, fun t ht => ?_⟩
    obtain ⟨value, hvalue, hle⟩ := hreached t ht
    obtain ⟨higher, hhigher, hle'⟩ := hraised t.1 value hvalue
    exact ⟨higher, hhigher, htrans _ _ _ hle hle'⟩
  have hsome : ∃ r ∈ rules.drop place, a.Counts q r := ⟨rule, by simp [hdrop], hcounts⟩
  obtain ⟨further, rule', behind', hdrop', hdecides⟩ := exists_decides hsome
  exact ⟨place + further, rule', Nat.le_add_right _ _, behind',
    by rw [← List.drop_drop, hdrop'], hdecides⟩

end ItemAssembler

end Counting

/-! ### What is selected -/

/-- The model of an item is named below `item/`, so its name is not reserved. -/
theorem builtinKind_itemModel (item : Identifier) : builtinKind item.itemModel = none := by
  have hletters : ("item/" ++ item.path).toList = 'i' :: ("tem/".toList ++ item.path.toList) := by
    rw [String.toList_append]
    rfl
  obtain ⟨cs, hpath⟩ : ∃ cs, item.itemModel.path = String.ofList ('i' :: cs) := by
    simp only [Identifier.itemModel, Identifier.withPath, Identifier.ofParts,
      Identifier.forwardSlashes, Text.lower, hletters, List.map_cons, String.toList_ofList]
    exact ⟨_, rfl⟩
  have hne : ∀ s : String, s.toList.head? = some 'b' → item.itemModel.path ≠ s := by
    intro s hs h
    rw [← h, hpath, String.toList_ofList] at hs
    cases hs
  simp only [builtinKind, hne "builtin/generated" (by decide), hne "builtin/entity" (by decide),
    if_false, ite_self]

theorem ModelCache.ownDocument_itemModel {α : Type} (read : Identifier → Option (ModelDocument α))
    (item : Identifier) : ownDocument read item.itemModel = read item.itemModel := by
  simp [ownDocument, builtinKind_itemModel]

namespace ItemAssembler

section Selecting

variable {α : Type} [Scalar α] {a : ItemAssembler α} {p : ItemProperties α}
  {rules : List (OverrideRule α)} {place : Nat} {rule : OverrideRule α} {tintable : Bool}

theorem overrides_fresh_itemModel (hends : ∀ id, EndsInTime a.read id) (item : Identifier) :
    (fresh a.read item.itemModel).overrides = a.ownRules item := by
  rw [overrides_fresh (hends _), ownDocument_itemModel, ownRules]

variable [Trig α]

/-- The geometry of a model as an item, made with nothing remembered. -/
def geometryOf (a : ItemAssembler α) (id : Identifier) (tintable : Bool) : ItemGeometry α :=
  let (resolved, caches) := a.load id ItemCaches.empty
  (a.geometry resolved tintable caches).1

theorem plainGeometry_eq (hends : ∀ id, EndsInTime a.read id) (id : Identifier) :
    a.plainGeometry id tintable = a.geometryOf id tintable := by
  obtain ⟨hload, hfaithful⟩ := load_spec hends (faithful_empty a) id
  rw [plainGeometry, ← hload]
  exact (geometry_spec hfaithful _ tintable).1.symm

/-- The rules that are kept are those whose models are known. -/
theorem mem_plainOverrides {o : ItemOverride α} (h : o ∈ a.plainOverrides tintable rules) :
    ∃ rule ∈ rules, (a.Counts p rule ↔ o.matches p = true) := by
  obtain ⟨rule, hrule, ho⟩ := List.mem_filterMap.1 h
  refine ⟨rule, hrule, ?_⟩
  dsimp only at ho
  split at ho
  · rename_i hknown
    rw [← Option.some.inj ho, counts_iff (a.plainGeometry (Identifier.parse rule.model) tintable),
      and_iff_right hknown]
  · cases ho

/-- Where no rule counts, none is found. -/
theorem find?_plainOverrides_of_none (h : ∀ rule ∈ rules, ¬ a.Counts p rule) :
    (a.plainOverrides tintable rules).reverse.find? (·.matches p) = none := by
  rw [List.find?_eq_none]
  intro o ho hmatches
  obtain ⟨rule, hrule, hcounts⟩ := mem_plainOverrides (List.mem_reverse.1 ho)
  exact h rule hrule (hcounts.2 hmatches)

/-- The rule that decides is found first from behind. -/
theorem find?_plainOverrides_of_decides (h : a.Decides p rules place rule) :
    (a.plainOverrides tintable rules).reverse.find? (·.matches p)
      = some ⟨rule.thresholds, a.plainGeometry (Identifier.parse rule.model) tintable⟩ := by
  obtain ⟨behind, hdrop, hcounts, hbehind⟩ := h
  have hcounts' := (counts_iff (a.plainGeometry (Identifier.parse rule.model) tintable)).1 hcounts
  have hkept : a.plainOverrides tintable (rule :: behind)
      = ⟨rule.thresholds, a.plainGeometry (Identifier.parse rule.model) tintable⟩
        :: a.plainOverrides tintable behind := by
    simp [plainOverrides, hcounts'.1]
  have hsplit : a.plainOverrides tintable rules
      = a.plainOverrides tintable (rules.take place)
        ++ a.plainOverrides tintable (rule :: behind) := by
    rw [← hdrop, plainOverrides, plainOverrides, plainOverrides, ← List.filterMap_append,
      List.take_append_drop]
  rw [hsplit, hkept, List.reverse_append, List.reverse_cons, List.append_assoc,
    List.find?_append, find?_plainOverrides_of_none hbehind, Option.none_or, List.singleton_append]
  exact List.find?_cons_of_pos hcounts'.2

variable {c : ItemCaches α} {item : Identifier} {m : ItemModel α}

/-- An item that has a model has the one that is made without any memory. -/
theorem eq_of_item (hends : ∀ id, EndsInTime a.read id) (hc : c.Faithful a)
    (h : (a.item item tintable c).1 = some m) :
    m = ⟨a.geometryOf item.itemModel tintable,
      a.renderTypeOf item (fresh a.read item.itemModel).kind,
      a.plainOverrides tintable (a.ownRules item)⟩ := by
  rw [(item_spec hends hc item tintable).1, plainItem] at h
  split at h
  · rw [← Option.some.inj h, overrides_fresh_itemModel hends, plainGeometry_eq hends]
  · cases h

/-- **The rule that decides gives the geometry of its model**, with the tint of the item. -/
theorem select_of_decides (hends : ∀ id, EndsInTime a.read id) (hc : c.Faithful a)
    (h : (a.item item tintable c).1 = some m)
    (hdecides : a.Decides p (a.ownRules item) place rule) :
    m.select p = a.geometryOf (Identifier.parse rule.model) tintable := by
  rw [eq_of_item hends hc h, ItemModel.select, find?_plainOverrides_of_decides hdecides]
  exact plainGeometry_eq hends _

/-- Where no rule counts, an item has its own geometry. -/
theorem select_of_none (hends : ∀ id, EndsInTime a.read id) (hc : c.Faithful a)
    (h : (a.item item tintable c).1 = some m)
    (hnone : ∀ rule ∈ a.ownRules item, ¬ a.Counts p rule) :
    m.select p = a.geometryOf item.itemModel tintable := by
  rw [eq_of_item hends hc h, ItemModel.select, find?_plainOverrides_of_none hnone]

/-! ### Rules of other files -/

/-- What is drawn for a model does not depend on the rules of files. -/
theorem plainGeometry_congr {other : Identifier → Option (ModelDocument α)}
    (hends : ∀ id, EndsInTime a.read id) (hrules : SameButRules a.read other) (id : Identifier) :
    ({ a with read := other } : ItemAssembler α).plainGeometry id tintable
      = a.plainGeometry id tintable := by
  obtain ⟨hmodel, hkind⟩ := fresh_congr hrules (hends id)
  simp only [plainGeometry, drawnModel, shapeOf, hmodel, hkind]

/-- **The rules of other files have no say** in the model of an item. -/
theorem item_congr {other : Identifier → Option (ModelDocument α)}
    (hends : ∀ id, EndsInTime a.read id) (hrules : SameButRules a.read other)
    (hown : other item.itemModel = a.read item.itemModel) {c' : ItemCaches α}
    (hc : c.Faithful a) (hc' : c'.Faithful { a with read := other }) :
    (({ a with read := other } : ItemAssembler α).item item tintable c').1
      = (a.item item tintable c).1 := by
  have hends' : ∀ id, EndsInTime other id := fun id => (hends id).congr (parent?_congr hrules)
  have hrules' : (fresh other item.itemModel).overrides
      = (fresh a.read item.itemModel).overrides := by
    rw [overrides_fresh (hends' _), overrides_fresh (hends _), ownDocument_itemModel,
      ownDocument_itemModel, hown]
  have hgeometry : ∀ id, ({ a with read := other } : ItemAssembler α).plainGeometry id tintable
      = a.plainGeometry id tintable := plainGeometry_congr hends hrules
  rw [(item_spec hends hc item tintable).1, (item_spec hends' hc' item tintable).1]
  simp only [plainItem, plainOverrides, hgeometry, hrules', renderTypeOf,
    (fresh_congr hrules (hends item.itemModel)).2]

end Selecting

/-! ### Items in single precision -/

variable {a : ItemAssembler Float32} {c : ItemCaches Float32} {item : Identifier} {tintable : Bool}
  {m : ItemModel Float32}

/-- **The last rule that counts decides.**  Let every chain of parents end in time, and let
assembling an item give a model, whatever was made before.  For any properties the model then
selects the geometry of the model that the last rule of the item's own file names among those that
count, drawn with the tint of the item, and the geometry of the item if no rule counts.  If
properties are raised or added, a rule decides that does not stand before the old one.  Rules in
other files change nothing. -/
theorem last_rule_decides (hends : ∀ id, EndsInTime a.read id) (hc : c.Faithful a)
    (h : (a.item item tintable c).1 = some m) :
    (∀ p place rule, a.Decides p (a.ownRules item) place rule →
      m.select p = a.geometryOf (Identifier.parse rule.model) tintable) ∧
    (∀ p, (∀ rule ∈ a.ownRules item, ¬ a.Counts p rule) →
      m.select p = a.geometryOf item.itemModel tintable) ∧
    (∀ p q place rule, Raised p q → a.Decides p (a.ownRules item) place rule →
      ∃ later rule', place ≤ later ∧ a.Decides q (a.ownRules item) later rule' ∧
        m.select q = a.geometryOf (Identifier.parse rule'.model) tintable) ∧
    ∀ other c', SameButRules a.read other → other item.itemModel = a.read item.itemModel →
      c'.Faithful { a with read := other } →
        (({ a with read := other } : ItemAssembler Float32).item item tintable c').1 = some m := by
  refine ⟨fun p place rule hdecides => select_of_decides hends hc h hdecides,
    fun p hnone => select_of_none hends hc h hnone, ?_, ?_⟩
  · intro p q place rule hraised hdecides
    obtain ⟨later, rule', hle, hlater⟩ :=
      hdecides.raise (fun x y z => Single.le_trans) hraised
    exact ⟨later, rule', hle, hlater, select_of_decides hends hc h hlater⟩
  · intro other c' hrules hown hc'
    exact (item_congr hends hrules hown hc hc').trans h

/-- A bow that is drawn in two stages, of which the further one inherits from the bow, and a rule
whose model is not known. -/
def bowModels : ModelSource where
  tables := [Table.ofList
    [(⟨"minecraft", "item/bow"⟩, "bow"), (⟨"minecraft", "item/bow_0"⟩, "bow_0"),
      (⟨"minecraft", "item/bow_1"⟩, "bow_1")]]
  source := AssetSource.ofFiles
    [("bow", .text
        ("\x7b\"parent\": \"item/generated\", \"overrides\": [" ++
          "\x7b\"predicate\": \x7b\"pulling\": 1\x7d, \"model\": \"item/bow_0\"\x7d, " ++
          "\x7b\"predicate\": \x7b\"pulling\": 1, \"pull\": 2\x7d, " ++
            "\"model\": \"item/bow_1\"\x7d, " ++
          "\x7b\"predicate\": \x7b\"pulling\": 1\x7d, \"model\": \"item/lost\"\x7d]\x7d")),
      ("bow_0", .text "\x7b\"textures\": \x7b\"layer0\": \"item/bow_0\"\x7d\x7d"),
      ("bow_1", .text "\x7b\"parent\": \"item/bow\"\x7d")]

/-- An assembler of its models, without textures. -/
def bowAssembler : ItemAssembler Float32 :=
  ⟨bowModels.contains, bowModels.read, Atlas.empty, fun _ => .solid, 4, 1⟩

/-- A bow that is pulled. -/
def pulled : ItemProperties Float32 := Table.ofList [("pulling", (1 : Nat))]

/-- A bow that is pulled further. -/
def pulledFurther : ItemProperties Float32 :=
  Table.ofList [("pulling", (1 : Nat)), ("pull", (3 : Nat))]

theorem last_rule_decides_bow :
    (∀ id, EndsInTime bowAssembler.read id) ∧
    ItemCaches.empty.Faithful bowAssembler ∧
    ∃ m, (bowAssembler.item ⟨"minecraft", "bow"⟩ false ItemCaches.empty).1 = some m ∧
      m.select ∅ = bowAssembler.geometryOf ⟨"minecraft", "item/bow"⟩ false ∧
      m.select pulled = bowAssembler.geometryOf ⟨"minecraft", "item/bow_0"⟩ false ∧
      m.select pulledFurther = bowAssembler.geometryOf ⟨"minecraft", "item/bow_1"⟩ false := by
  have hends : ∀ id, EndsInTime bowAssembler.read id :=
    (by decide +kernel : bowModels.ChainsEnd)
  have hfaithful := faithful_empty bowAssembler
  have hknown : bowAssembler.contains (Identifier.itemModel ⟨"minecraft", "bow"⟩) = true := by
    decide +kernel
  obtain ⟨m, hm⟩ : ∃ m, (bowAssembler.item ⟨"minecraft", "bow"⟩ false ItemCaches.empty).1
      = some m := by
    rw [(item_spec hends hfaithful _ false).1, plainItem, if_pos hknown]
    exact ⟨_, rfl⟩
  obtain ⟨hdecides, hnone, -, -⟩ := last_rule_decides hends hfaithful hm
  -- which of the three rules count without properties, pulled, and pulled further
  have hcounts : (bowAssembler.ownRules ⟨"minecraft", "bow"⟩).map (fun r =>
      (Identifier.parse r.model, decide (bowAssembler.Counts ∅ r),
        decide (bowAssembler.Counts pulled r), decide (bowAssembler.Counts pulledFurther r)))
      = [(⟨"minecraft", "item/bow_0"⟩, false, true, true),
        (⟨"minecraft", "item/bow_1"⟩, false, false, true),
        (⟨"minecraft", "item/lost"⟩, false, false, false)] := by decide +kernel
  generalize bowAssembler.ownRules ⟨"minecraft", "bow"⟩ = rules at hcounts hdecides hnone
  obtain ⟨first, second, third, rfl⟩ : ∃ first second third, rules = [first, second, third] :=
    List.length_eq_three.1 (by simpa using congrArg List.length hcounts)
  simp only [List.map_cons, List.map_nil, List.cons.injEq, Prod.mk.injEq, decide_eq_true_eq,
    decide_eq_false_iff_not, and_true] at hcounts
  obtain ⟨⟨hfirst, h₀, h₁, -⟩, ⟨hsecond, k₀, k₁, k₂⟩, ⟨-, l₀, l₁, l₂⟩⟩ := hcounts
  refine ⟨hends, hfaithful, m, hm, hnone ∅ (by simp [h₀, k₀, l₀]), ?_, ?_⟩
  · rw [← hfirst]
    exact hdecides pulled 0 first ⟨[second, third], rfl, h₁, by simp [k₁, l₁]⟩
  · rw [← hsecond]
    exact hdecides pulledFurther 1 second ⟨[third], rfl, k₂, by simp [l₂]⟩

end ItemAssembler

end VoxelBake
