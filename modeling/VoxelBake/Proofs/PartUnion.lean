/-
**A state is drawn with the union of all parts that apply to it.**

A file with parts lists rules.  A rule names what is drawn under `apply`, of a list only the first
entry, and may name a condition under `when`.  Each state whose properties are known is drawn in one
way, with the geometry of all rules that apply to it, in the order of the file; rules whose model
cannot be found are left out for all states alike.  The texture of particles does not depend on the
conditions: all states take it from the last rule whose model was found.

Main definitions:

* `Part.applied?`, `Part.Applies` — **what a rule draws, and when**, read off its document;
* `Assembler.drawnRule` — the geometry of a rule, with the models of a memory;
* `Assembler.unionModel` — **the union that a state is drawn with**.

Main results:

* `Part.ofValue?_eq`, `Part.holdsFor_iff_applies` — rules are read as they are written;
* `Assembler.drawn_ruleParts` — the geometry of the rules that apply, in order;
* `Assembler.isSome_drawnRule_iff` — which rules are left out;
* `Assembler.states_of_rules` — **how all states of a block are drawn**.
-/
import VoxelBake.Proofs.PartConditions
import VoxelBake.Proofs.PlacedModels

set_option relaxedAutoImplicit false
set_option autoImplicit false

namespace VoxelBake

open ModelCache

/-! ### Rules -/

namespace Part

/-- The document of what a rule draws: what stands under `apply`, or the first entry of a list
there. -/
def applied? (rule : Json.Value) : Option Json.Value :=
  match rule.member? "apply" with
  | some (.array entries) => entries.head?
  | other => other

/-- A rule applies to a state: the state meets its condition, if it has one. -/
def Applies (props : Properties) (rule : Json.Value) : Prop :=
  ∀ v ∈ rule.member? "when", Condition.Met props v

instance (props : Properties) (rule : Json.Value) : Decidable (Applies props rule) :=
  inferInstanceAs (Decidable (∀ v ∈ rule.member? "when", Condition.Met props v))

/-- A rule is read as it is written, provided that it names a model. -/
theorem ofValue?_eq (rule : Json.Value) :
    Part.ofValue? rule = ((applied? rule).bind Placement.ofValue?).map fun p =>
      { condition := rule.member? "when", placement := p } := by
  rw [Part.ofValue?, applied?, Option.map_eq_bind]
  cases rule.member? "apply" with
  | none => rfl
  | some v => cases v <;> rfl

theorem applies_of_no_condition {props : Properties} {rule : Json.Value}
    (h : rule.member? "when" = none) : Applies props rule := by
  intro v hv
  rw [h] at hv
  cases hv

/-- What is no object is met by no state. -/
theorem not_applies_of_unreadable {props : Properties} {rule v : Json.Value}
    (h : rule.member? "when" = some v) (hv : v.asObject? = none) : ¬ Applies props rule := by
  intro happly
  cases happly v h with
  | one | each | values => cases hv

theorem holdsFor_iff_applies {props : Properties} {rule : Json.Value} {p : Placement} :
    Part.holdsFor { condition := rule.member? "when", placement := p } props = true ↔
      Applies props rule := by
  rw [Part.holdsFor, Applies]
  cases rule.member? "when" with
  | none => simp
  | some v => simp [Condition.holds_ofWhen_iff]

end Part

namespace Assembler

variable {α : Type}

/-! ### Which rules are drawn -/

/-- A model can be found: under its own name, or under that name below `block/`. -/
def Locates (a : Assembler α) (model : Identifier) : Prop :=
  a.contains model = true ∨ a.contains (model.withPath ("block/" ++ model.path)) = true

theorem isSome_modelId_iff {a : Assembler α} {model : Identifier} :
    (a.modelId model).isSome ↔ a.Locates model := by
  rw [modelId, Locates]
  by_cases hself : a.contains model = true
  · simp [hself]
  · by_cases hbelow : a.contains (model.withPath ("block/" ++ model.path)) = true <;>
      simp [hself, hbelow]

variable [Scalar α] [Trig α]

/-- What a rule draws with the models of a memory; nothing if its model cannot be found. -/
def drawnRule (a : Assembler α) (memory : ModelCache α) (rule : Json.Value) : Option (Placed α) :=
  ((Part.applied? rule).bind Placement.ofValue?).bind (a.drawn memory)

variable {a : Assembler α} {c : BlockCaches α}

/-- What an entry draws, if it names a model that can be found. -/
theorem isSome_drawn_ofValue?_iff {memory : ModelCache α} {entry : Json.Value} :
    ((Placement.ofValue? entry).bind (a.drawn memory)).isSome ↔
      ∃ name, (entry.member? "model").bind Json.Value.asText? = some name ∧
        a.Locates (Identifier.parse name) := by
  rw [Placement.ofValue?]
  cases (entry.member? "model").bind Json.Value.asText? with
  | none => simp
  | some name => simp [drawn, ← isSome_modelId_iff]

/-- **Which rules are drawn**: those that name a model that can be found. -/
theorem isSome_drawnRule_iff {memory : ModelCache α} {rule : Json.Value} :
    (a.drawnRule memory rule).isSome ↔
      ∃ entry ∈ Part.applied? rule, ∃ name,
        (entry.member? "model").bind Json.Value.asText? = some name ∧
        a.Locates (Identifier.parse name) := by
  rw [drawnRule]
  cases Part.applied? rule with
  | none => simp
  | some entry => simp [isSome_drawn_ofValue?_iff]

/-! ### The rules that apply -/

/-- The parts of a list of rules, drawn with the models of a memory. -/
def drawnParts (a : Assembler α) (memory : ModelCache α) (rules : List Json.Value) :
    List (Part × Placed α) :=
  (rules.filterMap Part.ofValue?).filterMap fun part =>
    (a.drawn memory part.placement).map (part, ·)

theorem map_snd_drawnParts (memory : ModelCache α) (rules : List Json.Value) :
    (a.drawnParts memory rules).map Prod.snd = rules.filterMap (a.drawnRule memory) := by
  rw [drawnParts, List.filterMap_filterMap, List.map_filterMap]
  refine List.filterMap_congr fun rule _ => ?_
  rw [Part.ofValue?_eq, drawnRule]
  cases (Part.applied? rule).bind Placement.ofValue? with
  | none => rfl
  | some p => simp [Function.comp_def]

/-- **The parts whose conditions hold are the rules that apply**, in the same order. -/
theorem drawn_ruleParts (memory : ModelCache α) (rules : List Json.Value) (props : Properties) :
    ((a.drawnParts memory rules).filter fun p => p.1.holdsFor props).map (fun p => p.2.geometry)
      = (rules.filter fun rule => Part.Applies props rule).filterMap fun rule =>
          (a.drawnRule memory rule).map Placed.geometry := by
  rw [drawnParts, List.filterMap_filterMap, List.filter_filterMap, List.map_filterMap,
    List.filterMap_filter]
  refine List.filterMap_congr fun rule _ => ?_
  rw [Part.ofValue?_eq, drawnRule]
  cases (Part.applied? rule).bind Placement.ofValue? with
  | none => simp
  | some p =>
      cases hp : a.drawn memory p with
      | none => simp [hp]
      | some placed =>
          by_cases happly : Part.Applies props rule <;>
            simp [hp, happly, Option.filter, Part.holdsFor_iff_applies]

/-! ### The union -/

/-- **The union that a state is drawn with**: the geometry of the rules that apply, in one way of
drawing, and the texture of particles of the last rule that is drawn at all. -/
def unionModel (a : Assembler α) (memory : ModelCache α) (rules : List Json.Value)
    (palette : BlockPalette) (block : Identifier) (props : Properties) : StateModel α where
  geometries :=
    [{ parts := (rules.filter fun rule => Part.Applies props rule).filterMap fun rule =>
        (a.drawnRule memory rule).map Placed.geometry
       weight := 1 }]
  renderType := palette.renderType block
  offsetType := palette.offsetType block
  particle :=
    match (rules.filterMap (a.drawnRule memory)).getLast? with
    | some placed => placed.particle
    | none => Identifier.missing

theorem lastParticle_drawnParts (memory : ModelCache α) (rules : List Json.Value)
    (palette : BlockPalette) (block : Identifier) (props : Properties) :
    lastParticle ((a.drawnParts memory rules).map Prod.snd)
      = (a.unionModel memory rules palette block props).particle := by
  rw [map_snd_drawnParts, lastParticle, unionModel]
  cases (rules.filterMap (a.drawnRule memory)).getLast? <;> rfl

/-- The states of a block are drawn with the union of the rules that apply. -/
theorem partStates_drawnParts (memory : ModelCache α) (rules : List Json.Value)
    (palette : BlockPalette) (block : Identifier) :
    partStates (a.drawnParts memory rules) palette block
      = (palette.stateIds block).filterMap fun s => (palette.properties s).map fun props =>
          { state := s
            geometries := (a.unionModel memory rules palette block props).geometries
            particle := (a.unionModel memory rules palette block props).particle } := by
  refine List.filterMap_congr fun s _ => ?_
  cases palette.properties s with
  | none => rfl
  | some props =>
      simp only [Option.bind_eq_bind, Option.bind_some, Option.map_some, drawn_ruleParts,
        lastParticle_drawnParts memory rules palette block props]
      rfl

/-- Assembling a block draws its states with the union of the rules that apply, and loads the models
of all rules. -/
theorem states_ruleParts (h : c.Sound a) (rules : List Json.Value) (palette : BlockPalette)
    (block : Identifier) :
    ∃ caches, a.states palette block (.parts (rules.filterMap Part.ofValue?)) c
        = ((palette.stateIds block).filterMap fun s => (palette.properties s).map fun props =>
            (s, a.unionModel caches.models rules palette block props), caches) ∧
      caches.models = loadAll a.read c.models
        (a.modelIds ((rules.filterMap Part.ofValue?).map Part.placement)) ∧
      caches.Sound a := by
  obtain ⟨hparts, hmodels, hsound⟩ := compileParts_spec h (rules.filterMap Part.ofValue?)
  refine ⟨(a.compileParts (rules.filterMap Part.ofValue?) c).2, ?_, hmodels, hsound⟩
  rw [states_eq, shapedStates_parts, hparts, ← drawnParts, partStates_drawnParts,
    List.map_filterMap]
  refine congrArg (·, _) (List.filterMap_congr fun s _ => ?_)
  rw [Option.map_map]
  rfl

/-- **How all states of a block are drawn**, for a document with parts.  Those whose properties are
known are drawn, in the order of the palette, each in one way: with the geometry of all rules that
name a model which can be found and that apply to the state, in the order of the document.  All take
their texture of particles from the last rule that names such a model.  The models are those that a
load gives ever after; the model of a chain that ends in time is the fresh one.  What was made is
left behind in a sound state. -/
theorem states_of_rules (a : Assembler α) {c : BlockCaches α} (h : c.Sound a)
    {document : Json.Value} {rules : List Json.Value}
    (hvariants : document.member? "variants" = none)
    (hrules : document.member? "multipart" = some (.array rules))
    (palette : BlockPalette) (block : Identifier) :
    ∃ file caches, BlockstateDocument.ofValue document = .ok file ∧
      a.states palette block file c
        = ((palette.stateIds block).filterMap fun s => (palette.properties s).map fun props =>
            (s, a.unionModel caches.models rules palette block props), caches) ∧
      (a.states palette block file c).1.map Prod.fst
        = (palette.stateIds block).filter (fun s => (palette.properties s).isSome) ∧
      (∀ rule, (a.drawnRule caches.models rule).isSome ↔
        ∃ entry ∈ Part.applied? rule, ∃ name,
          (entry.member? "model").bind Json.Value.asText? = some name ∧
          a.Locates (Identifier.parse name)) ∧
      (∀ props rule, rule.member? "when" = none → Part.Applies props rule) ∧
      (∀ props rule v, rule.member? "when" = some v → v.asObject? = none →
        ¬ Part.Applies props rule) ∧
      caches.Sound a ∧
      (Explained a.read c.models → Explained a.read caches.models ∧ ∀ id, EndsInTime a.read id →
        (ModelCache.load a.read id caches.models).1 = fresh a.read id) := by
  obtain ⟨caches, hstates, hmodels, hsound⟩ := states_ruleParts h rules palette block
  have hfile : BlockstateDocument.ofValue document
      = .ok (.parts (rules.filterMap Part.ofValue?)) := by
    simp [BlockstateDocument.ofValue, hvariants, hrules]
  refine ⟨_, caches, hfile, hstates, ?_, fun rule => isSome_drawnRule_iff,
    fun _ _ => Part.applies_of_no_condition, fun _ _ _ => Part.not_applies_of_unreadable, hsound,
    fun hexp => ?_⟩
  · rw [hstates, List.map_filterMap, ← List.filterMap_eq_filter]
    refine List.filterMap_congr fun s _ => ?_
    cases hprops : palette.properties s <;> simp [Option.guard, hprops]
  · have hafter : Explained a.read caches.models := hmodels ▸ hexp.loadAll _
    exact ⟨hafter, fun id hid => hafter.fst_load hid⟩

/-- A post and a side of a fence. -/
def fenceModels : ModelSource where
  tables := [Table.ofList
    [(⟨"minecraft", "block/post"⟩, "post.json"), (⟨"minecraft", "block/side"⟩, "side.json")]]
  source := AssetSource.ofFiles
    [("post.json", .text "\x7b\"textures\": \x7b\"particle\": \"oak\"\x7d\x7d"),
      ("side.json", .text "\x7b\"parent\": \"block/post\"\x7d")]

/-- An assembler of their models, without textures. -/
def fenceAssembler : Assembler Float32 := ⟨fenceModels.contains, fenceModels.read, Atlas.empty⟩

/-- The rules of a fence: a post, a side under a condition, a side under a condition that cannot be
read, and a model that cannot be found. -/
def fenceRules : List Json.Value :=
  [.object [("apply", .object [("model", .text "block/post")])],
    .object [("when", Condition.fenceCondition),
      ("apply", .array [.object [("model", .text "side"), ("y", .text "90")], .null])],
    .object [("when", .null), ("apply", .object [("model", .text "block/side")])],
    .object [("apply", .object [("model", .text "block/gate")])]]

/-- The document of a fence. -/
def fenceDocument : Json.Value := .object [("multipart", .array fenceRules)]

/-- A fence with three states, of which the properties of the last are not known. -/
def fencePalette : BlockPalette where
  blocks := [⟨"minecraft", "fence"⟩]
  stateIds _ := [0, 1, 2]
  properties s := if s = 0 then some Condition.eastward else if s = 1 then some ∅ else none
  renderType _ := .solid
  offsetType _ := .none

theorem states_of_rules_fence :
    BlockCaches.empty.Sound fenceAssembler ∧ fenceDocument.member? "variants" = none ∧
    fenceDocument.member? "multipart" = some (.array fenceRules) ∧
    ∃ file caches, BlockstateDocument.ofValue fenceDocument = .ok file ∧
      fenceAssembler.states fencePalette ⟨"minecraft", "fence"⟩ file BlockCaches.empty
        = ([(0, fenceAssembler.unionModel caches.models fenceRules fencePalette
              ⟨"minecraft", "fence"⟩ Condition.eastward),
            (1, fenceAssembler.unionModel caches.models fenceRules fencePalette
              ⟨"minecraft", "fence"⟩ ∅)], caches) := by
  have hsound := BlockCaches.sound_empty fenceAssembler
  have hvariants : fenceDocument.member? "variants" = none := rfl
  have hrules : fenceDocument.member? "multipart" = some (.array fenceRules) := rfl
  obtain ⟨file, caches, hfile, hstates, -⟩ := states_of_rules fenceAssembler hsound hvariants hrules
    fencePalette ⟨"minecraft", "fence"⟩
  exact ⟨hsound, hvariants, hrules, file, caches, hfile, hstates⟩

/-- The condition of the side holds in the first state only, and the one that cannot be read in
neither. -/
example : (fenceRules.map fun rule =>
    (decide (Part.Applies Condition.eastward rule), decide (Part.Applies ∅ rule)))
      = [(true, true), (true, false), (false, false), (true, true)] := by decide

end Assembler

end VoxelBake
