/-
**A broken blockstate file costs its own block and nothing else.**

The blockstate files of all blocks are read in one build, and what one of them asks for, models and
their geometry, is kept for the others.  If all chains of parents end in time, a block is assembled
as if alone, so a file that is missing, or that nobody can make sense of, is not felt by the others:
the build ends as it would have, with the same atlas and the same items, and every state that is not
one of this block has the same model.

Main definitions:

* `Library.Broken` — the blockstate file of a block is missing or of no use;
* `Library.AlikeBut` — libraries with the same files, apart from the blockstate file of a block;
* `BlockPalette.Apart` — no state of a block belongs to another block as well;
* `Library.SameViewBut` — libraries that can be told apart by the states of a block only.

Main results:

* `Library.broken_iff` — a file is broken exactly if no blockstates are read from it;
* `Assembler.mem_stateIds_of_mem_states` — a block assembles its own states only;
* `Library.broken_costs_itself` — **a broken file is not felt outside its block**.
-/
import VoxelBake.Proofs.HermeticBuild

set_option relaxedAutoImplicit false
set_option autoImplicit false

namespace VoxelBake

/-! ### The states of a block -/

/-- No state of a block belongs to another block as well. -/
def BlockPalette.Apart (palette : BlockPalette) (b : Identifier) : Prop :=
  ∀ block ∈ palette.blocks, block ≠ b → ∀ state ∈ palette.stateIds b,
    state ∉ palette.stateIds block

theorem Assembler.mem_stateIds_of_mem_states {α : Type} [Scalar α] [Trig α] (a : Assembler α)
    {palette : BlockPalette} {block : Identifier} {file : BlockstateDocument} {c : BlockCaches α}
    {s : Nat × StateModel α} (hs : s ∈ (a.states palette block file c).1) :
    s.1 ∈ palette.stateIds block := by
  obtain ⟨shaped, hshaped, rfl⟩ := List.mem_map.1 hs
  -- variants and parts both go through the listed states and leave some of them out
  cases file with
  | variants variants =>
      obtain ⟨state, hstate, hsome⟩ := List.mem_filterMap.1 hshaped
      obtain ⟨properties, -, hsome⟩ := Option.bind_eq_some_iff.1 hsome
      obtain ⟨v, -, hsome⟩ := Option.bind_eq_some_iff.1 hsome
      cases hsome
      exact hstate
  | parts parts =>
      obtain ⟨state, hstate, hsome⟩ := List.mem_filterMap.1 hshaped
      obtain ⟨properties, -, hsome⟩ := Option.bind_eq_some_iff.1 hsome
      cases hsome
      exact hstate

namespace Library

variable {l l' : Library} {b : Identifier}

theorem lookup_statesAlone_of_not_mem {atlas : Atlas Float32} {palette : BlockPalette}
    {block : Identifier} {state : Nat} (h : state ∉ palette.stateIds block) :
    (l.statesAlone atlas palette block).lookup state = none := by
  refine List.lookup_eq_none_iff.2 fun s hs => ?_
  obtain ⟨file, -, hs⟩ := List.mem_flatMap.1 hs
  have hmem := Assembler.mem_stateIds_of_mem_states _ hs
  have hne : state ≠ s.1 := fun heq => h (heq ▸ hmem)
  simpa using hne

theorem statesAlone_of_no_blockstate {atlas : Atlas Float32} {palette : BlockPalette}
    (h : l.blockstate b = none) : l.statesAlone atlas palette b = [] := by
  rw [statesAlone, h]
  rfl

/-! ### Broken files -/

/-- The blockstate file of a block is missing or of no use. -/
inductive Broken (l : Library) (b : Identifier) : Prop
  /-- No file is known. -/
  | missing (hfile : l.files.blockstates.get? b = none)
  /-- Under its path there is no text. -/
  | unreadable {path : String} (hfile : l.files.blockstates.get? b = some path)
      (htext : (l.source path).bind Asset.text? = none)
  /-- The text is no document. -/
  | garbled {path text : String} (hfile : l.files.blockstates.get? b = some path)
      (htext : (l.source path).bind Asset.text? = some text) (hdoc : Json.read text = none)
  /-- The document is no blockstate file. -/
  | malformed {path text : String} {v : Json.Value} {fault : BlockstateFault}
      (hfile : l.files.blockstates.get? b = some path)
      (htext : (l.source path).bind Asset.text? = some text) (hdoc : Json.read text = some v)
      (hfault : BlockstateDocument.ofValue v = .error fault)

theorem broken_iff : l.Broken b ↔ l.blockstate b = none := by
  constructor
  · intro h
    cases h with
    | missing hfile => simp [blockstate, hfile]
    | unreadable hfile htext => simp [blockstate, hfile, AssetSource.document, htext]
    | garbled hfile htext hdoc => simp [blockstate, hfile, AssetSource.document, htext, hdoc]
    | malformed hfile htext hdoc hfault =>
        simp [blockstate, hfile, AssetSource.document, htext, hdoc, hfault, Except.toOption]
  · intro h
    cases hfile : l.files.blockstates.get? b with
    | none => exact .missing hfile
    | some path =>
        cases htext : (l.source path).bind Asset.text? with
        | none => exact .unreadable hfile htext
        | some text =>
            cases hdoc : Json.read text with
            | none => exact .garbled hfile htext hdoc
            | some v =>
                cases hvalue : BlockstateDocument.ofValue v with
                | error fault => exact .malformed hfile htext hdoc hvalue
                | ok file =>
                    simp [blockstate, hfile, AssetSource.document, htext, hdoc, hvalue,
                      Except.toOption] at h

/-! ### Libraries that differ in one file -/

/-- Libraries with the same files, apart from the blockstate file of a block. -/
structure AlikeBut (b : Identifier) (l l' : Library) : Prop extends SameAssets l l' where
  blockstates : ∀ block, block ≠ b →
    l.files.blockstates.get? block = l'.files.blockstates.get? block
  others : ∀ block, block ≠ b → ∀ path, l.files.blockstates.get? block = some path →
    l.source path = l'.source path

/-- Libraries that can be told apart by the states of a block only. -/
structure SameViewBut (palette : BlockPalette) (b : Identifier) (l l' : Library) : Prop where
  loaded : l.loaded = l'.loaded
  atlas : l.builtAtlas = l'.builtAtlas
  colormaps : l.builtColormaps = l'.builtColormaps
  items : l.itemModels = l'.itemModels
  item : ∀ item, l.itemModel item = l'.itemModel item
  states : ∀ state, state ∉ palette.stateIds b → l.stateModel state = l'.stateModel state

theorem sameViewBut_prepared (palette : BlockPalette) (b : Identifier) (l l' : Library) :
    l.prepared.SameViewBut palette b l'.prepared := by
  have hlookup := fun {β : Type} (x y : β) =>
    (ifLoaded_of_not_loaded (loaded_prepared l) x).trans
      (ifLoaded_of_not_loaded (loaded_prepared l') y).symm
  exact ⟨rfl, hlookup _ _, hlookup _ _, hlookup _ _, fun _ => hlookup _ _, fun _ _ => hlookup _ _⟩

namespace AlikeBut

variable (h : l.AlikeBut b l')

include h

theorem blockstate {block : Identifier} (hne : block ≠ b) :
    l.blockstate block = l'.blockstate block := by
  rw [Library.blockstate, Library.blockstate, ← h.blockstates block hne]
  congr 1
  refine Option.bind_congr fun path hpath => ?_
  rw [AssetSource.document, AssetSource.document, h.others block hne path hpath]

theorem statesAlone (atlas : Atlas Float32) (palette : BlockPalette) {block : Identifier}
    (hne : block ≠ b) : l.statesAlone atlas palette block = l'.statesAlone atlas palette block := by
  rw [Library.statesAlone, Library.statesAlone, h.blockstate hne, h.toSameAssets.assembler]

/-- A state that is not one of the block has the same model in both libraries. -/
theorem get?_states (hends : l.ChainsEnd) (atlas : Atlas Float32) (palette : BlockPalette)
    (items : ItemPalette) {state : Nat} (hstate : state ∉ palette.stateIds b) :
    (l.prepared.finished atlas palette items).states.get? state
      = (l'.prepared.finished atlas palette items).states.get? state := by
  have hsame : ∀ block, (l.statesAlone atlas palette block).lookup state
      = (l'.statesAlone atlas palette block).lookup state := by
    intro block
    by_cases hb : block = b
    · rw [hb, lookup_statesAlone_of_not_mem hstate, lookup_statesAlone_of_not_mem hstate]
    · rw [h.statesAlone atlas palette hb]
  rw [get?_states_finished hends, get?_states_finished (h.toSameAssets.chainsEnd hends)]
  simp only [hsame]

theorem sameViewBut_finished (hends : l.ChainsEnd) (atlas : Atlas Float32)
    (palette : BlockPalette) (items : ItemPalette) :
    (l.prepared.finished atlas palette items).SameViewBut palette b
      (l'.prepared.finished atlas palette items) := by
  have hitems := h.toSameAssets.items_finished hends atlas palette items
  refine ⟨rfl, rfl, ?_, ?_, fun item => ?_, fun state hstate => ?_⟩
  · rw [builtColormaps, builtColormaps, ifLoaded, ifLoaded, loaded_finished, loaded_finished,
      colormaps_finished, colormaps_finished, colormap_prepared, colormap_prepared,
      h.toSameAssets.colormap]
  · rw [itemModels, itemModels, ifLoaded, ifLoaded, loaded_finished, loaded_finished, hitems]
  · rw [itemModel_finished, itemModel_finished, hitems]
  · rw [stateModel_finished, stateModel_finished, h.get?_states hends atlas palette items hstate]

end AlikeBut

/-- If no other block has its states, a block whose file is broken has no models. -/
theorem Broken.get?_states (h : l.Broken b) (hends : l.ChainsEnd) {palette : BlockPalette}
    (hapart : palette.Apart b) (atlas : Atlas Float32) (items : ItemPalette) {state : Nat}
    (hstate : state ∈ palette.stateIds b) :
    (l.prepared.finished atlas palette items).states.get? state = none := by
  rw [get?_states_finished hends]
  refine List.findSome?_eq_none_iff.2 fun block hblock => ?_
  by_cases hb : block = b
  · rw [hb, statesAlone_of_no_blockstate (broken_iff.1 h)]
    rfl
  · exact lookup_statesAlone_of_not_mem (hapart block hblock hb state hstate)

/-- **A broken blockstate file is not felt outside its block.**  Take two libraries with the same
files, apart from the blockstate file of one block, which is broken in the second one, and a palette
in which no other block has a state of this one.  Both builds have the same outcome and use the
queue alike; atlas, colour maps, items and the states that are not of this block are the same; and
after a success the second library has no model for any state of the block. -/
theorem broken_costs_itself (h : l.AlikeBut b l') (hbroken : l'.Broken b) (hends : l.ChainsEnd)
    {palette : BlockPalette} (hapart : palette.Apart b) (items : ItemPalette) {σ : Type}
    (uploader : Uploader σ (Atlas Float32)) (q : Handoff σ (Atlas Float32)) :
    let sound := l.build palette items uploader q
    let hurt := l'.build palette items uploader q
    sound.1 = hurt.1 ∧ sound.2.2 = hurt.2.2 ∧ sound.2.1.SameViewBut palette b hurt.2.1 ∧
    (hurt.1 = .ok () → ∀ state ∈ palette.stateIds b, hurt.2.1.stateModel state = .ok none) := by
  intro sound hurt
  obtain ⟨hout, hqueue, hview⟩ := h.toSameAssets.build_rel hends uploader q
    (R := SameViewBut palette b) (sameViewBut_prepared palette b l l')
    fun atlas => h.sameViewBut_finished hends atlas palette items
  refine ⟨hout, hqueue, hview, fun hok state hstate => ?_⟩
  obtain ⟨built, q', hbuild⟩ : ∃ built q', hurt = (.ok (), built, q') :=
    ⟨hurt.2.1, hurt.2.2, by rw [← hok]⟩
  obtain ⟨atlas, -, hbuilt⟩ := build_ok hbuild
  rw [hbuild, hbuilt, stateModel_finished,
    hbroken.get?_states (h.toSameAssets.chainsEnd hends) hapart atlas items hstate]

/-! ### A file cut short -/

/-- The quarry with a second block that is drawn with the model of the first. -/
def yard : Library :=
  { quarry with
    source := fun path =>
      if path = "brick_states.json" then
        some (.text "\x7b\"multipart\": [\x7b\"apply\": \x7b\"model\": \"stone\"\x7d\x7d]\x7d")
      else quarry.source path
    files :=
      { quarry.files with
        blockstates := Table.ofList
          [(⟨"minecraft", "stone"⟩, "stone_states.json"),
            (⟨"minecraft", "brick"⟩, "brick_states.json")] } }

/-- The yard after the blockstate file of its stone was cut short. -/
def hurtYard : Library :=
  { yard with
    source := fun path =>
      if path = "stone_states.json" then some (.text "\x7b\"variants\": ") else yard.source path }

/-- The two blocks of the yard, each in one state. -/
def yardBlocks : BlockPalette :=
  ((StatePalette.empty.addState ⟨"minecraft", "stone"⟩ 0 ∅).addState
    ⟨"minecraft", "brick"⟩ 1 ∅).toBlockPalette

theorem quarry_sameAssets_yard : quarry.SameAssets yard where
  config := rfl
  textures := List.Perm.refl _
  blockModels := List.Perm.refl _
  itemModels := List.Perm.refl _
  source path hpath := by
    have hne : path ≠ "brick_states.json" := by
      rintro rfl
      exact absurd hpath (by decide +kernel)
    simp [yard, hne]

theorem fst_build_yard :
    (yard.build yardBlocks quarryItems acceptAll (Handoff.start ())).1 = .ok () := by
  have hquarry : (quarry.build yardBlocks quarryItems acceptAll (Handoff.start ())).1 = .ok () := by
    obtain ⟨built, q', hbuild⟩ := exists_quarry_build_of yardBlocks quarryItems
    rw [hbuild]
  have hsame : (quarry.build yardBlocks quarryItems acceptAll (Handoff.start ())).1 =
      (yard.build yardBlocks quarryItems acceptAll (Handoff.start ())).1 :=
    (quarry_sameAssets_yard.build_rel quarry_chainsEnd acceptAll (Handoff.start ())
      (R := fun _ _ => True) trivial fun _ => trivial).1
  exact hsame.symm.trans hquarry

theorem yard_alikeBut : yard.AlikeBut ⟨"minecraft", "stone"⟩ hurtYard where
  config := rfl
  textures := List.Perm.refl _
  blockModels := List.Perm.refl _
  itemModels := List.Perm.refl _
  source path hpath := by
    have hne : path ≠ "stone_states.json" := by
      rintro rfl
      exact absurd hpath (by decide +kernel)
    simp [hurtYard, hne]
  blockstates _ _ := rfl
  others block hblock path hpath := by
    have hne : path ≠ "stone_states.json" := by
      rintro rfl
      have hentry : (block, "stone_states.json") ∈ yard.files.blockstates.entries :=
        Table.mem_entries_of_get? hpath
      have hlisted : ∀ e ∈ yard.files.blockstates.entries, e.2 = "stone_states.json" →
          e.1 = ⟨"minecraft", "stone"⟩ := by decide +kernel
      exact hblock (hlisted _ hentry rfl)
    simp [hurtYard, hne]

theorem hurtYard_broken : hurtYard.Broken ⟨"minecraft", "stone"⟩ := by
  have hnone : (hurtYard.blockstate ⟨"minecraft", "stone"⟩).isNone = true := by decide +kernel
  exact broken_iff.2 (Option.isNone_iff_eq_none.1 hnone)

/-- In the yard the stone can be read until its file is cut short.  Both builds succeed, the bricks
keep their model, and the stone loses its own. -/
theorem broken_costs_itself_yard :
    yard.AlikeBut ⟨"minecraft", "stone"⟩ hurtYard ∧
    (yard.blockstate ⟨"minecraft", "stone"⟩).isSome = true ∧
    hurtYard.Broken ⟨"minecraft", "stone"⟩ ∧ yard.ChainsEnd ∧
    yardBlocks.Apart ⟨"minecraft", "stone"⟩ ∧
    (yard.build yardBlocks quarryItems acceptAll (Handoff.start ())).1 = .ok () ∧
    (hurtYard.build yardBlocks quarryItems acceptAll (Handoff.start ())).1 = .ok () ∧
    (hurtYard.build yardBlocks quarryItems acceptAll (Handoff.start ())).2.1.stateModel 0
      = .ok none ∧
    (yard.build yardBlocks quarryItems acceptAll (Handoff.start ())).2.1.stateModel 1
      = (hurtYard.build yardBlocks quarryItems acceptAll (Handoff.start ())).2.1.stateModel 1 := by
  have hreadable : (yard.blockstate ⟨"minecraft", "stone"⟩).isSome = true := by decide +kernel
  have hapart : yardBlocks.Apart ⟨"minecraft", "stone"⟩ := by
    unfold BlockPalette.Apart
    decide +kernel
  have hends : yard.ChainsEnd := quarry_sameAssets_yard.chainsEnd quarry_chainsEnd
  have hstone : 0 ∈ yardBlocks.stateIds ⟨"minecraft", "stone"⟩ := by decide +kernel
  have hbrick : 1 ∉ yardBlocks.stateIds ⟨"minecraft", "stone"⟩ := by decide +kernel
  obtain ⟨hout, -, hview, hnone⟩ := broken_costs_itself yard_alikeBut hurtYard_broken hends hapart
    quarryItems acceptAll (Handoff.start ())
  have hok := hout.symm.trans fst_build_yard
  exact ⟨yard_alikeBut, hreadable, hurtYard_broken, hends, hapart, fst_build_yard, hok,
    hnone hok 0 hstone, hview.states 1 hbrick⟩

end Library

end VoxelBake
