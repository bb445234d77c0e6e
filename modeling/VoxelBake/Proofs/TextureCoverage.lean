/-
**Every texture that a face shows was collected.**

A build collects textures from the models of each table before it assembles anything.  What is
assembled afterwards may be other models: an item may take its model, or that of a rule, from the
files of blocks, with parents among the files of items, and a flat item shows its layers on boxes
that no file has.  Still each texture at the end of a slot, or on a face, was written into some
file, and that file was among those that the build collected from.

Main definitions:

* `Model.faceTextures` — the textures that the faces of a model show;
* `Model.Mentions`, `ModelDocument.Names` — textures written into a model, and into a file;
* `Library.Covered` — a texture is the missing one, or has a place in the atlas, or has no readable
  file.

Main results:

* `compile_congr` — geometry depends on the places of the textures of its faces alone;
* `ModelCache.mentions_fresh`, `ModelCache.mentions_fresh_self` — the textures of a fresh model are
  named by the files of its chain, and it has those of its own file;
* `Library.mem_wantedTextures_of_mentions_item` — the textures of items were collected, too;
* `Library.faces_covered` — **a build never shows the missing texture in place of one that the
  packs have**.
-/
import VoxelBake.Proofs.SharedCaches

set_option relaxedAutoImplicit false
set_option autoImplicit false

namespace VoxelBake

/-! ### Textures of faces -/

section Faces

variable {α : Type}

/-- The textures that the faces of a model show. -/
def Model.faceTextures (m : Model α) : List Identifier :=
  m.elements.flatMap fun e => e.faces.map fun f => m.resolve f.2.texture

/-- A texture is written into a model: into a slot or onto a face. -/
def Model.Mentions (m : Model α) (t : Identifier) : Prop :=
  (∃ k, m.textures.get? k = some (.texture t)) ∨
    ∃ e ∈ m.elements, ∃ f ∈ e.faces, f.2.texture = .texture t

variable {m : Model α} {t : Identifier}

theorem Model.mem_faceTextures :
    t ∈ m.faceTextures ↔ ∃ e ∈ m.elements, ∃ f ∈ e.faces, m.resolve f.2.texture = t := by
  simp only [faceTextures, List.mem_flatMap, List.mem_map]

/-- What a slot stands for is written into some slot, or it is the missing texture. -/
theorem Model.resolveSlot_cases (m : Model α) (name : String) :
    m.resolveSlot name = Identifier.missing ∨
      ∃ k, m.textures.get? k = some (.texture (m.resolveSlot name)) := by
  cases hwalk : (Chain.follow (slotStep m.textures) maxSlotHops name).outcome with
  | error fault => exact Or.inl (by simp only [resolveSlot, hwalk])
  | ok id =>
      have hid : m.resolveSlot name = id := by simp only [resolveSlot, hwalk]
      -- the slot at which the walk ends holds a texture
      obtain ⟨k, hk⟩ := Chain.exists_done_of_outcome hwalk
      refine Or.inr ⟨k, ?_⟩
      rw [hid]
      cases href : m.textures.get? k with
      | none => simp [slotStep, href] at hk
      | some ref =>
          cases ref with
          | slot next => simp [slotStep, href] at hk
          | texture id' =>
              simp only [slotStep, href, Chain.Step.done.injEq] at hk
              rw [hk]

theorem Model.resolveSlot_of_get? {k : String} (h : m.textures.get? k = some (.texture t)) :
    m.resolveSlot k = t := by
  have hstep : slotStep m.textures k = .done t := by simp only [slotStep, h]
  simp only [resolveSlot, Chain.follow_of_done hstep]

/-- What a face shows is written into the model, or it is the missing texture. -/
theorem Model.mentions_of_mem_faceTextures (h : t ∈ m.faceTextures) :
    t = Identifier.missing ∨ m.Mentions t := by
  obtain ⟨e, he, f, hf, rfl⟩ := mem_faceTextures.1 h
  cases href : f.2.texture with
  | texture id => exact Or.inr (Or.inr ⟨e, he, f, hf, href⟩)
  | slot name =>
      rcases m.resolveSlot_cases name with hmissing | hslot
      · exact Or.inl hmissing
      · exact Or.inr (Or.inl hslot)

/-- What is written into a model is among its textures, unless it is the missing one. -/
theorem Model.mem_textureIds_of_mentions (h : m.Mentions t) (hne : t ≠ Identifier.missing) :
    t ∈ m.textureIds := by
  rw [textureIds, mem_sortedIds, List.mem_filter, List.mem_append]
  refine ⟨?_, decide_eq_true hne⟩
  rcases h with ⟨k, hk⟩ | ⟨e, he, f, hf, href⟩
  · have hkey : k ∈ m.textures.keys := Table.contains_eq_true_iff.1 (by simp [Table.contains, hk])
    exact Or.inl (List.mem_map.2 ⟨k, hkey, resolveSlot_of_get? hk⟩)
  · have hface : t ∈ m.faceTextures := mem_faceTextures.2 ⟨e, he, f, hf, by rw [href]; rfl⟩
    exact Or.inr hface

theorem Model.not_mentions_empty : ¬ (Model.empty : Model α).Mentions t := by
  rintro (⟨k, hk⟩ | ⟨e, he, -⟩)
  · cases hk
  · cases he

variable [Scalar α] [Trig α]

/-- **Geometry depends on the places of the textures of its faces alone.** -/
theorem compile_congr {atlas atlas' : Atlas α} (o : Orientation)
    (h : ∀ t ∈ m.faceTextures, atlas.entry t = atlas'.entry t) :
    compile m o atlas = compile m o atlas' := by
  have hquad : ∀ e ∈ m.elements, ∀ f ∈ e.faces,
      m.faceQuad o atlas (e.corners o) f = m.faceQuad o atlas' (e.corners o) f := by
    intro e he f hf
    have hentry := h _ (Model.mem_faceTextures.2 ⟨e, he, f, hf, rfl⟩)
    simp only [Model.faceQuad, Atlas.uvs, hentry]
  have hquads : m.faceQuads o atlas = m.faceQuads o atlas' :=
    List.flatMap_congr fun e he => List.map_congr_left (hquad e he)
  rw [compile, compile, hquads]

end Faces

/-! ### Textures that files name -/

section Files

variable {α : Type}

/-- What a file says about a slot. -/
def ModelDocument.slot? (d : ModelDocument α) (k : String) : Option TextureRef :=
  (d.textures.bind fun slots => slots.get? k).map TextureRef.parse

variable [Scalar α]

/-- A file names a texture: in a slot or on a face of its own boxes. -/
def ModelDocument.Names (d : ModelDocument α) (t : Identifier) : Prop :=
  (∃ k, d.slot? k = some (.texture t)) ∨
    ∃ boxes, d.elements = some boxes ∧
      ∃ e ∈ boxes, ∃ f ∈ (Element.ofDocument e).faces, f.2.texture = .texture t

variable {m : Model α} {d : ModelDocument α} {t : Identifier}

/-- A slot holds what the file laid on top says, or else what it held before. -/
theorem Model.get?_overlay (m : Model α) (d : ModelDocument α) (k : String) :
    (m.overlay d).textures.get? k = (d.slot? k).or (m.textures.get? k) := by
  cases hslots : d.textures with
  | none => simp only [overlay, ModelDocument.slot?, hslots, Option.bind_none, Option.map_none,
      Option.none_or]
  | some slots =>
      have hfold : (m.overlay d).textures
          = (slots.mapValues fun _ => TextureRef.parse).entries.foldl
              (fun t e => t.insert e.1 e.2) m.textures := by
        simp only [overlay, hslots, Table.mapValues, List.foldl_map]
      rw [hfold, Table.get?_foldl_entries, Table.get?_mapValues, ModelDocument.slot?, hslots,
        Option.bind_some]

theorem Model.mentions_overlay (h : (m.overlay d).Mentions t) : m.Mentions t ∨ d.Names t := by
  rcases h with ⟨k, hk⟩ | ⟨e, he, f, hf, href⟩
  · rw [get?_overlay] at hk
    rcases Option.or_eq_some_iff.1 hk with hown | ⟨-, hinherited⟩
    · exact Or.inr (Or.inl ⟨k, hown⟩)
    · exact Or.inl (Or.inl ⟨k, hinherited⟩)
  · cases hboxes : d.elements with
    | none =>
        simp only [overlay, hboxes] at he
        exact Or.inl (Or.inr ⟨e, he, f, hf, href⟩)
    | some boxes =>
        simp only [overlay, hboxes, List.mem_map] at he
        obtain ⟨box, hbox, rfl⟩ := he
        exact Or.inr (Or.inr ⟨boxes, hboxes, box, hbox, f, hf, href⟩)

theorem Model.mentions_overlay_self (m : Model α) (h : d.Names t) : (m.overlay d).Mentions t := by
  rcases h with ⟨k, hk⟩ | ⟨boxes, hboxes, box, hbox, f, hf, href⟩
  · refine Or.inl ⟨k, ?_⟩
    rw [get?_overlay, hk, Option.some_or]
  · refine Or.inr ⟨Element.ofDocument box, ?_, f, hf, href⟩
    simp only [overlay, hboxes]
    exact List.mem_map_of_mem hbox

theorem Resolved.model_inherit (r : Resolved α) (id : Identifier)
    (file : Option (ModelDocument α)) :
    (r.inherit id file).model = (r.overlay file).model := by
  simp only [inherit]
  split <;> rfl

theorem Resolved.mentions_inherit {r : Resolved α} {id : Identifier}
    {file : Option (ModelDocument α)} (h : (r.inherit id file).model.Mentions t) :
    r.model.Mentions t ∨ ∃ d, file = some d ∧ d.Names t := by
  rw [model_inherit] at h
  cases file with
  | none => exact Or.inl h
  | some d => exact (Model.mentions_overlay h).imp_right fun hnames => ⟨d, rfl, hnames⟩

theorem Resolved.mentions_inherit_self (r : Resolved α) (id : Identifier) (h : d.Names t) :
    (r.inherit id (some d)).model.Mentions t := by
  rw [model_inherit]
  exact Model.mentions_overlay_self r.model h

namespace ModelCache

variable {read : Identifier → Option (ModelDocument α)} {id top : Identifier}
  {below : List Identifier} {r : Resolved α}

theorem mentions_topmost (h : (topmost read id).model.Mentions t) :
    builtinKind id = none ∧ ∃ d, read id = some d ∧ d.Names t := by
  rw [topmost] at h
  cases hkind : builtinKind id with
  | some kind =>
      rw [hkind] at h
      exact absurd h Model.not_mentions_empty
  | none =>
      rw [hkind] at h
      exact ⟨rfl, (Resolved.mentions_inherit h).resolve_left Model.not_mentions_empty⟩

/-- The textures of a model with files laid over it are its own or named by these files. -/
theorem mentions_layDown (h : Climb read id below top)
    (hm : (layDown read r below).model.Mentions t) :
    r.model.Mentions t ∨ ∃ j d, builtinKind j = none ∧ read j = some d ∧ d.Names t := by
  induction h with
  | here id => exact Or.inl hm
  | @up id parent top below hp _ ih =>
      rw [layDown_cons] at hm
      rcases Resolved.mentions_inherit hm with habove | ⟨d, hd, hnames⟩
      · exact ih habove
      · exact Or.inr ⟨id, d, builtinKind_of_parent? hp, hd, hnames⟩

/-- **The textures of a fresh model are named by files.** -/
theorem mentions_fresh (hends : EndsInTime read id) (hm : (fresh read id).model.Mentions t) :
    ∃ j d, builtinKind j = none ∧ read j = some d ∧ d.Names t := by
  obtain ⟨below, top, hclimb, htop, hlength⟩ := hends
  rw [fresh_of_climb hclimb htop hlength] at hm
  rcases mentions_layDown hclimb hm with habove | hnamed
  · obtain ⟨hkind, d, hd, hnames⟩ := mentions_topmost habove
    exact ⟨top, d, hkind, hd, hnames⟩
  · exact hnamed

/-- **A fresh model has the textures that its own file names.** -/
theorem mentions_fresh_self (hends : EndsInTime read id) (hkind : builtinKind id = none)
    (hd : read id = some d) (hnames : d.Names t) : (fresh read id).model.Mentions t := by
  obtain ⟨below, top, hclimb, htop, hlength⟩ := hends
  rw [fresh_of_climb hclimb htop hlength]
  -- the file of the model itself is laid down last, or it is the top of its chain
  cases hclimb with
  | here =>
      rw [layDown_nil, topmost, hkind, hd]
      exact Resolved.mentions_inherit_self Resolved.empty id hnames
  | up _ _ =>
      rw [layDown_cons, hd]
      exact Resolved.mentions_inherit_self _ id hnames

end ModelCache

end Files

/-! ### What was collected -/

namespace ModelSource

variable {files : FileTables} {source : AssetSource} {id : Identifier} {d : ModelDocument Float32}

theorem mem_keys_of_read_blocks (h : (ModelSource.blocks files source).read id = some d) :
    id ∈ files.blockModels.keys := by
  by_contra hid
  have hnone : (ModelSource.blocks files source).read id = none :=
    read_of_unknown fun t ht => List.mem_singleton.1 ht ▸ hid
  rw [hnone] at h
  cases h

/-- A model of items is read from its own file or, if it has none, from that of a block. -/
theorem read_items_cases (h : (ModelSource.items files source).read id = some d) :
    id ∈ files.itemModels.keys ∨ (ModelSource.blocks files source).read id = some d := by
  by_cases hid : id ∈ files.itemModels.keys
  · exact Or.inl hid
  · have hnone : files.itemModels.get? id = none := Table.get?_eq_none_iff.2 hid
    have hread : (ModelSource.items files source).read id
        = (ModelSource.blocks files source).read id := by
      simp only [read, items, blocks, List.findSome?_cons, hnone]
    exact Or.inr (hread ▸ h)

end ModelSource

namespace Library

open ModelCache

variable {l : Library} {atlas : Atlas Float32} {t id : Identifier}

/-- A texture need not be missed in an atlas: it is the missing texture itself, or it has a place,
or it has no file that can be read. -/
def Covered (l : Library) (atlas : Atlas Float32) (t : Identifier) : Prop :=
  t = Identifier.missing ∨ atlas.contains t = true ∨ l.texture t = none

/-- The textures of the fresh models of blocks were collected. -/
theorem mem_wantedTextures_of_names (hends : l.ChainsEnd) {d : ModelDocument Float32}
    (hkind : builtinKind id = none) (hd : l.blockSource.read id = some d) (hnames : d.Names t)
    (hne : t ≠ Identifier.missing) : t ∈ l.wantedTextures := by
  have hm : (l.blockSource.fresh id).model.Mentions t :=
    mentions_fresh_self (hends.blocks id) hkind hd hnames
  exact (mem_wantedTextures hends).2 (Or.inl ⟨id, ModelSource.mem_keys_of_read_blocks hd,
    Model.mem_textureIds_of_mentions hm hne⟩)

theorem mem_wantedTextures_of_mentions_block (hends : l.ChainsEnd)
    (hm : (l.blockSource.fresh id).model.Mentions t) (hne : t ≠ Identifier.missing) :
    t ∈ l.wantedTextures := by
  obtain ⟨j, d, hkind, hd, hnames⟩ := mentions_fresh (hends.blocks id) hm
  exact mem_wantedTextures_of_names hends hkind hd hnames hne

/-- **The textures of the fresh models of items were collected**: each from the model of the file
that names it, which may be one of a block. -/
theorem mem_wantedTextures_of_mentions_item (hends : l.ChainsEnd)
    (hm : (l.itemSource.fresh id).model.Mentions t) (hne : t ≠ Identifier.missing) :
    t ∈ l.wantedTextures := by
  -- the texture is collected with the file that names it, not with the model that shows it
  obtain ⟨j, d, hkind, hd, hnames⟩ := mentions_fresh (hends.items id) hm
  rcases ModelSource.read_items_cases hd with hkey | hblock
  · have hown : (l.itemSource.fresh j).model.Mentions t :=
      mentions_fresh_self (hends.items j) hkind hd hnames
    exact (mem_wantedTextures hends).2 (Or.inr (Or.inl
      ⟨j, hkey, Model.mem_textureIds_of_mentions hown hne⟩))
  · exact mem_wantedTextures_of_names hends hkind hblock hnames hne

end Library

/-! ### What geometry is compiled from -/

section Compiled

open ModelCache

variable {α : Type} [Scalar α]

/-- Each face of the boxes of a flat item shows the slot of a layer. -/
theorem SpriteShape.texture_of_mem_elements {s : SpriteShape} {e : Element α} (he : e ∈ s.elements)
    {f : Direction × Face α} (hf : f ∈ e.faces) :
    ∃ layer, f.2.texture = .slot (Model.layerSlot layer) := by
  obtain ⟨layer, -, hbox⟩ := List.mem_flatMap.1 he
  refine ⟨layer, ?_⟩
  rcases List.mem_append.1 hbox with hstripe | hslab
  · obtain ⟨i, -, hi⟩ := List.mem_flatMap.1 hstripe
    simp only [stripes, List.mem_cons, List.not_mem_nil, or_false] at hi
    rcases hi with rfl | rfl <;>
    · simp only [spriteBox, List.mem_cons, List.not_mem_nil, or_false] at hf
      rcases hf with rfl | rfl <;> rfl
  · rw [List.mem_singleton.1 hslab] at hf
    simp only [slab, spriteBox, List.mem_cons, List.not_mem_nil, or_false] at hf
    rcases hf with rfl | rfl <;> rfl

/-- The model drawn for an item has no textures of its own. -/
theorem ItemAssembler.mentions_drawnModel {a : ItemAssembler α} {r : Resolved α} {tintable : Bool}
    {t : Identifier} (h : (a.drawnModel r tintable).Mentions t) : r.model.Mentions t := by
  cases hkind : r.kind with
  | elements =>
      simp only [drawnModel, hkind] at h
      exact h
  | generated =>
      simp only [drawnModel, hkind] at h
      rcases h with hslot | ⟨e, he, f, hf, href⟩
      · exact Or.inl hslot
      · obtain ⟨layer, hlayer⟩ := SpriteShape.texture_of_mem_elements he hf
        rw [hlayer] at href
        cases href
  | entity =>
      simp only [drawnModel, hkind] at h
      rcases h with hslot | ⟨e, he, -⟩
      · exact Or.inl hslot
      · cases he

variable [Trig α]

/-- Geometry that is compiled from the fresh model of a known name. -/
def Assembler.Compiled (a : Assembler α) (g : Geometry α) : Prop :=
  ∃ id o, a.contains id = true ∧ g = compile (fresh a.read id).model o a.atlas

namespace Assembler

variable {a : Assembler α} {c : BlockCaches α}

theorem compiled_of_drawn {p : Placement} {placed : Placed α} (h : a.drawn ∅ p = some placed) :
    a.Compiled placed.geometry := by
  obtain ⟨id, hid, rfl⟩ := Option.map_eq_some_iff.1 h
  exact ⟨id, p.orientation, contains_modelId hid, rfl⟩

theorem compiled_of_entryVariant {e : String × List Placement} {g : StateGeometry α}
    (hg : g ∈ (a.entryVariant ∅ e).geometries) : ∀ part ∈ g.parts, a.Compiled part := by
  intro part hpart
  obtain ⟨placed, hplaced, rfl⟩ := List.mem_map.1 hg
  obtain ⟨p, -, hp⟩ := List.mem_filterMap.1 hplaced
  rw [List.mem_singleton.1 hpart]
  exact compiled_of_drawn hp

/-- **All geometry of a state is compiled** from fresh models. -/
theorem compiled_of_mem_states (hends : ∀ id, EndsInTime a.read id) (h : c.Faithful a)
    {palette : BlockPalette} {block : Identifier} {file : BlockstateDocument} {s : Nat}
    {m : StateModel α} (hm : (s, m) ∈ (a.states palette block file c).1) :
    ∀ g ∈ m.geometries, ∀ part ∈ g.parts, a.Compiled part := by
  intro g hg part hpart
  obtain ⟨shaped, hshaped, hstate⟩ : ∃ shaped ∈ (a.shapedStates palette block file c).1,
      m.geometries = shaped.geometries := by
    obtain ⟨shaped, hshaped, heq⟩ := List.mem_map.1 hm
    exact ⟨shaped, hshaped, by cases heq; rfl⟩
  rw [hstate] at hg
  cases file with
  | variants variants =>
      rw [shapedStates_variants, fst_compileVariants hends h] at hshaped
      obtain ⟨state, -, hchosen⟩ := List.mem_filterMap.1 hshaped
      obtain ⟨props, -, hchosen⟩ := Option.bind_eq_some_iff.1 hchosen
      obtain ⟨v, hv, hshape⟩ := Option.bind_eq_some_iff.1 hchosen
      cases hshape
      -- the order in which variants are tried is of no importance here
      have hmem : v ∈ variants.map (a.entryVariant ∅) :=
        List.mem_mergeSort.1 (List.mem_of_find?_eq_some hv)
      obtain ⟨e, -, rfl⟩ := List.mem_map.1 hmem
      exact compiled_of_entryVariant hg part hpart
  | parts parts =>
      rw [shapedStates_parts, fst_compileParts hends h] at hshaped
      obtain ⟨state, -, hchosen⟩ := List.mem_filterMap.1 hshaped
      obtain ⟨props, -, hshape⟩ := Option.bind_eq_some_iff.1 hchosen
      cases hshape
      rw [List.mem_singleton.1 hg] at hpart
      obtain ⟨⟨piece, placed⟩, hkept, rfl⟩ := List.mem_map.1 hpart
      obtain ⟨source, -, hdrawn⟩ := List.mem_filterMap.1 (List.mem_filter.1 hkept).1
      obtain ⟨placed', hplaced', heq⟩ := Option.map_eq_some_iff.1 hdrawn
      cases heq
      exact compiled_of_drawn hplaced'

end Assembler

namespace ItemAssembler

variable {a : ItemAssembler α}

/-- **All geometry of an item is compiled** from fresh models: its own, and that of its rules. -/
theorem compiled_of_plainItem {item : Identifier} {tintable : Bool} {m : ItemModel α}
    (hm : a.plainItem item tintable = some m) {g : ItemGeometry α}
    (hg : g = m.geometry ∨ ∃ o ∈ m.overrides, g = o.geometry) :
    ∃ id, a.contains id = true ∧ g = a.plainGeometry id tintable := by
  by_cases hknown : a.contains item.itemModel = true
  · rw [plainItem, if_pos hknown] at hm
    obtain rfl := Option.some.inj hm
    rcases hg with rfl | ⟨o, ho, rfl⟩
    · exact ⟨item.itemModel, hknown, rfl⟩
    · obtain ⟨rule, -, hrule⟩ := List.mem_filterMap.1 ho
      by_cases htarget : a.contains (Identifier.parse rule.model) = true
      · rw [if_pos htarget] at hrule
        obtain rfl := Option.some.inj hrule
        exact ⟨Identifier.parse rule.model, htarget, rfl⟩
      · rw [if_neg htarget] at hrule
        exact absurd hrule (Option.some_ne_none o).symm
  · rw [plainItem, if_neg hknown] at hm
    exact absurd hm (Option.some_ne_none m).symm

end ItemAssembler

end Compiled

/-! ### Coverage -/

namespace Library

open ModelCache

variable {l : Library} {atlas : Atlas Float32} {palette : BlockPalette} {items : ItemPalette}
  {t id : Identifier}

theorem covered_of_wanted (hatlas : l.buildAtlas l.wantedTextures = .ok atlas)
    (h : t ≠ Identifier.missing → t ∈ l.wantedTextures) : l.Covered atlas t := by
  by_cases hne : t = Identifier.missing
  · exact Or.inl hne
  · exact Or.inr (contains_of_buildAtlas hatlas (h hne))

theorem covered_block (hends : l.ChainsEnd) (hatlas : l.buildAtlas l.wantedTextures = .ok atlas)
    (ht : t ∈ (l.blockSource.fresh id).model.faceTextures) : l.Covered atlas t := by
  rcases Model.mentions_of_mem_faceTextures ht with rfl | hm
  · exact Or.inl rfl
  · exact covered_of_wanted hatlas (mem_wantedTextures_of_mentions_block hends hm)

theorem covered_item (hends : l.ChainsEnd) (hatlas : l.buildAtlas l.wantedTextures = .ok atlas)
    {tintable : Bool} (ht : t ∈ ((l.itemAssembler atlas palette).drawnModel
      (l.itemSource.fresh id) tintable).faceTextures) : l.Covered atlas t := by
  rcases Model.mentions_of_mem_faceTextures ht with rfl | hm
  · exact Or.inl rfl
  · exact covered_of_wanted hatlas
      (mem_wantedTextures_of_mentions_item hends (ItemAssembler.mentions_drawnModel hm))

/-- A covered texture with a readable file is not taken for the missing one. -/
theorem Covered.entry (h : l.Covered atlas t) (hne : t ≠ Identifier.missing)
    (hfile : l.texture t ≠ none) : atlas.entries.get? t = some (atlas.entry t) := by
  have hplace : atlas.contains t = true := (h.resolve_left hne).resolve_right hfile
  obtain ⟨e, he⟩ := Option.isSome_iff_exists.1 hplace
  rw [he, Atlas.entry, he]

section Built

variable {σ : Type} {uploader : Uploader σ (Atlas Float32)} {h h' : Handoff σ (Atlas Float32)}
  {built : Library}

theorem mem_states_of_stateModel (hends : l.ChainsEnd)
    (hbuild : l.build palette items uploader h = (.ok (), built, h')) {state : Nat}
    {m : StateModel Float32} (hm : built.stateModel state = .ok (some m)) :
    ∃ block file, (state, m) ∈ ((l.assembler built.atlas).states palette block file
      BlockCaches.empty).1 := by
  obtain ⟨atlas, -, rfl⟩ := build_ok hbuild
  rw [stateModel_finished, get?_states_finished hends] at hm
  obtain ⟨block, -, hlookup⟩ := List.exists_of_findSome?_eq_some (Except.ok.inj hm)
  obtain ⟨before, after, hsplit, -⟩ := List.lookup_eq_some_iff.1 hlookup
  have halone : (state, m) ∈ l.statesAlone atlas palette block := hsplit ▸ by simp
  obtain ⟨file, -, hfile⟩ := List.mem_flatMap.1 halone
  exact ⟨block, file, hfile⟩

theorem plainItem_of_itemModel (hends : l.ChainsEnd)
    (hbuild : l.build palette items uploader h = (.ok (), built, h')) {number : Nat}
    {m : ItemModel Float32} (hm : built.itemModel number = .ok (some m)) :
    ∃ item, (l.itemAssembler built.atlas palette).plainItem item (items.isTintable item)
      = some m := by
  obtain ⟨atlas, -, rfl⟩ := build_ok hbuild
  rw [itemModel_finished, get?_items_finished hends] at hm
  obtain ⟨e, -, halone⟩ := Option.bind_eq_some_iff.1 (Except.ok.inj hm)
  rw [itemAlone_eq hends] at halone
  exact ⟨e.2, halone⟩

/-- **A build never shows the missing texture in place of one that the packs have.**  The faces of
the fresh models of blocks and of what is drawn for items show covered textures; all geometry of
states and items, that of rules included, is compiled from such models; and a covered texture with
a readable file is drawn from its own place. -/
theorem faces_covered (hends : l.ChainsEnd)
    (hbuild : l.build palette items uploader h = (.ok (), built, h')) :
    (∀ id, ∀ t ∈ (l.blockSource.fresh id).model.faceTextures, l.Covered built.atlas t) ∧
    (∀ id tintable, ∀ t ∈ ((l.itemAssembler built.atlas palette).drawnModel
      (l.itemSource.fresh id) tintable).faceTextures, l.Covered built.atlas t) ∧
    (∀ state m, built.stateModel state = .ok (some m) →
      ∀ g ∈ m.geometries, ∀ part ∈ g.parts, ∃ id o, l.blockSource.contains id = true ∧
        part = compile (l.blockSource.fresh id).model o built.atlas) ∧
    (∀ item m, built.itemModel item = .ok (some m) →
      ∀ g, (g = m.geometry ∨ ∃ o ∈ m.overrides, g = o.geometry) →
        ∃ id tintable, l.itemSource.contains id = true ∧
          g = ItemGeometry.ofModel ((l.itemAssembler built.atlas palette).drawnModel
            (l.itemSource.fresh id) tintable) built.atlas) ∧
    (∀ t, l.Covered built.atlas t → t ≠ Identifier.missing → l.texture t ≠ none →
      built.atlas.entries.get? t = some (built.atlas.entry t)) := by
  have hatlas : l.buildAtlas l.wantedTextures = .ok built.atlas := by
    obtain ⟨atlas, hatlas, rfl⟩ := build_ok hbuild
    exact hatlas
  refine ⟨fun id t => covered_block hends hatlas, fun id tintable t => covered_item hends hatlas,
    ?_, ?_, fun t hcovered => hcovered.entry⟩
  · intro state m hm
    obtain ⟨block, file, hmem⟩ := mem_states_of_stateModel hends hbuild hm
    exact Assembler.compiled_of_mem_states (a := l.assembler built.atlas) hends.blocks
      (Assembler.faithful_empty _) hmem
  · intro number m hm g hg
    obtain ⟨item, hitem⟩ := plainItem_of_itemModel hends hbuild hm
    obtain ⟨id, hknown, hgeometry⟩ := ItemAssembler.compiled_of_plainItem hitem hg
    exact ⟨id, _, hknown, hgeometry⟩

end Built

/-- The stone of the quarry shows its own texture. -/
theorem faces_covered_quarry :
    quarry.ChainsEnd ∧ ∃ built h',
      quarry.build quarryBlocks quarryItems acceptAll (Handoff.start ()) = (.ok (), built, h') ∧
      ⟨"minecraft", "block/stone"⟩ ∈
        (quarry.blockSource.fresh ⟨"minecraft", "block/stone"⟩).model.faceTextures ∧
      built.atlas.entries.get? ⟨"minecraft", "block/stone"⟩
        = some (built.atlas.entry ⟨"minecraft", "block/stone"⟩) := by
  obtain ⟨built, h', hbuild⟩ := exists_quarry_build
  obtain ⟨hblocks, -, -, -, hown⟩ := faces_covered quarry_chainsEnd hbuild
  have hshown : ⟨"minecraft", "block/stone"⟩ ∈
      (quarry.blockSource.fresh ⟨"minecraft", "block/stone"⟩).model.faceTextures := by
    decide +kernel
  have hfile : (quarry.texture ⟨"minecraft", "block/stone"⟩).isSome = true := by decide +kernel
  refine ⟨quarry_chainsEnd, built, h', hbuild, hshown,
    hown _ (hblocks _ _ hshown) (by decide) ?_⟩
  exact Option.isSome_iff_ne_none.1 hfile

end Library

end VoxelBake
