/-
**Which variant a state takes, and with which models it is drawn.**

A state takes the most specific of the variants whose keys hold for it, the first one in the file
among several.  Which one that is depends on the properties of the state alone, and on the order of
the file only for variants that are equally specific.  The models of the variants, though, are
loaded in the order of the file; a file in another order draws the same states in the same way
exactly if loading models does not change how other models are drawn.

Main definitions:

* `Selects` — **the first most specific member of a list whose condition holds**;
* `Assembler.entryModel` — the model that a variant gives to a state;
* `Assembler.Steady` — loads change nothing about how placements are drawn.

Main results:

* `Assembler.variantFor_eq_some_iff` — sorting and searching find the first most specific variant;
* `Assembler.mem_states_iff` — **which states are assembled, and how**;
* `Assembler.order_irrelevant_iff` — when the order of a file is irrelevant;
* `Assembler.steady_of_endsInTime`, `Assembler.steady_of_loaded` — when loads change nothing;
* `Assembler.states_of_variants` — **which variant a state takes**, and what the order of a file has
  to do with it.
-/
import VoxelBake.Proofs.PlacedModels

set_option relaxedAutoImplicit false
set_option autoImplicit false

namespace VoxelBake

open ModelCache

/-! ### The first most specific member -/

section Selection

variable {β γ : Type}

/-- The member of a list that properties select: its condition holds, no member whose condition
holds is more specific, and none before it is as specific. -/
def Selects (condition : β → Condition) (props : Properties) (l : List β) (b : β) : Prop :=
  ∃ before after, l = before ++ b :: after ∧ (condition b).holds props = true ∧
    (∀ d ∈ l, (condition d).holds props = true →
      (condition d).specificity ≤ (condition b).specificity) ∧
    ∀ d ∈ before, (condition d).holds props = true →
      (condition d).specificity < (condition b).specificity

/-- The one member whose condition holds that is more specific than all others. -/
def SelectsUniquely (condition : β → Condition) (props : Properties) (l : List β) (b : β) : Prop :=
  ∃ before after, l = before ++ b :: after ∧ (condition b).holds props = true ∧
    ∀ d ∈ before ++ after, (condition d).holds props = true →
      (condition d).specificity < (condition b).specificity

variable {condition : β → Condition} {props : Properties} {l : List β} {b : β}

/-- What properties select is the first member that is as specific as it. -/
theorem Selects.find?_eq (h : Selects condition props l b) :
    l.find? (fun d => (condition d).holds props
      && (condition d).specificity == (condition b).specificity) = some b := by
  obtain ⟨before, after, hl, hb, -, hbefore⟩ := h
  refine List.find?_eq_some_iff_append.2 ⟨by simp [hb], before, after, hl, ?_⟩
  intro d hd
  cases hholds : (condition d).holds props with
  | false => rfl
  | true =>
      have hlt := hbefore d hd hholds
      simpa using Nat.ne_of_lt hlt

theorem Selects.unique {b' : β} (h : Selects condition props l b)
    (h' : Selects condition props l b') : b' = b := by
  have hfind := h.find?_eq
  have hfind' := h'.find?_eq
  obtain ⟨before, after, hl, hb, hmax, -⟩ := h
  obtain ⟨before', after', hl', hb', hmax', -⟩ := h'
  -- both are as specific as a member can be
  have hsame : (condition b').specificity = (condition b).specificity := by
    refine Nat.le_antisymm (hmax b' (by simp [hl']) hb') (hmax' b (by simp [hl]) hb)
  rw [hsame, hfind] at hfind'
  exact (Option.some.inj hfind').symm

theorem selects_map_iff {f : γ → β} {l : List γ} :
    Selects condition props (l.map f) b ↔
      ∃ e, Selects (fun e => condition (f e)) props l e ∧ b = f e := by
  constructor
  · rintro ⟨before, after, hl, hb, hmax, hbefore⟩
    obtain ⟨l₁, l₂, rfl, rfl, hl₂⟩ := List.map_eq_append_iff.1 hl
    obtain ⟨e, l₂, rfl, rfl, rfl⟩ := List.map_eq_cons_iff.1 hl₂
    refine ⟨e, ⟨l₁, l₂, rfl, hb, ?_, ?_⟩, rfl⟩
    · intro d hd
      exact hmax (f d) (List.mem_map_of_mem hd)
    · intro d hd
      exact hbefore (f d) (List.mem_map_of_mem hd)
  · rintro ⟨e, ⟨before, after, rfl, he, hmax, hbefore⟩, rfl⟩
    refine ⟨before.map f, after.map f, by simp, he, ?_, ?_⟩
    · intro d hd
      obtain ⟨e', he', rfl⟩ := List.mem_map.1 hd
      exact hmax e' he'
    · intro d hd
      obtain ⟨e', he', rfl⟩ := List.mem_map.1 hd
      exact hbefore e' he'

theorem SelectsUniquely.selects (h : SelectsUniquely condition props l b) :
    Selects condition props l b := by
  obtain ⟨before, after, rfl, hb, hothers⟩ := h
  refine ⟨before, after, rfl, hb, ?_, fun d hd => hothers d (List.mem_append_left _ hd)⟩
  intro d hd hholds
  rcases List.mem_append.1 hd with hd | hd
  · exact Nat.le_of_lt (hothers d (List.mem_append_left _ hd) hholds)
  · rcases List.mem_cons.1 hd with rfl | hd
    · exact Nat.le_refl _
    · exact Nat.le_of_lt (hothers d (List.mem_append_right _ hd) hholds)

/-- The order of a list does not matter to the one most specific member. -/
theorem SelectsUniquely.perm {l' : List β} (h : SelectsUniquely condition props l b)
    (hperm : l.Perm l') : SelectsUniquely condition props l' b := by
  obtain ⟨before, after, rfl, hb, hothers⟩ := h
  have hmem : b ∈ l' := hperm.mem_iff.1 (by simp)
  obtain ⟨before', after', rfl⟩ := List.append_of_mem hmem
  have hrest : (before ++ after).Perm (before' ++ after') :=
    (List.perm_middle.symm.trans (hperm.trans List.perm_middle)).cons_inv
  exact ⟨before', after', rfl, hb, fun d hd => hothers d (hrest.mem_iff.2 hd)⟩

theorem selectsUniquely_pair {d : β} (hb : (condition b).holds props = true)
    (hlt : (condition d).specificity < (condition b).specificity) :
    SelectsUniquely condition props [d, b] b := by
  refine ⟨[d], [], rfl, hb, ?_⟩
  intro d' hd' _
  obtain rfl : d' = d := by simpa using hd'
  exact hlt

end Selection

namespace Assembler

/-! ### Sorting and searching -/

section Variants

variable {α : Type} {variants : List (Variant α)} {props : Properties} {v : Variant α}

theorem specificity_trans (u v w : Variant α) :
    decide (v.condition.specificity ≤ u.condition.specificity) = true →
      decide (w.condition.specificity ≤ v.condition.specificity) = true →
      decide (w.condition.specificity ≤ u.condition.specificity) = true := by
  simp only [decide_eq_true_eq]
  exact fun huv hvw => Nat.le_trans hvw huv

theorem specificity_total (v w : Variant α) :
    (decide (w.condition.specificity ≤ v.condition.specificity)
      || decide (v.condition.specificity ≤ w.condition.specificity)) = true := by
  rcases Nat.le_total v.condition.specificity w.condition.specificity with h | h <;> simp [h]

/-- Variants stand by falling number of properties asked about. -/
theorem pairwise_mostSpecificFirst (variants : List (Variant α)) :
    (mostSpecificFirst variants).Pairwise fun v w =>
      w.condition.specificity ≤ v.condition.specificity := by
  have hsorted : (mostSpecificFirst variants).Pairwise fun v w =>
      decide (w.condition.specificity ≤ v.condition.specificity) = true :=
    List.pairwise_mergeSort specificity_trans specificity_total variants
  exact hsorted.imp fun h => of_decide_eq_true h

/-- Among variants that are equally specific, sorting keeps the order of the file. -/
theorem filter_mostSpecificFirst (variants : List (Variant α)) (props : Properties) (n : Nat) :
    (mostSpecificFirst variants).filter
        (fun v => v.condition.holds props && v.condition.specificity == n)
      = variants.filter fun v => v.condition.holds props && v.condition.specificity == n := by
  have hperm : (mostSpecificFirst variants).Perm variants := List.mergeSort_perm ..
  -- what is kept is sorted already, so it is found in the sorted list in the same order
  have hsorted : (variants.filter fun v =>
      v.condition.holds props && v.condition.specificity == n).Pairwise fun v w =>
        decide (w.condition.specificity ≤ v.condition.specificity) = true := by
    refine List.pairwise_filter.2 (List.pairwise_of_forall fun v w hv hw => ?_)
    simp only [Bool.and_eq_true, beq_iff_eq] at hv hw
    simp [hv.2, hw.2]
  have hsub := (List.sublist_mergeSort specificity_trans specificity_total hsorted
    List.filter_sublist).filter fun v => v.condition.holds props && v.condition.specificity == n
  rw [List.filter_filter] at hsub
  simp only [Bool.and_self] at hsub
  exact (hsub.eq_of_length (hperm.filter _).length_eq.symm).symm

theorem selects_of_variantFor (h : variantFor variants props = some v) :
    Selects Variant.condition props variants v := by
  obtain ⟨hv, before, after, hsplit, hbefore⟩ := List.find?_eq_some_iff_append.1 h
  have hperm : (mostSpecificFirst variants).Perm variants := List.mergeSort_perm ..
  have hmax : ∀ w ∈ variants, w.condition.holds props = true →
      w.condition.specificity ≤ v.condition.specificity := by
    intro w hw hholds
    have hw' : w ∈ before ++ v :: after := hsplit ▸ hperm.mem_iff.2 hw
    have hsorted := pairwise_mostSpecificFirst variants
    rw [hsplit, List.pairwise_append] at hsorted
    rcases List.mem_append.1 hw' with hw' | hw'
    · have := hbefore w hw'
      rw [hholds] at this
      cases this
    · rcases List.mem_cons.1 hw' with rfl | hw'
      · exact Nat.le_refl _
      · exact (List.pairwise_cons.1 hsorted.2.1).1 w hw'
  -- the first one that is as specific, in the sorted list and so in the file
  have hfind : variants.find? (fun w => w.condition.holds props
      && w.condition.specificity == v.condition.specificity) = some v := by
    rw [← List.head?_filter, ← filter_mostSpecificFirst, List.head?_filter]
    refine List.find?_eq_some_iff_append.2 ⟨by simp [hv], before, after, hsplit, ?_⟩
    intro w hw
    have := hbefore w hw
    simp only [Bool.not_eq_true'] at this
    simp [this]
  obtain ⟨-, before', after', hsplit', hbefore'⟩ := List.find?_eq_some_iff_append.1 hfind
  refine ⟨before', after', hsplit', hv, hmax, ?_⟩
  intro w hw hholds
  have hne := hbefore' w hw
  rw [hholds] at hne
  have hle := hmax w (hsplit' ▸ List.mem_append_left _ hw) hholds
  exact Nat.lt_of_le_of_ne hle (by simpa using hne)

theorem variantFor_eq_none_iff :
    variantFor variants props = none ↔ ∀ v ∈ variants, ¬ v.condition.holds props = true := by
  simp [variantFor, mostSpecificFirst]

/-- **Sorting and searching find the first most specific variant.** -/
theorem variantFor_eq_some_iff :
    variantFor variants props = some v ↔ Selects Variant.condition props variants v := by
  refine ⟨selects_of_variantFor, fun h => ?_⟩
  cases hfor : variantFor variants props with
  | some w => rw [h.unique (selects_of_variantFor hfor)]
  | none =>
      obtain ⟨before, after, hl, hv, -⟩ := h
      exact absurd hv (variantFor_eq_none_iff.1 hfor v (by simp [hl]))

theorem mem_variantStates_iff {palette : BlockPalette}
    {block : Identifier} {shaped : Shaped α} :
    shaped ∈ variantStates variants palette block ↔
      shaped.state ∈ palette.stateIds block ∧ ∃ props v,
        palette.properties shaped.state = some props ∧ variantFor variants props = some v ∧
        shaped = ⟨shaped.state, v.geometries, v.particle⟩ := by
  simp only [variantStates, List.mem_filterMap, Option.bind_eq_bind, Option.bind_eq_some_iff]
  constructor
  · rintro ⟨s, hs, props, hprops, v, hv, hshaped⟩
    cases hshaped
    exact ⟨hs, props, v, hprops, hv, rfl⟩
  · rintro ⟨hs, props, v, hprops, hv, hshaped⟩
    exact ⟨shaped.state, hs, props, hprops, v, hv, congrArg some hshaped.symm⟩

end Variants

/-! ### States of a block -/

variable {α : Type} [Scalar α] [Trig α] {a : Assembler α} {c : BlockCaches α}

/-- The model that a variant gives to a state of a block, drawn with the models of a memory: the
placements in order without those whose model is not known, and the particles of the last one. -/
def entryModel (a : Assembler α) (memory : ModelCache α) (palette : BlockPalette)
    (block : Identifier) (e : String × List Placement) : StateModel α :=
  let placed := e.2.filterMap (a.drawn memory)
  { geometries := placed.map fun p => ⟨[p.geometry], p.weight⟩
    renderType := palette.renderType block
    offsetType := palette.offsetType block
    particle := lastParticle placed }

/-- The condition in the key of a variant. -/
def keyCondition (e : String × List Placement) : Condition := Condition.ofKey e.1

/-- A variant of a file, drawn with the models of a memory. -/
def entryVariant (a : Assembler α) (memory : ModelCache α) (e : String × List Placement) :
    Variant α :=
  Variant.ofPlaced e.1 (e.2.filterMap (a.drawn memory))

/-- **Which states are assembled, and how.** -/
theorem mem_states_iff (h : c.Sound a) {palette : BlockPalette} {block : Identifier}
    {variants : List (String × List Placement)} {s : Nat} {m : StateModel α} :
    (s, m) ∈ (a.states palette block (.variants variants) c).1 ↔
      s ∈ palette.stateIds block ∧ ∃ props e, palette.properties s = some props ∧
        Selects keyCondition props variants e ∧
        m = a.entryModel (a.memoryAfter c.models variants) palette block e := by
  have hcompiled : (a.compileVariants variants c).1
      = variants.map (a.entryVariant (a.memoryAfter c.models variants)) :=
    (compileVariants_spec h variants).1
  rw [states_eq, shapedStates_variants, hcompiled, List.mem_map]
  constructor
  · rintro ⟨shaped, hmem, heq⟩
    obtain ⟨hs, props, v, hprops, hv, hshaped⟩ := mem_variantStates_iff.1 hmem
    obtain ⟨e, he, rfl⟩ := selects_map_iff.1 (variantFor_eq_some_iff.1 hv)
    rw [hshaped] at heq
    cases heq
    exact ⟨hs, props, e, hprops, he, rfl⟩
  · rintro ⟨hs, props, e, hprops, he, rfl⟩
    have hv : variantFor (variants.map (a.entryVariant (a.memoryAfter c.models variants))) props
        = some (a.entryVariant (a.memoryAfter c.models variants) e) :=
      variantFor_eq_some_iff.2 (selects_map_iff.2 ⟨e, he, rfl⟩)
    exact ⟨⟨s, _, _⟩, mem_variantStates_iff.2 ⟨hs, props, _, hprops, hv, rfl⟩, rfl⟩

/-- A state is assembled if its properties are known and some key holds for it. -/
theorem assembled_iff (h : c.Sound a) {palette : BlockPalette} {block : Identifier}
    {variants : List (String × List Placement)} {s : Nat} :
    (∃ m, (s, m) ∈ (a.states palette block (.variants variants) c).1) ↔
      s ∈ palette.stateIds block ∧ ∃ props, palette.properties s = some props ∧
        ∃ e ∈ variants, (keyCondition e).holds props = true := by
  constructor
  · rintro ⟨m, hm⟩
    obtain ⟨hs, props, e, hprops, ⟨before, after, hl, he, -⟩, -⟩ := (mem_states_iff h).1 hm
    exact ⟨hs, props, hprops, e, by simp [hl], he⟩
  · rintro ⟨hs, props, hprops, e, he, hholds⟩
    cases hfor : variantFor (variants.map (a.entryVariant c.models)) props with
    | none => exact absurd hholds (variantFor_eq_none_iff.1 hfor _ (List.mem_map_of_mem he))
    | some v =>
        obtain ⟨e', he', -⟩ := selects_map_iff.1 (selects_of_variantFor hfor)
        exact ⟨_, (mem_states_iff h).2 ⟨hs, props, e', hprops, he', rfl⟩⟩

/-- A state with one most specific variant takes that variant, in a file of any order. -/
theorem mem_states_of_uniquely (h : c.Sound a) {palette : BlockPalette} {block : Identifier}
    {variants variants' : List (String × List Placement)} {e : String × List Placement} {s : Nat}
    {props : Properties} {m : StateModel α} (hprops : palette.properties s = some props)
    (he : SelectsUniquely keyCondition props variants e) (hperm : variants.Perm variants') :
    (s, m) ∈ (a.states palette block (.variants variants') c).1 ↔
      s ∈ palette.stateIds block ∧
        m = a.entryModel (a.memoryAfter c.models variants') palette block e := by
  have hsel := (he.perm hperm).selects
  rw [mem_states_iff h]
  refine and_congr_right fun _ => ?_
  constructor
  · rintro ⟨props', e', hprops', he', hm⟩
    obtain rfl := Option.some.inj (hprops.symm.trans hprops')
    obtain rfl := hsel.unique he'
    exact hm
  · intro hm
    exact ⟨props, e, hprops, hsel, hm⟩

/-- Two palettes say the same about a state of a block. -/
structure SameState (palette palette' : BlockPalette) (block : Identifier) (s : Nat) : Prop where
  listed : s ∈ palette.stateIds block ↔ s ∈ palette'.stateIds block
  properties : palette.properties s = palette'.properties s
  renderType : palette.renderType block = palette'.renderType block
  offsetType : palette.offsetType block = palette'.offsetType block

/-- Other states have no say in how a state is drawn. -/
theorem mem_states_congr (h : c.Sound a) {palette palette' : BlockPalette} {block : Identifier}
    {variants : List (String × List Placement)} {s : Nat} {m : StateModel α}
    (hsame : SameState palette palette' block s) :
    (s, m) ∈ (a.states palette block (.variants variants) c).1 ↔
      (s, m) ∈ (a.states palette' block (.variants variants) c).1 := by
  rw [mem_states_iff h, mem_states_iff h, hsame.listed, hsame.properties]
  simp only [entryModel, hsame.renderType, hsame.offsetType]

/-! ### Files in another order -/

/-- Loads of known models change nothing about how placements are drawn. -/
def Steady (a : Assembler α) (memory : ModelCache α) : Prop :=
  ∀ ids : List Identifier, (∀ id ∈ ids, a.contains id = true) → ∀ p : Placement,
    a.drawn (loadAll a.read memory ids) p = a.drawn memory p

/-- If loads change nothing, a file leaves models behind that draw as before. -/
theorem Steady.entryModel_memoryAfter {memory : ModelCache α} (h : a.Steady memory)
    (variants : List (String × List Placement)) (palette : BlockPalette) (block : Identifier)
    (e : String × List Placement) :
    a.entryModel (a.memoryAfter memory variants) palette block e
      = a.entryModel memory palette block e := by
  have hdrawn : a.drawn (a.memoryAfter memory variants) = a.drawn memory :=
    funext (h _ fun _ => contains_of_mem_modelIds)
  rw [entryModel, entryModel, hdrawn]

/-- The model of a state whose variant has one placement tells how that placement is drawn. -/
theorem drawn_of_entryModel {memory memory' : ModelCache α} {palette : BlockPalette}
    {block : Identifier} {key : String} {p : Placement}
    (h : a.entryModel memory palette block (key, [p])
      = a.entryModel memory' palette block (key, [p])) : a.drawn memory p = a.drawn memory' p := by
  cases hid : a.modelId p.model with
  | none => simp only [drawn, hid, Option.map_none]
  | some id =>
      simp only [entryModel, List.filterMap_cons, List.filterMap_nil, drawn, hid, Option.map_some,
        List.map_cons, List.map_nil, lastParticle, List.getLast?_singleton, Option.getD_some,
        StateModel.mk.injEq, List.cons.injEq, StateGeometry.mk.injEq, and_true, true_and] at h ⊢
      rw [h.1, h.2]

/-- A placement that stands alone in the last variant is drawn after the loads of the others. -/
theorem drawn_memoryAfter_last (memory : ModelCache α) (e : String × List Placement) (key : String)
    (p : Placement) :
    a.drawn (a.memoryAfter memory [e, (key, [p])]) p
      = a.drawn (loadAll a.read memory (a.modelIds e.2)) p := by
  rw [memoryAfter_cons, memoryAfter_cons, modelIds_singleton]
  exact drawn_self _ p

/-- A placement that stands alone in the first variant is drawn before any load. -/
theorem drawn_memoryAfter_first (memory : ModelCache α) (e : String × List Placement)
    (key : String) (p : Placement) :
    a.drawn (a.memoryAfter memory [(key, [p]), e]) p = a.drawn memory p := by
  rw [memoryAfter_cons, modelIds_singleton, memoryAfter, (remembers_self _ p).drawn_loadAll]
  exact drawn_self memory p

/-- A palette with one state of every block. -/
def onePalette (block : Identifier) (props : Properties) : BlockPalette where
  blocks := [block]
  stateIds _ := [0]
  properties _ := some props
  renderType _ := .solid
  offsetType _ := .none

/-- **When the order of the variants of a file is irrelevant** to states with one most specific
variant. -/
theorem order_irrelevant_iff (h : c.Sound a) :
    (∀ (palette : BlockPalette) (block : Identifier)
        (variants variants' : List (String × List Placement)) (s : Nat) (props : Properties)
        (e : String × List Placement) (m : StateModel α),
      variants.Perm variants' → palette.properties s = some props →
      SelectsUniquely keyCondition props variants e →
        ((s, m) ∈ (a.states palette block (.variants variants) c).1 ↔
          (s, m) ∈ (a.states palette block (.variants variants') c).1)) ↔
      a.Steady c.models := by
  constructor
  · intro hall ids hids p
    -- the models to be loaded stand in a less specific variant, before or after the placement
    let e₁ : String × List Placement := ("", ids.map plainPlacement)
    let e₂ : String × List Placement := ("a=1", [p])
    let props : Properties := Table.ofList [("a", "1")]
    let palette := onePalette Identifier.missing props
    have hholds : (Condition.ofKey "a=1").holds (Table.ofList [("a", "1")]) = true := by
      decide +kernel
    have hlt : (Condition.ofKey "").specificity < (Condition.ofKey "a=1").specificity := by
      decide +kernel
    have he : SelectsUniquely keyCondition props [e₁, e₂] e₂ := selectsUniquely_pair hholds hlt
    have hperm : [e₁, e₂].Perm [e₂, e₁] := List.Perm.swap _ _ _
    have hlisted : 0 ∈ palette.stateIds Identifier.missing := List.mem_singleton.2 rfl
    have hmem := (hall palette Identifier.missing _ _ 0 props e₂ _ hperm rfl he).1
      ((mem_states_of_uniquely h rfl he (List.Perm.refl _)).2 ⟨hlisted, rfl⟩)
    have hsame := ((mem_states_of_uniquely h rfl he hperm).1 hmem).2
    calc a.drawn (loadAll a.read c.models ids) p
        = a.drawn (loadAll a.read c.models (a.modelIds e₁.2)) p := by
          rw [modelIds_map_plainPlacement hids]
      _ = a.drawn (a.memoryAfter c.models [e₁, e₂]) p := (drawn_memoryAfter_last _ e₁ _ p).symm
      _ = a.drawn (a.memoryAfter c.models [e₂, e₁]) p := drawn_of_entryModel hsame
      _ = a.drawn c.models p := drawn_memoryAfter_first _ e₁ _ p
  · intro hsteady palette block variants variants' s props e m hperm hprops he
    rw [mem_states_of_uniquely h hprops he (List.Perm.refl _),
      mem_states_of_uniquely h hprops he hperm, hsteady.entryModel_memoryAfter,
      hsteady.entryModel_memoryAfter]

/-! ### When loads change nothing -/

/-- If the chain of every known model ends in time, loads change nothing. -/
theorem steady_of_endsInTime {memory : ModelCache α} (hexp : Explained a.read memory)
    (hends : ∀ id, a.contains id = true → EndsInTime a.read id) : a.Steady memory := by
  intro ids _ p
  cases hid : a.modelId p.model with
  | none => simp only [drawn, hid, Option.map_none]
  | some id =>
      have hend := hends id (contains_modelId hid)
      simp only [drawn, hid, Option.map_some, hexp.fst_load hend,
        (hexp.loadAll ids).fst_load hend]

/-- If every known model was loaded before, loads change nothing, however the chains end. -/
theorem steady_of_loaded {memory : ModelCache α}
    (hloaded : ∀ id, a.contains id = true → ∃ r, Resolves a.read memory 0 id r) :
    a.Steady memory := by
  intro ids _ p
  have hp : a.Remembers memory p := fun id hid => hloaded id (contains_modelId hid)
  exact hp.drawn_loadAll ids

/-! ### States of variants -/

/-- **Which variant a state takes.**  A state of a block is assembled if its properties are known
and some key holds for it.  It takes the first most specific of the variants whose keys hold, and no
other state has a say in it; a state with one most specific variant takes that one in a file of any
order.  That it also looks the same in a file of any order is true of all files exactly if loads of
known models change nothing about how placements are drawn.  That is so if the chains of all known
models end in time, and if all known models were loaded before. -/
theorem states_of_variants (a : Assembler α) {c : BlockCaches α} (h : c.Sound a) :
    (∀ (palette : BlockPalette) (block : Identifier) (variants : List (String × List Placement))
        (s : Nat),
      ((∃ m, (s, m) ∈ (a.states palette block (.variants variants) c).1) ↔
        s ∈ palette.stateIds block ∧ ∃ props, palette.properties s = some props ∧
          ∃ e ∈ variants, (keyCondition e).holds props = true) ∧
      (∀ m, (s, m) ∈ (a.states palette block (.variants variants) c).1 ↔
        s ∈ palette.stateIds block ∧ ∃ props e, palette.properties s = some props ∧
          Selects keyCondition props variants e ∧
          m = a.entryModel (a.memoryAfter c.models variants) palette block e) ∧
      (∀ palette', SameState palette palette' block s → ∀ m,
        ((s, m) ∈ (a.states palette block (.variants variants) c).1 ↔
          (s, m) ∈ (a.states palette' block (.variants variants) c).1)) ∧
      ∀ props e variants', palette.properties s = some props →
        SelectsUniquely keyCondition props variants e → variants.Perm variants' → ∀ m,
          ((s, m) ∈ (a.states palette block (.variants variants') c).1 ↔
            s ∈ palette.stateIds block ∧
              m = a.entryModel (a.memoryAfter c.models variants') palette block e)) ∧
    ((∀ (palette : BlockPalette) (block : Identifier)
        (variants variants' : List (String × List Placement)) (s : Nat) (props : Properties)
        (e : String × List Placement) (m : StateModel α),
      variants.Perm variants' → palette.properties s = some props →
      SelectsUniquely keyCondition props variants e →
        ((s, m) ∈ (a.states palette block (.variants variants) c).1 ↔
          (s, m) ∈ (a.states palette block (.variants variants') c).1)) ↔
      a.Steady c.models) ∧
    (Explained a.read c.models → (∀ id, a.contains id = true → EndsInTime a.read id) →
      a.Steady c.models) ∧
    ((∀ id, a.contains id = true → ∃ r, Resolves a.read c.models 0 id r) →
      a.Steady c.models) := by
  refine ⟨fun palette block variants s => ⟨assembled_iff h, fun m => mem_states_iff h, ?_, ?_⟩,
    order_irrelevant_iff h, steady_of_endsInTime, steady_of_loaded⟩
  · intro palette' hsame m
    exact mem_states_congr h hsame
  · intro props e variants' hprops he hperm m
    exact mem_states_of_uniquely h hprops he hperm

/-- Two model files that are each other's parents; one of them names a texture for particles. -/
def lampModels : ModelSource where
  tables := [Table.ofList [(⟨"minecraft", "a"⟩, "a.json"), (⟨"minecraft", "b"⟩, "b.json")]]
  source := AssetSource.ofFiles
    [("a.json", .text "\x7b\"parent\": \"b\", \"textures\": \x7b\"particle\": \"stone\"\x7d\x7d"),
      ("b.json", .text "\x7b\"parent\": \"a\"\x7d")]

/-- An assembler of their models, without textures. -/
def lampAssembler : Assembler Float32 := ⟨lampModels.contains, lampModels.read, Atlas.empty⟩

/-- A lamp with one state, which is lit. -/
def lampPalette : BlockPalette :=
  onePalette ⟨"minecraft", "lamp"⟩ (Table.ofList [("lit", "true")])

/-- The variant of all lamps. -/
def anyLamp : String × List Placement := ("", [plainPlacement ⟨"minecraft", "b"⟩])

/-- The variant of lamps that are lit. -/
def litLamp : String × List Placement := ("lit=true", [plainPlacement ⟨"minecraft", "a"⟩])

theorem states_of_variants_lamp :
    BlockCaches.empty.Sound lampAssembler ∧
    ∃ m, (0, m) ∈ (lampAssembler.states lampPalette ⟨"minecraft", "lamp"⟩
      (.variants [anyLamp, litLamp]) BlockCaches.empty).1 := by
  have hsound := BlockCaches.sound_empty lampAssembler
  have hholds : (keyCondition litLamp).holds (Table.ofList [("lit", "true")]) = true := by
    decide +kernel
  exact ⟨hsound, ((states_of_variants lampAssembler hsound).1 lampPalette ⟨"minecraft", "lamp"⟩
    [anyLamp, litLamp] 0).1.2 ⟨List.mem_singleton.2 rfl, _, rfl, litLamp, by simp, hholds⟩⟩

/-- A lit lamp has one most specific variant, and the chain of its model never ends.  With a variant
of the parent before it the model keeps its texture for particles; with that variant after it the
model is empty. -/
theorem lamp_order_matters :
    [anyLamp, litLamp].Perm [litLamp, anyLamp] ∧
    SelectsUniquely keyCondition (Table.ofList [("lit", "true")]) [anyLamp, litLamp] litLamp ∧
    ∃ m m', m.particle = ⟨"minecraft", "stone"⟩ ∧ m'.particle = Identifier.missing ∧
      (0, m) ∈ (lampAssembler.states lampPalette ⟨"minecraft", "lamp"⟩
        (.variants [anyLamp, litLamp]) BlockCaches.empty).1 ∧
      (0, m') ∈ (lampAssembler.states lampPalette ⟨"minecraft", "lamp"⟩
        (.variants [litLamp, anyLamp]) BlockCaches.empty).1 ∧
      (0, m) ∉ (lampAssembler.states lampPalette ⟨"minecraft", "lamp"⟩
        (.variants [litLamp, anyLamp]) BlockCaches.empty).1 := by
  have hsound := BlockCaches.sound_empty lampAssembler
  have hperm : [anyLamp, litLamp].Perm [litLamp, anyLamp] := List.Perm.swap _ _ _
  have huniq : SelectsUniquely keyCondition (Table.ofList [("lit", "true")]) [anyLamp, litLamp]
      litLamp := selectsUniquely_pair (by decide +kernel) (by decide +kernel)
  have hfirst : (lampAssembler.entryModel (lampAssembler.memoryAfter ∅ [anyLamp, litLamp])
      lampPalette ⟨"minecraft", "lamp"⟩ litLamp).particle = ⟨"minecraft", "stone"⟩ := by
    decide +kernel
  have hsecond : (lampAssembler.entryModel (lampAssembler.memoryAfter ∅ [litLamp, anyLamp])
      lampPalette ⟨"minecraft", "lamp"⟩ litLamp).particle = Identifier.missing := by
    decide +kernel
  have hlisted : 0 ∈ lampPalette.stateIds ⟨"minecraft", "lamp"⟩ := List.mem_singleton.2 rfl
  refine ⟨hperm, huniq, _, _, hfirst, hsecond,
    (mem_states_of_uniquely hsound rfl huniq (List.Perm.refl _)).2 ⟨hlisted, rfl⟩,
    (mem_states_of_uniquely hsound rfl huniq hperm).2 ⟨hlisted, rfl⟩, ?_⟩
  intro hmem
  have hsame := congrArg StateModel.particle
    ((mem_states_of_uniquely hsound rfl huniq hperm).1 hmem).2
  have hdiffer : (⟨"minecraft", "stone"⟩ : Identifier) ≠ Identifier.missing := by decide
  exact hdiffer (hfirst.symm.trans (hsame.trans hsecond))

end Assembler

end VoxelBake
