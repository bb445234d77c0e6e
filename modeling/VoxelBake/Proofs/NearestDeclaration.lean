/-
**Of several declarations on a chain of parents the nearest one counts.**

A model inherits from its parent, which inherits from its own.  What comes out of a chain that ends
in time is read off the files of the chain one property at a time: a slot, the boxes and the
transform of a position are those of the first file, counted from the model upwards, that declares
them; rules are those of the model itself; and the kind is carried down from the end of the chain
and changes at files with boxes and at the link that counts as cut out of its texture.  Transforms
that cannot be read are not declared, and since no name occurs twice in a document, what stands
under the name of a position is all that a file says about it.

Main definitions:

* `Json.Value.Tidy` — a document in which no object has a name twice;
* `ModelDocument.transform?`, `ModelDocument.written?` — what a file says about a position, as read
  and as written;
* `ModelCache.ownDocument`, `ModelCache.nearest` — the file of a link, and the nearest declaration;
* `ModelCache.kindAlong` — **how the kind is carried down a chain**.

Main results:

* `Json.tidy_read` — documents that were read are tidy;
* `ModelDocument.transform?_eq_written?` — unreadable transforms are not declared;
* `ModelCache.fresh_eq_layers` — a chain is folded over the end of its way up;
* `ModelSource.nearest_declaration_wins` — **the nearest declaration counts**.
-/
import VoxelBake.Proofs.Ancestry
import VoxelBake.Proofs.TextureCoverage

set_option relaxedAutoImplicit false
set_option autoImplicit false

namespace VoxelBake

/-! ### Names in a document -/

namespace Json

/-- No object of a document has a name twice. -/
inductive Value.Tidy : Value → Prop
  | null : Tidy .null
  | bool (b : Bool) : Tidy (.bool b)
  | number (n : Number) : Tidy (.number n)
  | text (s : String) : Tidy (.text s)
  | array {items : List Value} : (∀ v ∈ items, v.Tidy) → Tidy (.array items)
  | object {members : List (String × Value)} :
      (members.map Prod.fst).Nodup → (∀ m ∈ members, m.2.Tidy) → Tidy (.object members)

namespace Raw

mutual

theorem tidy_valueBelow {depth : Nat} {v : Value} :
    ∀ {r : Raw}, r.valueBelow depth = some v → v.Tidy
  | .null, h => by
      cases h
      exact .null
  | .bool b, h => by
      cases h
      exact .bool b
  | .numeral n, h => by
      simp only [valueBelow, Option.map_eq_some_iff] at h
      obtain ⟨x, -, rfl⟩ := h
      exact .number x
  | .text ps, h => by
      simp only [valueBelow, Option.map_eq_some_iff] at h
      obtain ⟨s, -, rfl⟩ := h
      exact .text s
  | .array items, h => by
      cases depth with
      | zero => cases h
      | succ depth =>
          simp only [valueBelow, Option.map_eq_some_iff] at h
          obtain ⟨vs, hvs, rfl⟩ := h
          exact .array (tidy_itemsBelow hvs)
  | .object members, h => by
      cases depth with
      | zero => cases h
      | succ depth =>
          simp only [valueBelow, Option.map_eq_some_iff] at h
          obtain ⟨ms, hms, rfl⟩ := h
          refine .object (Table.ofList ms).nodup_keys fun m hm => ?_
          -- every member of the table was written
          have hm' := Table.get?_eq_some_iff.2 hm
          rw [Table.get?_ofList] at hm'
          obtain ⟨l₁, l₂, hl, -⟩ := List.lookup_eq_some_iff.1 hm'
          exact tidy_membersBelow hms m (List.mem_reverse.1 (hl ▸ by simp))

theorem tidy_itemsBelow {depth : Nat} {vs : List Value} :
    ∀ {rs : List Raw}, itemsBelow depth rs = some vs → ∀ v ∈ vs, v.Tidy
  | [], h => by
      cases h
      simp
  | r :: rs, h => by
      simp only [itemsBelow, Option.bind_eq_bind, Option.bind_eq_some_iff] at h
      obtain ⟨v, hv, vs, hvs, h⟩ := h
      cases h
      intro w hw
      rcases List.mem_cons.1 hw with rfl | hw
      · exact tidy_valueBelow hv
      · exact tidy_itemsBelow hvs w hw

theorem tidy_membersBelow {depth : Nat} {vs : List (String × Value)} :
    ∀ {rs : List (List Piece × Raw)}, membersBelow depth rs = some vs → ∀ m ∈ vs, m.2.Tidy
  | [], h => by
      cases h
      simp
  | (name, r) :: rs, h => by
      simp only [membersBelow, Option.bind_eq_bind, Option.bind_eq_some_iff] at h
      obtain ⟨s, -, v, hv, vs, hvs, h⟩ := h
      cases h
      intro m hm
      rcases List.mem_cons.1 hm with rfl | hm
      · exact tidy_valueBelow hv
      · exact tidy_membersBelow hvs m hm

end

end Raw

/-- **Documents that were read are tidy.** -/
theorem tidy_read {s : String} {v : Value} (h : read s = some v) : v.Tidy := by
  obtain ⟨r, -, hr⟩ := Option.bind_eq_some_iff.1 h
  exact Raw.tidy_valueBelow hr

/-- The fields of a tidy document are tidy. -/
theorem Value.Tidy.of_lookup {v w : Value} {names : List String} {r : Record} {name : String}
    (h : v.Tidy) (hr : Record.ofValue? names v = some r) (hw : r.lookup name = some w) :
    w.Tidy := by
  obtain ⟨l₁, l₂, hl, -⟩ := List.lookup_eq_some_iff.1 hw
  have hmem : (name, w) ∈ r := hl ▸ by simp
  cases h with
  | null | bool | number | text => cases hr
  | array hitems =>
      simp only [Record.ofValue?] at hr
      split at hr
      · cases hr
        exact hitems w (List.of_mem_zip hmem).2
      · cases hr
  | object _ hmembers =>
      cases hr
      exact hmembers _ hmem

end Json

/-! ### Transforms as written -/

theorem DisplayPosition.ofName?_eq_some_iff {s : String} {p : DisplayPosition} :
    ofName? s = some p ↔ s = p.name := by
  constructor
  · intro h
    have hname := List.find?_some h
    simpa using (of_decide_eq_true hname).symm
  · rintro rfl
    cases p <;> decide

namespace ModelDocument

open Json

/-- What a file says about a position. -/
def transform? {α : Type} (d : ModelDocument α) (p : DisplayPosition) :
    Option (DisplayTransform α) :=
  d.display.reverse.lookup p

/-- What a document says about a position: the value under its name among the display transforms,
if it is a valid one. -/
def written? (v : Value) (p : DisplayPosition) : Option (DisplayTransform Float32) := do
  let r ← Record.ofValue? ["parent", "textures", "elements", "display", "overrides"] v
  match ← r.lookup "display" with
  | .object members => (members.lookup p.name).bind readTransform
  | _ => none

/-- Of the members of an object with names of their own, only the one named after a position says
something about it. -/
theorem lookup_filterMap_members {members : List (String × Value)}
    (h : (members.map Prod.fst).Nodup) (p : DisplayPosition) :
    (members.filterMap fun m =>
        (DisplayPosition.ofName? m.1).bind fun q =>
          (readTransform m.2).bind fun t => some (q, t)).reverse.lookup p
      = (members.lookup p.name).bind readTransform := by
  induction members with
  | nil => rfl
  | cons m members ih =>
      obtain ⟨name, v⟩ := m
      obtain ⟨hnew, hrest⟩ := List.nodup_cons.1 h
      by_cases hname : name = p.name
      · subst hname
        have hnone : members.lookup p.name = none := by
          rw [List.lookup_eq_none_iff]
          intro e he
          have hkey : e.1 ∈ members.map Prod.fst := List.mem_map_of_mem he
          simpa using fun hk : p.name = e.1 => hnew (hk ▸ hkey)
        have hp : DisplayPosition.ofName? p.name = some p :=
          DisplayPosition.ofName?_eq_some_iff.2 rfl
        have ih := ih hrest
        rw [hnone, Option.bind_none] at ih
        cases ht : readTransform v <;> simp [hp, ht, List.lookup_append, ih]
      · have hne : (p.name == name) = false := by simpa using fun hk => hname hk.symm
        rw [List.lookup_cons, hne, ← ih hrest]
        cases hq : DisplayPosition.ofName? name with
        | none => simp [hq]
        | some q =>
            have hqp : (p == q) = false := by
              simpa using fun hk : p = q =>
                hname (hk ▸ DisplayPosition.ofName?_eq_some_iff.1 hq)
            cases ht : readTransform v <;>
              simp [hq, ht, List.lookup_append, List.lookup_cons, hqp]

/-- **What a file says about a position stands under its name, and is a valid transform.**  Other
names and values that cannot be read say nothing. -/
theorem transform?_eq_written? {v : Value} {d : ModelDocument Float32} (hv : v.Tidy)
    (h : ofValue? v = some d) (p : DisplayPosition) : d.transform? p = written? v p := by
  simp only [ofValue?, Option.bind_eq_bind, Option.bind_eq_some_iff] at h
  obtain ⟨r, hr, _, -, _, -, _, -, display, hdisplay, _, -, h⟩ := h
  cases h
  simp only [transform?, written?, hr, Option.bind_eq_bind, Option.bind_some]
  rw [Record.withDefault] at hdisplay
  cases hw : r.lookup "display" with
  | none =>
      rw [hw] at hdisplay
      cases hdisplay
      rfl
  | some w =>
      rw [hw] at hdisplay
      cases hv.of_lookup hr hw with
      | null =>
          cases hdisplay
          rfl
      | bool | number | text | array => cases hdisplay
      | object hnames _ =>
          cases hdisplay
          exact lookup_filterMap_members hnames p

end ModelDocument

/-! ### One file laid over a model -/

section Inheriting

variable {α : Type} [Scalar α] (r : Resolved α) (id : Identifier)
  (file : Option (ModelDocument α))

theorem Model.get?_display_overlay (m : Model α) (d : ModelDocument α) (p : DisplayPosition) :
    (m.overlay d).display.get? p = (d.transform? p).or (m.display.get? p) :=
  Table.get?_foldl_insert d.display m.display p

/-- The kind after one more file: boxes if the file has some, and cut out of the texture if the name
says so and there are no boxes. -/
theorem Resolved.kind_inherit :
    (r.inherit id file).kind =
      let carried := if (file.bind (·.elements)).isSome then .elements else r.kind
      if id = generatedAlias ∧ carried = .elements ∧ (r.inherit id file).model.elements = [] then
        .generated
      else carried := by
  have hcarried : (r.overlay file).kind
      = if (file.bind (·.elements)).isSome then .elements else r.kind := by
    cases file <;> rfl
  simp only [inherit, Model.isEmpty, List.isEmpty_iff, ← hcarried]
  split <;> rfl

/-- The rules after one more file are those of this file. -/
theorem Resolved.overrides_inherit :
    (r.inherit id file).overrides = (file.bind (·.overrides)).getD [] := by
  have hown : (r.overlay file).overrides = (file.bind (·.overrides)).getD [] := by
    cases file <;> rfl
  simp only [inherit]
  split <;> exact hown

end Inheriting

/-! ### The layers of a chain -/

namespace ModelCache

variable {α : Type}

/-- The file of a link of a chain.  A reserved name has none, whatever lies under it. -/
def ownDocument (read : Identifier → Option (ModelDocument α)) (id : Identifier) :
    Option (ModelDocument α) :=
  if (builtinKind id).isSome then none else read id

/-- What the nearest file of a chain declares. -/
def nearest {β : Type} (read : Identifier → Option (ModelDocument α))
    (declared : ModelDocument α → Option β) (chain : List Identifier) : Option β :=
  chain.findSome? fun id => (ownDocument read id).bind declared

theorem nearest_cons {β : Type} (read : Identifier → Option (ModelDocument α))
    (declared : ModelDocument α → Option β) (id : Identifier) (above : List Identifier) :
    nearest read declared (id :: above)
      = ((ownDocument read id).bind declared).or (nearest read declared above) := by
  rw [nearest, List.findSome?_cons]
  cases (ownDocument read id).bind declared <;> rfl

theorem ownDocument_of_parent? {read : Identifier → Option (ModelDocument α)}
    {id parent : Identifier} (h : parent? read id = some parent) :
    ownDocument read id = read id := by
  simp [ownDocument, builtinKind_of_parent? h]

variable [Scalar α] (read : Identifier → Option (ModelDocument α))

/-- The boxes of the nearest file with boxes, an empty list of them included; none without such a
file. -/
def boxesAlong (chain : List Identifier) : List (Element α) :=
  (nearest read (fun d => d.elements.map (·.map Element.ofDocument)) chain).getD []

/-- **How the kind is carried down a chain.**  A file with boxes sets it to boxes, and the link that
counts as cut out of its texture changes boxes to that if there are none at this point, with a file
or without. -/
def kindAlong (kind : ModelKind) : List Identifier → ModelKind
  | [] => kind
  | id :: above =>
      let carried :=
        if ((ownDocument read id).bind (·.elements)).isSome then .elements
        else kindAlong kind above
      if id = generatedAlias ∧ carried = .elements ∧ boxesAlong read (id :: above) = [] then
        .generated
      else carried

/-- The files of a chain laid over each other from its top down, over a model of some kind that says
nothing. -/
def layers (kind : ModelKind) (chain : List Identifier) : Resolved α :=
  chain.foldr (fun id parent => parent.inherit id (ownDocument read id))
    { Resolved.empty with kind := kind }

theorem layers_cons (kind : ModelKind) (id : Identifier) (above : List Identifier) :
    layers read kind (id :: above)
      = (layers read kind above).inherit id (ownDocument read id) := rfl

variable {read}

/-- The end of a way up is a layer like any other, over the kind of a reserved name. -/
theorem topmost_eq_layers (top : Identifier) :
    topmost read top = layers read ((builtinKind top).getD .elements) [top] := by
  cases hb : builtinKind top with
  | none => simp [topmost, layers, ownDocument, hb]; rfl
  | some kind =>
      have hne : top ≠ generatedAlias := by
        rintro rfl
        cases hb
      simp [topmost, layers, ownDocument, hb, Resolved.inherit, Resolved.overlay, hne,
        Resolved.empty]

theorem layDown_eq_layers {id top : Identifier} {below : List Identifier}
    (h : Climb read id below top) :
    layDown read (topmost read top) below
      = layers read ((builtinKind top).getD .elements) (below ++ [top]) := by
  induction h with
  | here id => exact topmost_eq_layers id
  | @up id parent top below hp _ ih =>
      rw [layDown_cons, ih, List.cons_append, layers_cons, ownDocument_of_parent? hp]

/-- **A chain that ends in time gives its layers**, all the way up to its end. -/
theorem fresh_eq_layers {id top : Identifier} {below : List Identifier}
    (h : Climb read id below top) (ht : parent? read top = none) (hn : below.length ≤ maxParents) :
    fresh read id = layers read ((builtinKind top).getD .elements) (below ++ [top]) := by
  rw [fresh_of_climb h ht hn, layDown_eq_layers h]

/-! ### One property at a time -/

section Properties

variable (kind : ModelKind) (chain : List Identifier)

theorem get?_textures_layers (slot : String) :
    (layers read kind chain).model.textures.get? slot = nearest read (·.slot? slot) chain := by
  induction chain with
  | nil => rfl
  | cons id above ih =>
      rw [nearest_cons, ← ih, layers_cons, Resolved.model_inherit]
      cases ownDocument read id with
      | none => rfl
      | some d => exact Model.get?_overlay _ d slot

theorem get?_display_layers (p : DisplayPosition) :
    (layers read kind chain).model.display.get? p = nearest read (·.transform? p) chain := by
  induction chain with
  | nil => rfl
  | cons id above ih =>
      rw [nearest_cons, ← ih, layers_cons, Resolved.model_inherit]
      cases ownDocument read id with
      | none => rfl
      | some d => exact Model.get?_display_overlay _ d p

theorem elements_layers : (layers read kind chain).model.elements = boxesAlong read chain := by
  induction chain with
  | nil => rfl
  | cons id above ih =>
      rw [boxesAlong, nearest_cons, layers_cons, Resolved.model_inherit]
      cases ownDocument read id with
      | none => exact ih
      | some d =>
          cases hboxes : d.elements with
          | none => simpa [Resolved.overlay, Model.overlay, hboxes, boxesAlong] using ih
          | some boxes => simp [Resolved.overlay, Model.overlay, hboxes]

theorem kind_layers : (layers read kind chain).kind = kindAlong read kind chain := by
  induction chain with
  | nil => rfl
  | cons id above ih =>
      rw [kindAlong, ← ih, ← elements_layers kind, layers_cons, Resolved.kind_inherit]

theorem overrides_layers (id : Identifier) (above : List Identifier) :
    (layers read kind (id :: above)).overrides
      = ((ownDocument read id).bind (·.overrides)).getD [] := by
  rw [layers_cons, Resolved.overrides_inherit]

end Properties

end ModelCache

/-! ### Chains of model files -/

namespace ModelSource

open ModelCache

/-- The document under the name of a model, whether or not it is a model file. -/
def document? (s : ModelSource) (id : Identifier) : Option Json.Value :=
  (s.tables.findSome? (·.get? id)).bind s.source.document

/-- What the model file of a link says about a position, as written: nothing for a reserved name and
for a file that cannot be read. -/
def written? (s : ModelSource) (id : Identifier) (p : DisplayPosition) :
    Option (DisplayTransform Float32) :=
  if (ownDocument s.read id).isSome then
    (s.document? id).bind fun v => ModelDocument.written? v p
  else none

theorem transform?_ownDocument (s : ModelSource) (id : Identifier) (p : DisplayPosition) :
    (ownDocument s.read id).bind (·.transform? p) = s.written? id p := by
  rw [written?]
  cases hd : ownDocument s.read id with
  | none => rfl
  | some d =>
      -- what was read stands in a tidy document
      have hread : s.read id = some d := by
        rw [ownDocument] at hd
        split at hd
        · cases hd
        · exact hd
      obtain ⟨v, hv, hfile⟩ := Option.bind_eq_some_iff.1 hread
      obtain ⟨path, -, hdocument⟩ := Option.bind_eq_some_iff.1 hv
      obtain ⟨text, -, htext⟩ := Option.bind_eq_some_iff.1 hdocument
      have hwritten := ModelDocument.transform?_eq_written? (Json.tidy_read htext) hfile p
      have hvalue : s.document? id = some v := hv
      simpa [hvalue] using hwritten

/-- **The nearest declaration counts.**  Let the parents of a model lead in time to one without a
parent: a reserved name, a file that names none, or a file that is missing or cannot be read.  With
nothing remembered, a slot then holds what the nearest file of the chain says that declares it, and
there are no other slots; the boxes are those of the nearest file with boxes; the transform of a
position is that of the nearest file in which a valid one stands under its name; the rules are those
of the model itself; and the kind is carried down from the end of the chain. -/
theorem nearest_declaration_wins (s : ModelSource) {id top : Identifier} {below : List Identifier}
    (hcl : Climb s.read id below top) (ht : parent? s.read top = none)
    (hn : below.length ≤ maxParents) :
    let chain := below ++ [top]
    (∀ slot, (s.fresh id).model.textures.get? slot = nearest s.read (·.slot? slot) chain) ∧
    (s.fresh id).model.elements = boxesAlong s.read chain ∧
    (∀ p, (s.fresh id).model.display.get? p = chain.findSome? fun id => s.written? id p) ∧
    (s.fresh id).overrides = ((ownDocument s.read id).bind (·.overrides)).getD [] ∧
    (s.fresh id).kind = kindAlong s.read ((builtinKind top).getD .elements) chain := by
  intro chain
  have hfresh : s.fresh id = layers s.read ((builtinKind top).getD .elements) chain :=
    fresh_eq_layers hcl ht hn
  obtain ⟨above, hchain⟩ : ∃ above, chain = id :: above := by
    cases hcl with
    | here => exact ⟨[], rfl⟩
    | up _ _ => exact ⟨_, rfl⟩
  simp only [hfresh, ← transform?_ownDocument]
  refine ⟨get?_textures_layers _ chain, elements_layers _ chain, get?_display_layers _ chain, ?_,
    kind_layers _ chain⟩
  rw [hchain]
  exact overrides_layers _ id above

/-- Two model files, the upper one with a parent that has no file.  The lower one writes a transform
that cannot be read. -/
def swordPack : ModelSource where
  tables := [Table.ofList [(⟨"minecraft", "sword"⟩, "s"), (⟨"minecraft", "tool"⟩, "t")]]
  source := AssetSource.ofFiles
    [("s", .text ("\x7b\"parent\":\"tool\",\"textures\":\x7b\"a\":\"iron\"\x7d," ++
        "\"display\":\x7b\"gui\":3\x7d\x7d")),
      ("t", .text ("\x7b\"parent\":\"item/generated\",\"textures\":\x7b\"a\":\"b\"\x7d," ++
        "\"display\":\x7b\"gui\":\x7b\x7d\x7d\x7d"))]

theorem nearest_declaration_wins_sword :
    Climb swordPack.read ⟨"minecraft", "sword"⟩ [⟨"minecraft", "sword"⟩, ⟨"minecraft", "tool"⟩]
      generatedAlias ∧
    parent? swordPack.read generatedAlias = none ∧
    let r := swordPack.fresh ⟨"minecraft", "sword"⟩
    r.model.textures.get? "a" = some (.texture ⟨"minecraft", "iron"⟩) ∧
      r.model.display.get? .gui = swordPack.written? ⟨"minecraft", "tool"⟩ .gui ∧
      (r.model.display.get? .gui).isSome = true ∧ r.kind = .generated := by
  obtain ⟨hsword, htool, htop⟩ : parent? swordPack.read ⟨"minecraft", "sword"⟩
        = some ⟨"minecraft", "tool"⟩ ∧
      parent? swordPack.read ⟨"minecraft", "tool"⟩ = some generatedAlias ∧
      parent? swordPack.read generatedAlias = none := by decide +kernel
  have hcl := Climb.up hsword (Climb.up htool (Climb.here _))
  obtain ⟨hslots, -, hdisplay, -, hkind⟩ :=
    nearest_declaration_wins swordPack hcl htop (by decide)
  -- the nearest valid transform is that of the parent
  obtain ⟨hown, habove⟩ : (swordPack.written? ⟨"minecraft", "sword"⟩ .gui).isNone = true ∧
      (swordPack.written? ⟨"minecraft", "tool"⟩ .gui).isSome = true := by decide +kernel
  have hnearest : (swordPack.fresh ⟨"minecraft", "sword"⟩).model.display.get? .gui
      = swordPack.written? ⟨"minecraft", "tool"⟩ .gui := by
    obtain ⟨t, ht⟩ := Option.isSome_iff_exists.1 habove
    rw [hdisplay, ht]
    simp [Option.isNone_iff_eq_none.1 hown, ht]
  exact ⟨hcl, htop, (hslots _).trans (by decide +kernel), hnearest, hnearest ▸ habove,
    hkind.trans (by decide +kernel)⟩

end ModelSource

end VoxelBake
