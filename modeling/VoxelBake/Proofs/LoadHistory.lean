/-
**What earlier loads change about a load.**

A memory of models starts empty and grows with every load.  For a model whose chain of parents ends
within the bound this is invisible: after any loads whatever, its load gives the fresh model.  For a
chain that is too long or never ends it is not.  A load that gives up remembers an empty model under
one name of the chain, and a load of an ancestor brings the end of the chain within reach, so a
later load may find more than a fresh one does.  What it finds is always the same kind of thing: the
fresh model of some ancestor with the files below laid over it.

Main definitions:

* `ModelCache.loadAll`, `ModelSource.remembered`, `ModelSource.loadAfter` — loads in turn, and a
  load after them;
* `ModelCache.EndsInTime` — the chain of parents ends within the bound;
* `ModelCache.Explained` — **the invariant of a memory**: every remembered model is made from the
  fresh model of a remembered ancestor;
* `ModelCache.Tracks` — the invariant of a memory that was filled from one ancestor downwards.

Main results:

* `ModelCache.endsInTime_iff_walk` — whether a chain ends in time shows in a walk up the parents;
* `ModelCache.Explained.load`, `ModelCache.explained_loadAll` — the invariant holds after any loads;
* `ModelSource.loadAfter_eq_fresh` — **a chain that ends in time gives the fresh model after any
  loads**;
* `ModelCache.exists_loadAfter_iff` — which models a load can give, over all histories;
* `ModelSource.load_order_irrelevant_iff` — **when the order of loads is irrelevant**.
-/
import VoxelBake.Proofs.Ancestry

set_option relaxedAutoImplicit false
set_option autoImplicit false

namespace VoxelBake

/-! ### Loads in turn -/

namespace ModelCache

variable {α : Type} [Scalar α]

/-- What is remembered after loading some models in turn. -/
def loadAll (read : Identifier → Option (ModelDocument α)) (cache : ModelCache α)
    (ids : List Identifier) : ModelCache α :=
  ids.foldl (fun c id => (load read id c).2) cache

/-- What a load gives after some other loads, the first of them with nothing remembered. -/
def loadAfter (read : Identifier → Option (ModelDocument α)) (history : List Identifier)
    (id : Identifier) : Resolved α :=
  (load read id (loadAll read ∅ history)).1

/-- The chain of parents of a model ends within the bound. -/
def EndsInTime (read : Identifier → Option (ModelDocument α)) (id : Identifier) : Prop :=
  ∃ below top, Climb read id below top ∧ parent? read top = none ∧ below.length ≤ maxParents

section Histories

variable {read : Identifier → Option (ModelDocument α)}

theorem loadAll_append (cache : ModelCache α) (ids later : List Identifier) :
    loadAll read cache (ids ++ later) = loadAll read (loadAll read cache ids) later :=
  List.foldl_append

theorem loadAll_concat (cache : ModelCache α) (ids : List Identifier) (id : Identifier) :
    loadAll read cache (ids ++ [id]) = (load read id (loadAll read cache ids)).2 :=
  loadAll_append cache ids [id]

/-- No load changes what is remembered. -/
theorem get?_loadAll_of_eq_some {cache : ModelCache α} {j : Identifier} {r : Resolved α}
    (h : cache.get? j = some r) (ids : List Identifier) :
    (loadAll read cache ids).get? j = some r := by
  induction ids generalizing cache with
  | nil => exact h
  | cons id ids ih => exact ih (get?_load_of_eq_some h id)

theorem EndsInTime.resolves {id : Identifier} (h : EndsInTime read id) (cache : ModelCache α) :
    ∃ r, Resolves read cache maxParents id r := by
  obtain ⟨below, top, hc, ht, hn⟩ := h
  obtain ⟨r, hr⟩ := hc.resolves ht cache
  exact ⟨r, hr.mono hn⟩

/-- A load gives up only on a chain that does not end in time. -/
theorem not_endsInTime {cache : ModelCache α} {id : Identifier}
    (h : ∀ r, ¬ Resolves read cache maxParents id r) : ¬ EndsInTime read id := by
  intro hid
  obtain ⟨r, hr⟩ := hid.resolves cache
  exact h r hr

theorem Resolves.endsInTime {n : Nat} {id : Identifier} {r : Resolved α}
    (h : Resolves read ∅ n id r) (hn : n ≤ maxParents) : EndsInTime read id := by
  obtain ⟨below, top, hc, ht, hle⟩ := h.exists_climb rfl
  exact ⟨below, top, hc, ht, Nat.le_trans hle hn⟩

theorem fresh_of_not_endsInTime {id : Identifier} (h : ¬ EndsInTime read id) :
    fresh read id = Resolved.empty :=
  fresh_of_not_resolves fun _ hr => h (hr.endsInTime (Nat.le_refl _))

/-- A chain that ends in time resolves to the fresh model. -/
theorem EndsInTime.resolves_fresh {id : Identifier} (h : EndsInTime read id) :
    Resolves read ∅ maxParents id (fresh read id) := by
  obtain ⟨r, hr⟩ := h.resolves ∅
  rw [fresh_of_resolves hr]
  exact hr

/-- With nothing remembered the walk up the parents comes to an end exactly on the chains that end
in time. -/
theorem endsInTime_iff_walk {id : Identifier} :
    EndsInTime read id ↔ (Chain.follow (parentStep read ∅) maxParents id).outcome.isOk = true := by
  have hw := walk_computes read ∅ maxParents id
  cases ho : (Chain.follow (parentStep read ∅) maxParents id).outcome with
  | ok a => exact ⟨fun _ => rfl, fun _ => (hw.ok ho).value.endsInTime (Nat.le_refl _)⟩
  | error e =>
      refine ⟨fun h => ?_, fun h => by cases h⟩
      exact absurd h.resolves_fresh (hw.error ho _)

instance (read : Identifier → Option (ModelDocument α)) (id : Identifier) :
    Decidable (EndsInTime read id) :=
  decidable_of_iff _ endsInTime_iff_walk.symm

/-- On a chain that ends in time the files below any ancestor make the fresh model out of that of
the ancestor. -/
theorem EndsInTime.layDown_fresh {id mid : Identifier} {below : List Identifier}
    (h : EndsInTime read id) (hc : Climb read id below mid) :
    layDown read (fresh read mid) below = fresh read id :=
  layDown_fresh_of_resolves hc (Nat.le_refl _) h.resolves_fresh

/-! ### The invariant of a memory -/

/-- A model that the files below a remembered ancestor make out of the fresh model of that
ancestor.  The ancestor may be the model itself. -/
def Explains (read : Identifier → Option (ModelDocument α)) (cache : ModelCache α)
    (id : Identifier) (r : Resolved α) : Prop :=
  ∃ below mid, Climb read id below mid ∧ mid ∉ below ∧ (∃ v, cache.get? mid = some v) ∧
    r = layDown read (fresh read mid) below

/-- Every remembered model is made from the fresh model of a remembered ancestor. -/
def Explained (read : Identifier → Option (ModelDocument α)) (cache : ModelCache α) : Prop :=
  ∀ (id : Identifier) (r : Resolved α), cache.get? id = some r → Explains read cache id r

theorem explained_empty : Explained read ∅ := by
  intro id r h
  cases h

/-- A fresh model that is remembered explains itself. -/
theorem explains_fresh {cache : ModelCache α} {id : Identifier} {v : Resolved α}
    (h : cache.get? id = some v) : Explains read cache id (fresh read id) :=
  ⟨[], id, Climb.here id, List.not_mem_nil, ⟨v, h⟩, rfl⟩

/-- What a name resolves to is found without a memory too, or is made from a remembered ancestor. -/
theorem Explained.resolves {cache : ModelCache α} (h : Explained read cache) {n : Nat}
    {id : Identifier} {r : Resolved α} (hr : Resolves read cache n id r) :
    Resolves read ∅ n id r ∨ Explains read cache id r := by
  induction hr with
  | known hk => exact Or.inr (h _ _ hk)
  | top _ hp => exact Or.inl (.top rfl hp)
  | @child n id parent r hc hp _ ih =>
      rcases ih with hr | ⟨below, mid, hcl, hn, ⟨v, hv⟩, rfl⟩
      · exact Or.inl (.child rfl hp hr)
      · refine Or.inr ⟨id :: below, mid, Climb.up hp hcl, ?_, ⟨v, hv⟩, rfl⟩
        -- `mid` is remembered and `id` is not
        intro hm
        rcases List.mem_cons.1 hm with rfl | hm
        · rw [hc] at hv
          cases hv
        · exact hn hm

/-- Loading one more model keeps the invariant. -/
theorem Explained.load {cache : ModelCache α} (h : Explained read cache) (id : Identifier) :
    Explained read (ModelCache.load read id cache).2 := by
  have grows : ∀ {j : Identifier} {r : Resolved α}, Explains read cache j r →
      Explains read (ModelCache.load read id cache).2 j r := by
    rintro j r ⟨below, mid, hcl, hn, ⟨v, hv⟩, hr⟩
    exact ⟨below, mid, hcl, hn, ⟨v, get?_load_of_eq_some hv id⟩, hr⟩
  rcases load_cases read cache id with hl | ⟨hnot, hload⟩
  · intro j r hj
    rcases h.resolves (hl.entries hj) with hr | hr
    · rw [← fresh_of_resolves hr]
      exact explains_fresh hj
    · exact grows hr
  · intro j r hj
    by_cases hjid : j = id
    · -- the placeholder of a chain that is too long is its fresh model
      subst hjid
      have hr : r = fresh read j := by
        rw [fresh_of_not_endsInTime (not_endsInTime hnot)]
        simpa [hload] using hj.symm
      rw [hr]
      exact explains_fresh hj
    · rw [hload, Table.get?_insert_of_ne _ _ hjid] at hj
      exact grows (h _ _ hj)

theorem Explained.loadAll {cache : ModelCache α} (h : Explained read cache)
    (ids : List Identifier) : Explained read (ModelCache.loadAll read cache ids) := by
  induction ids generalizing cache with
  | nil => exact h
  | cons id ids ih => exact ih (h.load id)

/-- **The invariant holds after any loads.** -/
theorem explained_loadAll (read : Identifier → Option (ModelDocument α))
    (history : List Identifier) :
    Explained read (loadAll read ∅ history) :=
  explained_empty.loadAll history

/-- With the invariant, a chain that ends in time resolves to the fresh model only. -/
theorem Explained.eq_fresh {cache : ModelCache α} (h : Explained read cache) {n : Nat}
    {id : Identifier} {r : Resolved α} (hid : EndsInTime read id)
    (hr : Resolves read cache n id r) : r = fresh read id := by
  rcases h.resolves hr with hr | ⟨below, mid, hcl, -, -, rfl⟩
  · exact hid.resolves_fresh.unique hr
  · exact hid.layDown_fresh hcl

/-- With the invariant, a load of a chain that ends in time gives the fresh model. -/
theorem Explained.fst_load {cache : ModelCache α} (h : Explained read cache) {id : Identifier}
    (hid : EndsInTime read id) : (ModelCache.load read id cache).1 = fresh read id := by
  obtain ⟨r, hr⟩ := hid.resolves cache
  rw [fst_load_of_resolves hr]
  exact h.eq_fresh hid hr

/-! ### Which models a load can give -/

/-- A model that the files below some ancestor make out of the fresh model of that ancestor. -/
def MadeBelow (read : Identifier → Option (ModelDocument α)) (id : Identifier) (r : Resolved α) :
    Prop :=
  ∃ below mid, Climb read id below mid ∧ mid ∉ below ∧ r = layDown read (fresh read mid) below

theorem loadAfter_madeBelow (read : Identifier → Option (ModelDocument α))
    (history : List Identifier) (id : Identifier) :
    MadeBelow read id (loadAfter read history id) := by
  have hexp := explained_loadAll read history
  rcases load_cases read (loadAll read ∅ history) id with hl | ⟨hnot, hload⟩
  · rcases hexp.resolves hl.value with hr | ⟨below, mid, hcl, hn, -, hr⟩
    · exact ⟨[], id, Climb.here id, List.not_mem_nil, (fresh_of_resolves hr).symm⟩
    · exact ⟨below, mid, hcl, hn, hr⟩
  · refine ⟨[], id, Climb.here id, List.not_mem_nil, ?_⟩
    rw [loadAfter, hload, layDown_nil, fresh_of_not_endsInTime (not_endsInTime hnot)]

/-- The invariant of a memory that was filled from one ancestor downwards: every remembered model
below `mid` is made from the fresh model of `mid`. -/
structure Tracks (read : Identifier → Option (ModelDocument α)) (cache : ModelCache α)
    (mid : Identifier) : Prop where
  /-- The invariant of any memory. -/
  explained : Explained read cache
  /-- The ancestor itself resolves to its fresh model. -/
  base : EndsInTime read mid ∨ cache.get? mid = some (fresh read mid)
  /-- So do the models below it. -/
  below : ∀ {id : Identifier} {path : List Identifier} {r : Resolved α}, Climb read id path mid →
    mid ∉ path → cache.get? id = some r → r = layDown read (fresh read mid) path

theorem Tracks.resolves {cache : ModelCache α} {id mid : Identifier} {path : List Identifier}
    (h : Tracks read cache mid) (hcl : Climb read id path mid) :
    mid ∉ path → ∀ {n : Nat} {r : Resolved α}, Resolves read cache n id r →
      r = layDown read (fresh read mid) path := by
  have tracked := @h.below
  have base := h.base
  have explained := h.explained
  clear h
  -- up from `id` to `mid`, where a remembered model ends the way early
  induction hcl with
  | here mid =>
      intro _ n r hr
      rcases base with hm | hm
      · exact explained.eq_fresh hm hr
      · have hk : Resolves read cache n mid (fresh read mid) := .known hm
        exact hk.unique hr
  | @up id parent mid path hp hcl ih =>
      intro hn n r hr
      cases hr with
      | known hk => exact tracked (Climb.up hp hcl) hn hk
      | top _ hp' => rw [hp] at hp'; cases hp'
      | child _ hp' hr' =>
          rw [hp] at hp'
          obtain rfl := Option.some.inj hp'
          rw [layDown_cons, ← ih tracked base (fun hm => hn (List.mem_cons_of_mem _ hm)) hr']

/-- Loading a name that resolves keeps the invariant. -/
theorem Tracks.load {cache : ModelCache α} {id mid : Identifier} {v : Resolved α}
    (h : Tracks read cache mid) (hv : Resolves read cache maxParents id v) :
    Tracks read (ModelCache.load read id cache).2 mid where
  explained := h.explained.load id
  base := h.base.imp_right fun hm => get?_load_of_eq_some hm id
  below hcl hn hj := h.resolves hcl hn ((loaded_of_resolves hv).entries hj)

/-- The invariant holds after the ancestor alone was loaded. -/
theorem Tracks.start (mid : Identifier) :
    Tracks read (ModelCache.load read mid ∅).2 mid := by
  have hexp : Explained read (ModelCache.load read mid ∅).2 := explained_empty.load mid
  by_cases hm : EndsInTime read mid
  · refine ⟨hexp, Or.inl hm, ?_⟩
    intro id path r hcl _ hj
    exact (layDown_fresh_of_resolves hcl (Nat.le_refl _)
      ((loaded_of_resolves hm.resolves_fresh).entries hj)).symm
  · have hl := load_of_not_resolves fun v hv => hm (Resolves.endsInTime hv (Nat.le_refl _))
    have hf := fresh_of_not_endsInTime hm
    refine ⟨hexp, Or.inr (by simp [hl, hf]), ?_⟩
    intro id path r hcl hn hj
    rw [hl, Table.get?_insert] at hj
    split at hj
    · rename_i hid
      subst hid
      obtain rfl := (Climb.here id).unique List.not_mem_nil hcl hn
      rw [layDown_nil, hf]
      exact (Option.some.inj hj).symm
    · cases hj

/-- A model that was just loaded resolves without a hop. -/
theorem resolves_load (read : Identifier → Option (ModelDocument α)) (cache : ModelCache α)
    (id : Identifier) :
    ∃ r, Resolves read (ModelCache.load read id cache).2 0 id r := by
  cases hc : (ModelCache.load read id cache).2.get? id with
  | some r => exact ⟨r, .known hc⟩
  | none =>
      -- only a reserved name is not remembered
      suffices hp : parent? read id = none from ⟨topmost read id, .top hc hp⟩
      rcases load_cases read cache id with hl | ⟨-, hload⟩
      · cases hb : builtinKind id with
        | some kind => exact parent?_of_builtin hb
        | none =>
            rw [hl.kept hb] at hc
            cases hc
      · rw [hload, Table.get?_insert_self] at hc
        cases hc

/-- Loading the models of a way up the parents, the topmost one first, makes each of them from the
fresh model of the topmost one. -/
theorem exists_tracking_history {id mid : Identifier} {path : List Identifier}
    (hcl : Climb read id path mid) :
    mid ∉ path → ∃ history, Tracks read (loadAll read ∅ (history ++ [id])) mid ∧
      loadAfter read history id = layDown read (fresh read mid) path := by
  -- the history of the parent, and then the parent
  induction hcl with
  | here mid => intro _; exact ⟨[], Tracks.start mid, rfl⟩
  | @up id parent mid path hp hcl ih =>
      intro hn
      obtain ⟨history, ht, -⟩ := ih fun hm => hn (List.mem_cons_of_mem _ hm)
      refine ⟨history ++ [parent], ?_⟩
      -- the parent was loaded last, so one hop is enough
      have hid : ∃ v, Resolves read (loadAll read ∅ (history ++ [parent])) 1 id v := by
        cases hc : (loadAll read ∅ (history ++ [parent])).get? id with
        | some v => exact ⟨v, .known hc⟩
        | none =>
            obtain ⟨r, hr⟩ := resolves_load read (loadAll read ∅ history) parent
            rw [← loadAll_concat] at hr
            exact ⟨_, .child hc hp hr⟩
      obtain ⟨v, hv⟩ := hid
      have hv' : Resolves read _ maxParents id v := hv.mono (by decide)
      constructor
      · rw [loadAll_concat]
        exact ht.load hv'
      · rw [loadAfter, fst_load_of_resolves hv']
        exact ht.resolves (Climb.up hp hcl) hn hv

/-- **Which models a load can give**, over all histories. -/
theorem exists_loadAfter_iff {id : Identifier} {r : Resolved α} :
    (∃ history, loadAfter read history id = r) ↔ MadeBelow read id r := by
  constructor
  · rintro ⟨history, rfl⟩
    exact loadAfter_madeBelow read history id
  · rintro ⟨below, mid, hcl, hn, rfl⟩
    obtain ⟨history, -, h⟩ := exists_tracking_history hcl hn
    exact ⟨history, h⟩

/-- The order of loads is irrelevant for one model exactly when its chain ends in time, or when no
way down to it from an ancestor makes anything but the empty model. -/
theorem loadAfter_irrelevant_iff {id : Identifier} :
    (∀ h₁ h₂, loadAfter read h₁ id = loadAfter read h₂ id) ↔
      EndsInTime read id ∨ ∀ below mid, Climb read id below mid → mid ∉ below →
        layDown read (fresh read mid) below = Resolved.empty := by
  constructor
  · intro h
    by_cases hid : EndsInTime read id
    · exact Or.inl hid
    · refine Or.inr fun below mid hcl hn => ?_
      obtain ⟨history, hh⟩ := exists_loadAfter_iff.2 ⟨below, mid, hcl, hn, rfl⟩
      rw [← hh, h history []]
      exact fresh_of_not_endsInTime hid
  · rintro (hid | hall) h₁ h₂
    · obtain ⟨below₁, mid₁, hcl₁, -, hr₁⟩ := loadAfter_madeBelow read h₁ id
      obtain ⟨below₂, mid₂, hcl₂, -, hr₂⟩ := loadAfter_madeBelow read h₂ id
      rw [hr₁, hr₂, hid.layDown_fresh hcl₁, hid.layDown_fresh hcl₂]
    · obtain ⟨below₁, mid₁, hcl₁, hn₁, hr₁⟩ := loadAfter_madeBelow read h₁ id
      obtain ⟨below₂, mid₂, hcl₂, hn₂, hr₂⟩ := loadAfter_madeBelow read h₂ id
      rw [hr₁, hr₂, hall below₁ mid₁ hcl₁ hn₁, hall below₂ mid₂ hcl₂ hn₂]

/-- The order of loads is irrelevant for all models exactly when no file of a model whose chain does
not end in time adds anything to the fresh model of its parent. -/
theorem loadAfter_irrelevant_all_iff :
    (∀ id h₁ h₂, loadAfter read h₁ id = loadAfter read h₂ id) ↔
      ∀ id parent, ¬ EndsInTime read id → parent? read id = some parent → parent ≠ id →
        (fresh read parent).inherit id (read id) = Resolved.empty := by
  constructor
  · intro h id parent hid hp hne
    have hn : parent ∉ [id] := by simpa using hne
    rcases loadAfter_irrelevant_iff.1 (h id) with he | hall
    · exact absurd he hid
    · exact hall [id] parent (Climb.up hp (Climb.here parent)) hn
  · intro h id
    -- one file at a time, every model below `mid` is the fresh one
    have hfresh : ∀ {id mid : Identifier} {below : List Identifier}, Climb read id below mid →
        mid ∉ below → layDown read (fresh read mid) below = fresh read id := by
      intro id mid below hcl
      induction hcl with
      | here mid => intro _; rfl
      | @up id parent mid below hp hcl ih =>
          intro hn
          have hn' : mid ∉ below := fun hm => hn (List.mem_cons_of_mem _ hm)
          by_cases hid : EndsInTime read id
          · exact hid.layDown_fresh (Climb.up hp hcl)
          · have hne : parent ≠ id := by
              intro he
              subst he
              -- a model that is its own parent leads nowhere else
              exact absurd ((Climb.up hp hcl).unique hn hcl hn') (List.cons_ne_self _ _).symm
            rw [layDown_cons, ih hn', h id parent hid hp hne, fresh_of_not_endsInTime hid]
    refine loadAfter_irrelevant_iff.2 ?_
    by_cases hid : EndsInTime read id
    · exact Or.inl hid
    · refine Or.inr fun below mid hcl hn => ?_
      rw [hfresh hcl hn, fresh_of_not_endsInTime hid]

end Histories

end ModelCache

/-! ### Loads from model files -/

namespace ModelSource

open ModelCache

/-- What is remembered after loading some models in turn, with nothing remembered at first. -/
def remembered (s : ModelSource) (history : List Identifier) : ModelCache Float32 :=
  loadAll s.read ∅ history

/-- What a load gives after some other loads. -/
def loadAfter (s : ModelSource) (history : List Identifier) (id : Identifier) : Resolved Float32 :=
  (load s.read id (s.remembered history)).1

/-- Four model files.  The chain of `c` leads over `d` to a reserved name, and `a` and `b` are each
other's parents. -/
def knottedPack : ModelSource where
  tables :=
    [Table.ofList [(⟨"minecraft", "a"⟩, "a.json"), (⟨"minecraft", "b"⟩, "b.json"),
      (⟨"minecraft", "c"⟩, "c.json"), (⟨"minecraft", "d"⟩, "d.json")]]
  source := AssetSource.ofFiles
    [("a.json", .text "\x7b\"parent\": \"b\", \"textures\": \x7b\"all\": \"stone\"\x7d\x7d"),
      ("b.json", .text "\x7b\"parent\": \"a\"\x7d"),
      ("c.json", .text "\x7b\"parent\": \"d\", \"textures\": \x7b\"layer0\": \"#all\"\x7d\x7d"),
      ("d.json", .text "\x7b\"parent\": \"builtin/generated\"\x7d")]

/-- **A chain that ends in time gives the fresh model after any loads.**  That model is the fold of
the files from the topmost ancestor down; every memory holds it or nothing under the name; and no
load changes what is remembered under any name. -/
theorem loadAfter_eq_fresh (s : ModelSource) (history : List Identifier) {id top : Identifier}
    {below : List Identifier} (hcl : Climb s.read id below top) (ht : parent? s.read top = none)
    (hn : below.length + 1 ≤ 51) :
    s.loadAfter history id = s.fresh id ∧
    s.fresh id = layDown s.read (topmost s.read top) below ∧
    (∀ r, (s.remembered history).get? id = some r → r = s.fresh id) ∧
    ∀ later j r, (s.remembered history).get? j = some r →
      (s.remembered (history ++ later)).get? j = some r := by
  have hle : below.length ≤ maxParents := Nat.le_of_succ_le_succ hn
  have hid : EndsInTime s.read id := ⟨below, top, hcl, ht, hle⟩
  have hexp : Explained s.read (s.remembered history) := explained_loadAll s.read history
  obtain ⟨v, hv⟩ := hid.resolves (s.remembered history)
  refine ⟨?_, fresh_of_climb hcl ht hle, ?_, ?_⟩
  · rw [loadAfter, fst_load_of_resolves hv]
    exact hexp.eq_fresh hid hv
  · intro r hr
    have hk : Resolves s.read (s.remembered history) 0 id r := .known hr
    exact hexp.eq_fresh hid hk
  · intro later j r hj
    rw [remembered, loadAll_append]
    exact get?_loadAll_of_eq_some hj later

theorem loadAfter_eq_fresh_knotted :
    Climb knottedPack.read ⟨"minecraft", "c"⟩ [⟨"minecraft", "c"⟩, ⟨"minecraft", "d"⟩]
      ⟨"minecraft", "builtin/generated"⟩ ∧
    parent? knottedPack.read ⟨"minecraft", "builtin/generated"⟩ = none ∧
    knottedPack.loadAfter [⟨"minecraft", "b"⟩, ⟨"minecraft", "d"⟩, ⟨"minecraft", "a"⟩]
      ⟨"minecraft", "c"⟩ = knottedPack.fresh ⟨"minecraft", "c"⟩ := by
  have hc : parent? knottedPack.read ⟨"minecraft", "c"⟩ = some ⟨"minecraft", "d"⟩ := by
    decide +kernel
  have hd : parent? knottedPack.read ⟨"minecraft", "d"⟩
      = some ⟨"minecraft", "builtin/generated"⟩ := by decide +kernel
  have ht : parent? knottedPack.read ⟨"minecraft", "builtin/generated"⟩ = none := by
    decide +kernel
  have hcl := Climb.up hc (Climb.up hd (Climb.here _))
  exact ⟨hcl, ht, (loadAfter_eq_fresh knottedPack
    [⟨"minecraft", "b"⟩, ⟨"minecraft", "d"⟩, ⟨"minecraft", "a"⟩] hcl ht (by decide)).1⟩

/-- **When the order of loads is irrelevant.**  For one model: if its chain ends in time, or if no
way down to it from an ancestor makes anything but the empty model.  For all models: if no file of a
model whose chain does not end in time adds anything to the fresh model of its parent.  The fresh
model of such a chain is empty. -/
theorem load_order_irrelevant_iff (s : ModelSource) :
    (∀ id, (∀ h₁ h₂, s.loadAfter h₁ id = s.loadAfter h₂ id) ↔
      EndsInTime s.read id ∨ ∀ below mid, Climb s.read id below mid → mid ∉ below →
        layDown s.read (s.fresh mid) below = Resolved.empty) ∧
    ((∀ id h₁ h₂, s.loadAfter h₁ id = s.loadAfter h₂ id) ↔
      ∀ id parent, ¬ EndsInTime s.read id → parent? s.read id = some parent → parent ≠ id →
        (s.fresh parent).inherit id (s.read id) = Resolved.empty) ∧
    ∀ id, ¬ EndsInTime s.read id → s.fresh id = Resolved.empty :=
  ⟨fun _ => loadAfter_irrelevant_iff, loadAfter_irrelevant_all_iff,
    fun _ h => fresh_of_not_endsInTime h⟩

/-- A model of a cycle keeps its own slots once its parent was loaded; loaded first, it is empty. -/
theorem load_order_matters :
    knottedPack.loadAfter [⟨"minecraft", "b"⟩] ⟨"minecraft", "a"⟩
      ≠ knottedPack.loadAfter [] ⟨"minecraft", "a"⟩ := by
  intro h
  have hb : (knottedPack.loadAfter [⟨"minecraft", "b"⟩] ⟨"minecraft", "a"⟩).model.textures.size
      = 1 := by decide +kernel
  have he : (knottedPack.loadAfter [] ⟨"minecraft", "a"⟩).model.textures.size = 0 := by
    decide +kernel
  rw [h, he] at hb
  cases hb

end ModelSource

end VoxelBake
