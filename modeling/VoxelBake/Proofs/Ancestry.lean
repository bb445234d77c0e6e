/-
**What one load of a model finds.**

`ModelCache.load` walks up the parents until it meets a model that it remembers, a model without a
parent, or the bound on the walk; it then lays the files over each other on the way down and
remembers every model on the way.  This module says what comes out of that without walks and lists:
`Resolves` follows the parents one by one, with a budget of hops, and `load_cases` describes a load
by it.  Nothing remembered is the special case that gives the *fresh* model.

Main definitions:

* `ModelCache.parent?` — the parent that the files give a model;
* `ModelCache.Climb` — the models on a way up the parents;
* `ModelCache.topmost`, `ModelCache.layDown` — the model of a parentless name, and files laid over
  a model from the top down;
* `ModelCache.fresh` — what a load gives with nothing remembered;
* `ModelCache.Resolves` — what a name resolves to within a number of hops;
* `ModelCache.Loaded` — what is known of a successful load.

Main results:

* `ModelCache.walk_computes` — the walk and the merge together compute `Resolves`;
* `ModelCache.load_cases` — a load, by cases;
* `ModelCache.fresh_of_climb` — **a chain that ends in time is folded from its top down**.
-/
import VoxelBake.Model.Inheritance

set_option relaxedAutoImplicit false
set_option autoImplicit false

namespace VoxelBake.ModelCache

variable {α : Type}

/-! ### The chain of parents -/

/-- The parent that the files give a model.  There is none for a reserved name, for a file that
names no parent and for a file that is missing or unreadable. -/
def parent? (read : Identifier → Option (ModelDocument α)) (id : Identifier) :
    Option Identifier :=
  if (builtinKind id).isSome then none else (read id).bind ModelDocument.parentId

/-- A way up the parents: `Climb read id below top` says that the parents of `id` lead to `top`,
where `below` lists the models on the way, `id` first and `top` left out. -/
inductive Climb (read : Identifier → Option (ModelDocument α)) :
    Identifier → List Identifier → Identifier → Prop
  | here (id : Identifier) : Climb read id [] id
  | up {id parent top : Identifier} {below : List Identifier} :
      parent? read id = some parent → Climb read parent below top →
      Climb read id (id :: below) top

section Climbing

variable {read : Identifier → Option (ModelDocument α)}

theorem parent?_of_builtin {id : Identifier} {kind : ModelKind} (h : builtinKind id = some kind) :
    parent? read id = none := by
  simp [parent?, h]

theorem builtinKind_of_parent? {id parent : Identifier} (h : parent? read id = some parent) :
    builtinKind id = none := by
  cases hb : builtinKind id with
  | none => rfl
  | some kind =>
      rw [parent?_of_builtin hb] at h
      cases h

/-- There is only one way up to a model that does not pass through it. -/
theorem Climb.unique {id top : Identifier} {below : List Identifier}
    (h : Climb read id below top) (hn : top ∉ below) :
    ∀ {below' : List Identifier}, Climb read id below' top → top ∉ below' → below' = below := by
  induction h with
  | here id =>
      intro below' h' hn'
      cases h' with
      | here => rfl
      | up _ _ => exact absurd (List.mem_cons_self ..) hn'
  | @up id parent top below hp _ ih =>
      intro below' h' hn'
      cases h' with
      | here => exact absurd (List.mem_cons_self ..) hn
      | @up _ parent' _ below'' hp' hc' =>
          have he : parent' = parent := by
            rw [hp] at hp'
            exact (Option.some.inj hp').symm
          subst he
          rw [ih (fun hm => hn (List.mem_cons_of_mem _ hm)) hc'
            (fun hm => hn' (List.mem_cons_of_mem _ hm))]

end Climbing

/-! ### Laying files over each other -/

variable [Scalar α]

/-- The model of a name without a parent: what a reserved name stands for, or the declarations of
its own file alone. -/
def topmost (read : Identifier → Option (ModelDocument α)) (id : Identifier) : Resolved α :=
  match builtinKind id with
  | some kind => { Resolved.empty with kind := kind }
  | none => Resolved.empty.inherit id (read id)

/-- The files of some models laid over a model, the last one of the list first. -/
def layDown (read : Identifier → Option (ModelDocument α)) (r : Resolved α)
    (below : List Identifier) : Resolved α :=
  below.foldr (fun id parent => parent.inherit id (read id)) r

/-- What a load gives with nothing remembered. -/
def fresh (read : Identifier → Option (ModelDocument α)) (id : Identifier) : Resolved α :=
  (load read id ∅).1

section Layers

variable (read : Identifier → Option (ModelDocument α))

@[simp] theorem layDown_nil (r : Resolved α) : layDown read r [] = r := rfl

@[simp] theorem layDown_cons (r : Resolved α) (id : Identifier) (below : List Identifier) :
    layDown read r (id :: below) = (layDown read r below).inherit id (read id) := rfl

end Layers

/-! ### Resolving by budget -/

/-- What a name resolves to when at most `hops` parents are visited and the models of `cache` are
taken as they are. -/
inductive Resolves (read : Identifier → Option (ModelDocument α)) (cache : ModelCache α) :
    Nat → Identifier → Resolved α → Prop
  | known {hops : Nat} {id : Identifier} {r : Resolved α} :
      cache.get? id = some r → Resolves read cache hops id r
  | top {hops : Nat} {id : Identifier} :
      cache.get? id = none → parent? read id = none → Resolves read cache hops id (topmost read id)
  | child {hops : Nat} {id parent : Identifier} {r : Resolved α} :
      cache.get? id = none → parent? read id = some parent → Resolves read cache hops parent r →
      Resolves read cache (hops + 1) id (r.inherit id (read id))

namespace Resolves

variable {read : Identifier → Option (ModelDocument α)} {cache : ModelCache α}

/-- A larger budget changes nothing. -/
theorem mono {m : Nat} {id : Identifier} {r : Resolved α} (h : Resolves read cache m id r) :
    ∀ {n : Nat}, m ≤ n → Resolves read cache n id r := by
  induction h with
  | known hk => intro n _; exact .known hk
  | top hc hp => intro n _; exact .top hc hp
  | child hc hp _ ih =>
      intro n hn
      obtain ⟨k, rfl⟩ : ∃ k, n = k + 1 := ⟨n - 1, by omega⟩
      exact .child hc hp (ih (by omega))

/-- A name that is not remembered and has a parent resolves through its parent only. -/
theorem through_parent {n : Nat} {id parent : Identifier} {r : Resolved α}
    (h : Resolves read cache n id r) (hc : cache.get? id = none)
    (hp : parent? read id = some parent) :
    ∃ m r', n = m + 1 ∧ Resolves read cache m parent r' ∧ r = r'.inherit id (read id) := by
  cases h with
  | known hk => rw [hc] at hk; cases hk
  | top _ hp' => rw [hp] at hp'; cases hp'
  | child _ hp' h' =>
      rw [hp] at hp'
      obtain rfl := Option.some.inj hp'
      exact ⟨_, _, rfl, h', rfl⟩

/-- A name resolves to one model only, whatever the budgets. -/
theorem unique {m : Nat} {id : Identifier} {r : Resolved α} (h : Resolves read cache m id r) :
    ∀ {n : Nat} {r' : Resolved α}, Resolves read cache n id r' → r' = r := by
  induction h with
  | known hk =>
      intro n r' h'
      cases h' with
      | known hk' => rw [hk] at hk'; exact (Option.some.inj hk').symm
      | top hc' _ => rw [hk] at hc'; cases hc'
      | child hc' _ _ => rw [hk] at hc'; cases hc'
  | top hc hp =>
      intro n r' h'
      cases h' with
      | known hk' => rw [hc] at hk'; cases hk'
      | top _ _ => rfl
      | child _ hp' _ => rw [hp] at hp'; cases hp'
  | child hc hp _ ih =>
      intro n r' h'
      obtain ⟨m, r'', -, h'', rfl⟩ := h'.through_parent hc hp
      rw [ih h'']

end Resolves

section Budget

variable {read : Identifier → Option (ModelDocument α)}

/-- A chain that ends resolves, whatever is remembered: remembered models only shorten the way. -/
theorem Climb.resolves {id top : Identifier} {below : List Identifier}
    (h : Climb read id below top) (ht : parent? read top = none) (cache : ModelCache α) :
    ∃ r, Resolves read cache below.length id r := by
  induction h with
  | here id =>
      cases hc : cache.get? id with
      | some r => exact ⟨r, .known hc⟩
      | none => exact ⟨topmost read id, .top hc ht⟩
  | @up id parent top below hp _ ih =>
      cases hc : cache.get? id with
      | some r => exact ⟨r, .known hc⟩
      | none =>
          obtain ⟨r, hr⟩ := ih ht
          exact ⟨r.inherit id (read id), .child hc hp hr⟩

/-- With nothing remembered a chain that ends resolves to its files laid over its topmost model. -/
theorem Climb.resolves_empty {id top : Identifier} {below : List Identifier}
    (h : Climb read id below top) (ht : parent? read top = none) :
    Resolves read ∅ below.length id (layDown read (topmost read top) below) := by
  induction h with
  | here id => exact .top rfl ht
  | up hp _ ih => exact .child rfl hp (ih ht)

/-- With nothing remembered only chains that end within the budget resolve. -/
theorem Resolves.exists_climb {cache : ModelCache α} (he : cache = ∅) {n : Nat} {id : Identifier}
    {r : Resolved α} (h : Resolves read cache n id r) :
    ∃ below top, Climb read id below top ∧ parent? read top = none ∧ below.length ≤ n := by
  induction h with
  | known hk => subst he; cases hk
  | @top n id _ hp => exact ⟨[], id, Climb.here id, hp, Nat.zero_le _⟩
  | child _ hp _ ih =>
      obtain ⟨below, top, hc, ht, hn⟩ := ih
      exact ⟨_, top, Climb.up hp hc, ht, Nat.succ_le_succ hn⟩

end Budget

/-! ### One load -/

section Remembering

variable (cache : ModelCache α) (id : Identifier) (r : Resolved α)

omit [Scalar α] in
theorem fst_remember : (remember cache id r).1 = (cache.get? id).getD r :=
  Table.fst_fetch cache id _

omit [Scalar α] in
theorem get?_remember (j : Identifier) :
    (remember cache id r).2.get? j = if j = id then some (remember cache id r).1
      else cache.get? j :=
  Table.get?_fetch cache id j _

omit [Scalar α] in
/-- What is remembered stays remembered. -/
theorem get?_remember_of_eq_some {j : Identifier} {v : Resolved α} (h : cache.get? j = some v) :
    (remember cache id r).2.get? j = some v := by
  rw [get?_remember]
  split
  · rename_i hj
    subst hj
    simp [fst_remember, h]
  · exact h

end Remembering

/-- What is known of a load that found a model.  `value` and `entries` refer to what was remembered
before: everything that is remembered afterwards could have been found then. -/
structure Loaded (read : Identifier → Option (ModelDocument α)) (cache : ModelCache α) (hops : Nat)
    (id : Identifier) (out : Resolved α × ModelCache α) : Prop where
  /-- The model is what the name resolves to. -/
  value : Resolves read cache hops id out.1
  /-- So is every model that is remembered afterwards. -/
  entries : ∀ {j : Identifier} {r : Resolved α}, out.2.get? j = some r →
    Resolves read cache hops j r
  /-- Nothing is forgotten or replaced. -/
  grows : ∀ {j : Identifier} {r : Resolved α}, cache.get? j = some r → out.2.get? j = some r
  /-- The model itself is remembered, unless its name is a reserved one. -/
  kept : builtinKind id = none → out.2.get? id = some out.1

section Loading

variable {read : Identifier → Option (ModelDocument α)} {cache : ModelCache α}

theorem Loaded.of_known {hops : Nat} {id : Identifier} {r : Resolved α}
    (h : cache.get? id = some r) : Loaded read cache hops id (r, cache) where
  value := .known h
  entries hj := .known hj
  grows hj := hj
  kept _ := h

/-- A model that may be remembered because it is what its name resolves to. -/
theorem Loaded.remember {hops : Nat} {id : Identifier} {r : Resolved α} {c : ModelCache α}
    (hv : Resolves read cache hops id r)
    (he : ∀ {j : Identifier} {v : Resolved α}, c.get? j = some v → Resolves read cache hops j v)
    (hg : ∀ {j : Identifier} {v : Resolved α}, cache.get? j = some v → c.get? j = some v) :
    Loaded read cache hops id (ModelCache.remember c id r) := by
  have hfst : (ModelCache.remember c id r).1 = r := by
    rw [fst_remember]
    cases hc : c.get? id with
    | none => rfl
    | some v => exact hv.unique (he hc)
  refine ⟨?_, ?_, ?_, ?_⟩
  · rw [hfst]
    exact hv
  · intro j v hj
    rw [get?_remember] at hj
    split at hj
    · rename_i hjid
      subst hjid
      rw [← Option.some.inj hj, hfst]
      exact hv
    · exact he hj
  · intro j v hj
    exact get?_remember_of_eq_some c id r (hg hj)
  · intro _
    rw [get?_remember, if_pos rfl]

/-- A model above which another one was loaded before. -/
theorem Loaded.child {hops : Nat} {id parent : Identifier} {out : Resolved α × ModelCache α}
    (h : Loaded read cache hops parent out) (hc : cache.get? id = none)
    (hp : parent? read id = some parent) :
    Loaded read cache (hops + 1) id
      (ModelCache.remember out.2 id (out.1.inherit id (read id))) :=
  Loaded.remember (.child hc hp h.value) (fun hj => (h.entries hj).mono (Nat.le_succ _)) h.grows

omit [Scalar α] in
theorem parentStep_known {id : Identifier} {r : Resolved α} (h : cache.get? id = some r) :
    parentStep read cache id = .done (.known r) := by
  simp [parentStep, h]

omit [Scalar α] in
theorem parentStep_parent {id parent : Identifier} (h : cache.get? id = none)
    (hp : parent? read id = some parent) : parentStep read cache id = .next parent := by
  have hb := builtinKind_of_parent? hp
  have hd : (read id).bind ModelDocument.parentId = some parent := by simpa [parent?, hb] using hp
  simp [parentStep, h, hb, hd]

/-- The way up ends at a name without a parent, and the merge gives its own model. -/
theorem parentStep_top {hops : Nat} {id : Identifier} (h : cache.get? id = none)
    (hp : parent? read id = none) :
    ∃ a, parentStep read cache id = .done a ∧
      Loaded read cache hops id (mergeDown read a.start cache (ownFiles [id] a)) := by
  cases hb : builtinKind id with
  | some kind =>
      have hv : topmost read id = { Resolved.empty with kind := kind } := by simp [topmost, hb]
      refine ⟨.builtin kind, by simp [parentStep, h, hb], ?_⟩
      refine ⟨?_, fun hj => .known hj, fun hj => hj, fun hn => by rw [hb] at hn; cases hn⟩
      change Resolves read cache hops id { Resolved.empty with kind := kind }
      rw [← hv]
      exact .top h hp
  | none =>
      have hd : (read id).bind ModelDocument.parentId = none := by simpa [parent?, hb] using hp
      have hv : topmost read id = Resolved.empty.inherit id (read id) := by simp [topmost, hb]
      refine ⟨.root, by simp [parentStep, h, hb, hd], ?_⟩
      refine Loaded.remember ?_ (fun hj => .known hj) (fun hj => hj)
      change Resolves read cache hops id (Resolved.empty.inherit id (read id))
      rw [← hv]
      exact .top h hp

omit [Scalar α] in
theorem ownFiles_cons {id : Identifier} {visited : List Identifier} (h : visited ≠ [])
    (a : Ancestor α) : ownFiles (id :: visited) a = id :: ownFiles visited a := by
  cases a with
  | root => rfl
  | known r => exact List.dropLast_cons_of_ne_nil h
  | builtin kind => exact List.dropLast_cons_of_ne_nil h

/-- The walk up the parents with at most `hops` hops and the merge on the way down find what the
name resolves to, and a walk that gives up shows that the name does not resolve. -/
structure WalkComputes (read : Identifier → Option (ModelDocument α)) (cache : ModelCache α)
    (hops : Nat) (id : Identifier) : Prop where
  /-- The walk came to an end. -/
  ok : ∀ {a : Ancestor α}, (Chain.follow (parentStep read cache) hops id).outcome = .ok a →
    Loaded read cache hops id (mergeDown read a.start cache
      (ownFiles (Chain.follow (parentStep read cache) hops id).visited a))
  /-- The walk gave up. -/
  error : ∀ {e : Chain.Failure}, (Chain.follow (parentStep read cache) hops id).outcome = .error e →
    ∀ r, ¬ Resolves read cache hops id r

theorem WalkComputes.of_done {hops : Nat} {id : Identifier} {a : Ancestor α}
    (h : parentStep read cache id = .done a)
    (hl : Loaded read cache hops id (mergeDown read a.start cache (ownFiles [id] a))) :
    WalkComputes read cache hops id := by
  have hw := Chain.follow_of_done h hops
  constructor
  · intro b hb
    rw [hw] at hb ⊢
    cases hb
    exact hl
  · intro e he
    rw [hw] at he
    cases he

/-- Without a hop the walk cannot leave a name that is not known and has a parent. -/
theorem WalkComputes.zero {id parent : Identifier} (hc : cache.get? id = none)
    (hp : parent? read id = some parent) : WalkComputes read cache 0 id := by
  have hw := Chain.follow_zero_of_next (parentStep_parent hc hp)
  constructor
  · intro a ha
    rw [hw] at ha
    cases ha
  · intro e _ r hr
    obtain ⟨m, _, hm, -, -⟩ := hr.through_parent hc hp
    cases hm

theorem WalkComputes.succ {hops : Nat} {id parent : Identifier} (hc : cache.get? id = none)
    (hp : parent? read id = some parent) (h : WalkComputes read cache hops parent) :
    WalkComputes read cache (hops + 1) id := by
  have hw := Chain.follow_succ_of_next (parentStep_parent hc hp) hops
  constructor
  · intro a ha
    rw [hw] at ha ⊢
    rw [ownFiles_cons (Chain.follow_visited_ne_nil _ _ _)]
    exact (h.ok ha).child hc hp
  · intro e he r hr
    rw [hw] at he
    obtain ⟨m, r', hm, hr', -⟩ := hr.through_parent hc hp
    obtain rfl := Nat.succ.inj hm
    exact h.error he r' hr'

/-- **The walk up the parents and the merge on the way down compute `Resolves`.** -/
theorem walk_computes (read : Identifier → Option (ModelDocument α)) (cache : ModelCache α)
    (hops : Nat) : ∀ id : Identifier, WalkComputes read cache hops id := by
  -- the walk from `id` is one hop and the walk from its parent, which has one hop less to spend
  induction hops with
  | zero =>
      intro id
      cases hc : cache.get? id with
      | some r => exact .of_done (parentStep_known hc) (.of_known hc)
      | none =>
          cases hp : parent? read id with
          | none =>
              obtain ⟨a, ha, hl⟩ := parentStep_top hc hp
              exact .of_done ha hl
          | some parent => exact .zero hc hp
  | succ hops ih =>
      intro id
      cases hc : cache.get? id with
      | some r => exact .of_done (parentStep_known hc) (.of_known hc)
      | none =>
          cases hp : parent? read id with
          | none =>
              obtain ⟨a, ha, hl⟩ := parentStep_top hc hp
              exact .of_done ha hl
          | some parent => exact .succ hc hp (ih parent)

/-- A load of a name that resolves within the bound on parents. -/
theorem loaded_of_resolves {id : Identifier} {r : Resolved α}
    (h : Resolves read cache maxParents id r) :
    Loaded read cache maxParents id (load read id cache) := by
  cases hc : cache.get? id with
  | some v =>
      simp only [load, hc]
      exact Loaded.of_known hc
  | none =>
      have hw := walk_computes read cache maxParents id
      cases ho : (Chain.follow (parentStep read cache) maxParents id).outcome with
      | ok a =>
          simp only [load, hc, ho]
          exact hw.ok ho
      | error e => exact absurd h (hw.error ho r)

/-- A load of any other name gives the empty model and remembers it under this name. -/
theorem load_of_not_resolves {id : Identifier}
    (h : ∀ r, ¬ Resolves read cache maxParents id r) :
    load read id cache = (Resolved.empty, cache.insert id Resolved.empty) := by
  have hw := walk_computes read cache maxParents id
  cases hc : cache.get? id with
  | some r => exact absurd (.known hc) (h r)
  | none =>
      cases ho : (Chain.follow (parentStep read cache) maxParents id).outcome with
      | ok a => exact absurd (hw.ok ho).value (h _)
      | error e => simp only [load, hc, ho, ModelCache.remember, Table.fetch]

/-- **A load, by cases**: either the name resolves, or the load gives up and remembers an empty
model under this name. -/
theorem load_cases (read : Identifier → Option (ModelDocument α)) (cache : ModelCache α)
    (id : Identifier) :
    Loaded read cache maxParents id (load read id cache) ∨
      (∀ r, ¬ Resolves read cache maxParents id r) ∧
        load read id cache = (Resolved.empty, cache.insert id Resolved.empty) := by
  by_cases h : ∃ r, Resolves read cache maxParents id r
  · obtain ⟨r, hr⟩ := h
    exact Or.inl (loaded_of_resolves hr)
  · have hn : ∀ r, ¬ Resolves read cache maxParents id r := fun r hr => h ⟨r, hr⟩
    exact Or.inr ⟨hn, load_of_not_resolves hn⟩

/-- A load gives what the name resolves to. -/
theorem fst_load_of_resolves {id : Identifier} {r : Resolved α}
    (h : Resolves read cache maxParents id r) : (load read id cache).1 = r :=
  h.unique (loaded_of_resolves h).value

/-- A load never changes what is remembered. -/
theorem get?_load_of_eq_some {j : Identifier} {r : Resolved α} (h : cache.get? j = some r)
    (id : Identifier) : (load read id cache).2.get? j = some r := by
  rcases load_cases read cache id with hl | ⟨hn, hload⟩
  · exact hl.grows h
  · have hj : j ≠ id := by
      intro he
      subst he
      exact hn r (.known h)
    rw [hload, Table.get?_insert_of_ne _ _ hj, h]

end Loading

/-! ### Fresh models -/

section Fresh

variable {read : Identifier → Option (ModelDocument α)}

theorem fresh_of_resolves {id : Identifier} {r : Resolved α}
    (h : Resolves read ∅ maxParents id r) : fresh read id = r :=
  fst_load_of_resolves h

theorem fresh_of_not_resolves {id : Identifier} (h : ∀ r, ¬ Resolves read ∅ maxParents id r) :
    fresh read id = Resolved.empty := by
  rw [fresh, load_of_not_resolves h]

/-- **A chain that ends in time is folded from its top down.** -/
theorem fresh_of_climb {id top : Identifier} {below : List Identifier}
    (h : Climb read id below top) (ht : parent? read top = none) (hn : below.length ≤ maxParents) :
    fresh read id = layDown read (topmost read top) below :=
  fresh_of_resolves ((h.resolves_empty ht).mono hn)

/-- On a chain that ends in time a model is made from the fresh model of any of its ancestors. -/
theorem layDown_fresh_of_resolves {id mid : Identifier} {below : List Identifier}
    (h : Climb read id below mid) :
    ∀ {n : Nat} {r : Resolved α}, n ≤ maxParents → Resolves read ∅ n id r →
      layDown read (fresh read mid) below = r := by
  induction h with
  | here id =>
      intro n r hn hr
      exact fresh_of_resolves (hr.mono hn)
  | up hp _ ih =>
      intro n r hn hr
      obtain ⟨m, r', rfl, hr', rfl⟩ := hr.through_parent rfl hp
      rw [layDown_cons, ih (by omega) hr']

end Fresh

end VoxelBake.ModelCache
