/-
Tables that remember the order of their keys.

A `Table κ β` maps keys to values and lists them in the order in which the keys were first
entered: writing to a known key replaces its value in place, a new key goes to the end.  No key
occurs twice, and that is part of the type.

* `Table.get?`, `Table.contains`, `Table.keys`, `Table.size` — reading;
* `Table.insert` — writing, where the later value wins;
* `Table.insertNew` — writing, where the earlier value stays;
* `Table.fetch` — reading, where a missing value is made and entered first;
* `Table.ofList` — the table of a list of pairs, the last value of each key;
* `Table.get?_insert_self`, `Table.get?_insert_of_ne`, `Table.mem_keys_insert` — what a write
  changes;
* `Table.entries_eq_filterMap` — keys and what is held under them make up the table;
* `Table.get?_ofList`, `Table.keys_ofList`, `Table.mem_keys_ofList`, `Table.entries_ofList` — what
  the table of a list holds;
* `Table.get?_foldl_insertNew` — what a table holds once a list was entered where it is new;
* `Table.get?_foldl_entries` — what a table holds once another one was written into it.
-/

set_option relaxedAutoImplicit false
set_option autoImplicit false

namespace VoxelBake

/-- Pairs of a key and a value in order of entry, no key twice. -/
structure Table (κ β : Type) where
  /-- The pairs, oldest key first. -/
  entries : List (κ × β)
  /-- No key occurs twice. -/
  nodup_keys : (entries.map Prod.fst).Nodup

namespace Table

variable {κ β γ : Type}

/-- The table without entries. -/
def empty : Table κ β := ⟨[], List.nodup_nil⟩

instance : EmptyCollection (Table κ β) := ⟨empty⟩

instance : Inhabited (Table κ β) := ⟨empty⟩

/-- The keys in order of entry. -/
def keys (t : Table κ β) : List κ := t.entries.map Prod.fst

/-- The values in order of their keys. -/
def values (t : Table κ β) : List β := t.entries.map Prod.snd

/-- How many keys the table has. -/
def size (t : Table κ β) : Nat := t.entries.length

/-- Whether the table has no keys. -/
def isEmpty (t : Table κ β) : Bool := t.entries.isEmpty

/-- Every value replaced by its image under a function of key and value. -/
def mapValues (f : κ → β → γ) (t : Table κ β) : Table κ γ where
  entries := t.entries.map fun e => (e.1, f e.1 e.2)
  nodup_keys := by simpa [List.map_map, Function.comp_def] using t.nodup_keys

variable [DecidableEq κ]

/-- The value stored under a key. -/
def get? (t : Table κ β) (k : κ) : Option β := t.entries.lookup k

/-- Whether a key is present. -/
def contains (t : Table κ β) (k : κ) : Bool := (t.get? k).isSome

theorem get?_eq_none_iff {t : Table κ β} {k : κ} : t.get? k = none ↔ k ∉ t.keys := by
  simp only [get?, keys, List.lookup_eq_none_iff, List.mem_map, not_exists, not_and]
  constructor
  · intro h e he hk
    have := h e he
    simp [hk] at this
  · intro h e he
    simpa using fun hk => h e he hk.symm

/-- The table with a value written under a key: in place if the key is known, at the end
otherwise. -/
def insert (t : Table κ β) (k : κ) (v : β) : Table κ β :=
  if h : k ∈ t.keys then
    { entries := t.entries.map fun e => if e.1 = k then (k, v) else e
      nodup_keys := by
        have : (t.entries.map fun e => if e.1 = k then (k, v) else e).map Prod.fst
            = t.entries.map Prod.fst := by
          rw [List.map_map]
          refine List.map_congr_left fun e _ => ?_
          by_cases he : e.1 = k <;> simp [he]
        rw [this]
        exact t.nodup_keys }
  else
    { entries := t.entries ++ [(k, v)]
      nodup_keys := by
        rw [List.map_append, List.nodup_append]
        refine ⟨t.nodup_keys, by simp, ?_⟩
        intro a ha b hb hab
        simp only [List.map_cons, List.map_nil, List.mem_singleton] at hb
        exact h (by rw [keys, ← hb, ← hab]; exact ha) }

/-- The table with a value entered under a key that it does not have yet; a known key keeps its
value. -/
def insertNew (t : Table κ β) (k : κ) (v : β) : Table κ β :=
  if t.contains k then t else t.insert k v

/-- The value under a key, made and entered first if the key is new, and the table afterwards. -/
def fetch (t : Table κ β) (k : κ) (make : Unit → β) : β × Table κ β :=
  match t.get? k with
  | some v => (v, t)
  | none =>
      let v := make ()
      (v, t.insert k v)

/-- The table of a list of pairs: keys in order of first occurrence, each with its last value. -/
def ofList (l : List (κ × β)) : Table κ β :=
  l.foldl (fun t e => t.insert e.1 e.2) empty

/-! ### What a write changes -/

@[simp] theorem get?_empty (k : κ) : (empty : Table κ β).get? k = none := rfl

omit [DecidableEq κ] in
@[simp] theorem keys_empty : (empty : Table κ β).keys = [] := rfl

theorem contains_eq_true_iff {t : Table κ β} {k : κ} : t.contains k = true ↔ k ∈ t.keys := by
  rw [contains, Option.isSome_iff_ne_none, ne_eq, get?_eq_none_iff, Decidable.not_not]

theorem get?_mapValues (f : κ → β → γ) (t : Table κ β) (k : κ) :
    (t.mapValues f).get? k = (t.get? k).map (f k) := by
  obtain ⟨l, hl⟩ := t
  simp only [get?, mapValues]
  clear hl
  induction l with
  | nil => rfl
  | cons e l ih =>
      obtain ⟨a, b⟩ := e
      by_cases hk : k = a
      · simp [hk]
      · have : (k == a) = false := by simpa using hk
        simp [List.lookup_cons, this, ih]

theorem keys_insert (t : Table κ β) (k : κ) (v : β) :
    (t.insert k v).keys = if k ∈ t.keys then t.keys else t.keys ++ [k] := by
  unfold insert
  split
  · simp only [keys, List.map_map]
    refine List.map_congr_left fun e _ => ?_
    by_cases he : e.1 = k <;> simp [he]
  · simp [keys]

private theorem lookup_replaced (l : List (κ × β)) (k : κ) (v : β) (j : κ) :
    (l.map fun e => if e.1 = k then (k, v) else e).lookup j
      = if j = k then (l.lookup j).map fun _ => v else l.lookup j := by
  induction l with
  | nil => simp
  | cons e l ih =>
      obtain ⟨a, b⟩ := e
      by_cases hja : j = a
      · subst hja
        by_cases hjk : j = k
        · subst hjk; simp
        · have hne : (j == k) = false := by simpa using hjk
          simp [hjk]
      · have hne : (j == a) = false := by simpa using hja
        by_cases hak : a = k
        · subst hak
          simpa [List.lookup_cons, hne, hja] using ih
        · simpa [List.lookup_cons, hne, hak] using ih

@[simp] theorem get?_insert_self (t : Table κ β) (k : κ) (v : β) :
    (t.insert k v).get? k = some v := by
  unfold insert
  split
  · rename_i h
    have hs : (t.entries.lookup k).isSome := by
      have : ¬ t.get? k = none := fun hn => get?_eq_none_iff.1 hn h
      simpa [get?, Option.isSome_iff_ne_none] using this
    simp only [get?, lookup_replaced, if_true]
    obtain ⟨w, hw⟩ := Option.isSome_iff_exists.1 hs
    simp [hw]
  · rename_i h
    have hn : t.entries.lookup k = none := get?_eq_none_iff.2 h
    simp [get?, List.lookup_append, hn]

theorem get?_insert_of_ne (t : Table κ β) {j k : κ} (v : β) (h : j ≠ k) :
    (t.insert k v).get? j = t.get? j := by
  unfold insert
  split
  · simp [get?, lookup_replaced, h]
  · have : (j == k) = false := by simpa using h
    simp [get?, List.lookup_append, List.lookup_cons, this]

theorem get?_insert (t : Table κ β) (j k : κ) (v : β) :
    (t.insert k v).get? j = if j = k then some v else t.get? j := by
  by_cases h : j = k
  · subst h; simp
  · simp [h, get?_insert_of_ne]

theorem get?_insertNew (t : Table κ β) (j k : κ) (v : β) :
    (t.insertNew k v).get? j = if j = k then some ((t.get? k).getD v) else t.get? j := by
  unfold insertNew
  split
  · rename_i h
    by_cases hjk : j = k
    · subst hjk
      obtain ⟨w, hw⟩ := Option.isSome_iff_exists.1 h
      simp [hw]
    · simp [hjk]
  · rename_i h
    have hn : t.get? k = none := by simpa [contains] using h
    simp [get?_insert, hn]

theorem fst_fetch (t : Table κ β) (k : κ) (make : Unit → β) :
    (t.fetch k make).1 = (t.get? k).getD (make ()) := by
  unfold fetch
  cases h : t.get? k <;> simp

theorem get?_fetch (t : Table κ β) (k j : κ) (make : Unit → β) :
    (t.fetch k make).2.get? j = if j = k then some (t.fetch k make).1 else t.get? j := by
  unfold fetch
  cases h : t.get? k with
  | none => simp [get?_insert]
  | some v =>
      by_cases hjk : j = k
      · subst hjk; simp [h]
      · simp [hjk]

theorem mem_keys_insert {t : Table κ β} {j k : κ} {v : β} :
    j ∈ (t.insert k v).keys ↔ j ∈ t.keys ∨ j = k := by
  rw [keys_insert]
  split
  · rename_i h
    exact ⟨Or.inl, fun hj => hj.elim id fun he => he ▸ h⟩
  · simp

theorem mem_keys_fetch {t : Table κ β} {j k : κ} {make : Unit → β} :
    j ∈ (t.fetch k make).2.keys ↔ j ∈ t.keys ∨ j = k := by
  unfold fetch
  cases h : t.get? k with
  | none => exact mem_keys_insert
  | some v =>
      have hk : k ∈ t.keys := contains_eq_true_iff.1 (by simp [contains, h])
      exact ⟨Or.inl, fun hj => hj.elim id fun he => he ▸ hk⟩

theorem mem_entries_of_get? {t : Table κ β} {k : κ} {v : β} (h : t.get? k = some v) :
    (k, v) ∈ t.entries := by
  obtain ⟨l₁, l₂, hl, -⟩ := List.lookup_eq_some_iff.1 h
  simp [hl]

/-- A value is found under a key exactly if the pair is in the table. -/
theorem get?_eq_some_iff {t : Table κ β} {k : κ} {v : β} :
    t.get? k = some v ↔ (k, v) ∈ t.entries := by
  refine ⟨mem_entries_of_get?, fun h => ?_⟩
  obtain ⟨l₁, l₂, hl⟩ := List.append_of_mem h
  refine List.lookup_eq_some_iff.2 ⟨l₁, l₂, hl, ?_⟩
  intro e he
  have hnodup := t.nodup_keys
  rw [hl, List.map_append, List.nodup_append] at hnodup
  have hne := hnodup.2.2 e.1 (List.mem_map_of_mem he) k (by simp)
  simpa using fun hk => hne hk.symm

/-- The entries of a table in terms of its keys. -/
theorem entries_eq_filterMap (t : Table κ β) :
    t.entries = t.keys.filterMap fun k => (t.get? k).map (k, ·) := by
  have hself : ∀ l : List (κ × β), (∀ e ∈ l, t.get? e.1 = some e.2) →
      (l.map Prod.fst).filterMap (fun k => (t.get? k).map (k, ·)) = l := by
    intro l
    induction l with
    | nil => intro _; rfl
    | cons e l ih =>
        intro h
        rw [List.forall_mem_cons] at h
        simp [h.1, ih h.2]
  exact (hself t.entries fun e he => get?_eq_some_iff.2 he).symm

/-! ### The table of a list -/

theorem get?_foldl_insert (l : List (κ × β)) (t : Table κ β) (k : κ) :
    (l.foldl (fun t e => t.insert e.1 e.2) t).get? k = (l.reverse.lookup k).or (t.get? k) := by
  induction l generalizing t with
  | nil => rfl
  | cons e l ih =>
      rw [List.foldl_cons, ih, get?_insert, List.reverse_cons, List.lookup_append, Option.or_assoc]
      congr 1
      obtain ⟨a, b⟩ := e
      by_cases hk : k = a
      · simp [hk]
      · have : (k == a) = false := by simpa using hk
        simp [List.lookup_cons, hk, this]

/-- The table of a list holds the last value of each key. -/
theorem get?_ofList (l : List (κ × β)) (k : κ) : (ofList l).get? k = l.reverse.lookup k := by
  rw [ofList, get?_foldl_insert, get?_empty, Option.or_none]

/-- Entering the pairs of a list where they are new keeps the first value of each key. -/
theorem get?_foldl_insertNew (l : List (κ × β)) (t : Table κ β) (k : κ) :
    (l.foldl (fun t e => t.insertNew e.1 e.2) t).get? k = (t.get? k).or (l.lookup k) := by
  induction l generalizing t with
  | nil => simp
  | cons e l ih =>
      obtain ⟨a, b⟩ := e
      rw [List.foldl_cons, ih, get?_insertNew]
      by_cases hk : k = a
      · subst hk
        cases t.get? k <;> simp
      · have : (k == a) = false := by simpa using hk
        simp [List.lookup_cons, hk, this]

theorem mem_keys_foldl_insert (l : List (κ × β)) (t : Table κ β) (k : κ) :
    k ∈ (l.foldl (fun t e => t.insert e.1 e.2) t).keys ↔ k ∈ t.keys ∨ k ∈ l.map Prod.fst := by
  induction l generalizing t with
  | nil => simp
  | cons e l ih =>
      rw [List.foldl_cons, ih, mem_keys_insert, List.map_cons, List.mem_cons, or_assoc]

theorem mem_keys_ofList (l : List (κ × β)) (k : κ) :
    k ∈ (ofList l).keys ↔ k ∈ l.map Prod.fst := by
  rw [ofList, mem_keys_foldl_insert]
  simp

theorem keys_foldl_insert (l : List (κ × β)) (t : Table κ β) :
    (l.foldl (fun t e => t.insert e.1 e.2) t).keys
      = t.keys ++ ((l.map Prod.fst).filter (· ∉ t.keys)).eraseDups := by
  induction l generalizing t with
  | nil => simp
  | cons e l ih =>
      rw [List.foldl_cons, ih, keys_insert, List.map_cons]
      by_cases hk : e.1 ∈ t.keys
      · simp [hk]
      · have hlater : (l.map Prod.fst).filter (· ∉ t.keys ++ [e.1])
            = ((l.map Prod.fst).filter (· ∉ t.keys)).filter fun k => !(k == e.1) := by
          rw [List.filter_filter]
          refine List.filter_congr fun k _ => ?_
          by_cases hke : k = e.1 <;> simp [hke]
        rw [if_neg hk, List.filter_cons_of_pos (by simpa using hk), List.eraseDups_cons, hlater]
        simp 

/-- The table of a list has its keys in the order in which they occur first. -/
theorem keys_ofList (l : List (κ × β)) : (ofList l).keys = (l.map Prod.fst).eraseDups := by
  have hnew : (l.map Prod.fst).filter (· ∉ (empty : Table κ β).keys) = l.map Prod.fst :=
    List.filter_eq_self.2 fun k _ => by simp
  rw [ofList, keys_foldl_insert, hnew, keys_empty, List.nil_append]

/-- Pairs with keys of their own are the entries of their table. -/
theorem entries_ofList {l : List (κ × β)} (h : (l.map Prod.fst).Nodup) :
    (ofList l).entries = l := by
  have grow : ∀ (l : List (κ × β)) (t : Table κ β), ((t.entries ++ l).map Prod.fst).Nodup →
      (l.foldl (fun t e => t.insert e.1 e.2) t).entries = t.entries ++ l := by
    intro l
    induction l with
    | nil => intro t _; simp
    | cons e l ih =>
        intro t hn
        have hnew : e.1 ∉ t.keys := by
          rw [List.map_append, List.nodup_append] at hn
          exact fun hk => hn.2.2 e.1 hk e.1 (by simp) rfl
        have hins : (t.insert e.1 e.2).entries = t.entries ++ [e] := by simp [insert, hnew]
        rw [List.foldl_cons, ih _ (by simpa [hins] using hn), hins, List.append_assoc]
        rfl
  exact (grow l empty h).trans (List.nil_append l)

/-- The table of a list whose values were replaced by their images has the images as values. -/
theorem entries_ofList_map (f : β → γ) (l : List (κ × β)) :
    (ofList (l.map (Prod.map id f))).entries = (ofList l).entries.map (Prod.map id f) := by
  have step : ∀ (t : Table κ β) (s : Table κ γ) (e : κ × β),
      s.entries = t.entries.map (Prod.map id f) →
      (s.insert e.1 (f e.2)).entries = (t.insert e.1 e.2).entries.map (Prod.map id f) := by
    intro t s e hst
    have hkeys : s.keys = t.keys := by
      simp [keys, hst]
    by_cases hk : e.1 ∈ t.keys
    · have hs : e.1 ∈ s.keys := hkeys ▸ hk
      simp only [insert, hs, hk, dif_pos, hst, List.map_map]
      refine List.map_congr_left fun d _ => ?_
      by_cases hd : d.1 = e.1 <;> simp [hd, Prod.map]
    · have hs : e.1 ∉ s.keys := hkeys ▸ hk
      simp [insert, hs, hk, hst, Prod.map]
  have grow : ∀ (l : List (κ × β)) (t : Table κ β) (s : Table κ γ),
      s.entries = t.entries.map (Prod.map id f) →
      ((l.map (Prod.map id f)).foldl (fun s e => s.insert e.1 e.2) s).entries
        = (l.foldl (fun t e => t.insert e.1 e.2) t).entries.map (Prod.map id f) := by
    intro l
    induction l with
    | nil => intro t s hst; exact hst
    | cons e l ih => intro t s hst; exact ih _ _ (step t s e hst)
  exact grow l empty empty rfl

/-- Writing the entries of one table into another one. -/
theorem get?_foldl_entries (s t : Table κ β) (k : κ) :
    (s.entries.foldl (fun t e => t.insert e.1 e.2) t).get? k = (s.get? k).or (t.get? k) := by
  have hlast : s.entries.reverse.lookup k = s.get? k := by
    rw [← get?_ofList, get?, entries_ofList s.nodup_keys]
    rfl
  rw [get?_foldl_insert, hlast]

end Table

end VoxelBake
