/-
**Conditions of parts: what they say, and that they fail closed.**

The condition of a part is a document: an object that lists properties with the values that they
may have, or one that holds a list of conditions of which one or all have to hold.  Nothing in it
says that a property must not have a value, so a state with more properties fulfils no fewer
conditions.  What cannot be read counts as a condition that never holds, so that damage to a
document can only take away states in which the part is drawn.

Main definitions:

* `Condition.Met` — **what a document demands of a state**, read off clause by clause;
* `Properties.Extends` — a state has all properties of another one, with the same values;
* `Condition.Damaged` — a document in which conditions, or lists of them, were replaced by something
  that is neither;
* `Condition.Names` — a condition asks about a property.

Main results:

* `Condition.holds_ofWhen_iff` — a condition holds exactly for the states that meet its document;
* `Condition.Met.of_damaged` — **a state that meets a damaged document meets the whole one**, and so
  does every state that extends it;
* `Condition.holds_congr` — properties that a condition does not name have no say;
* `Condition.ofWhen_fails_closed` — both of these, for compiled conditions.
-/
import Mathlib.Data.List.Forall2
import VoxelBake.Blockstate.Condition

set_option relaxedAutoImplicit false
set_option autoImplicit false

namespace VoxelBake

/-- A state has all properties of another one, with the same values. -/
def Properties.Extends (q p : Properties) : Prop :=
  ∀ name value, p.get? name = some value → q.get? name = some value

namespace Condition

/-! ### What a document demands -/

/-- **A state meets the condition in a document.**  Of a list under `OR` one condition has to be
met; without that, of a list under `AND` all; without either, each member names a property that has
one of the values beside it.  Nothing else is ever met. -/
inductive Met (p : Properties) : Json.Value → Prop
  | one {members : List (String × Json.Value)} {items : List Json.Value} {v : Json.Value}
      (hor : members.lookup "OR" = some (.array items)) (hv : v ∈ items) (hmet : Met p v) :
      Met p (.object members)
  | each {members : List (String × Json.Value)} {items : List Json.Value}
      (hor : members.lookup "OR" = none) (hand : members.lookup "AND" = some (.array items))
      (hmet : ∀ v ∈ items, Met p v) : Met p (.object members)
  | values {members : List (String × Json.Value)} (hor : members.lookup "OR" = none)
      (hand : members.lookup "AND" = none)
      (hmet : ∀ m ∈ members, ∃ value ∈ allowedValues m.2, p.get? m.1 = some value) :
      Met p (.object members)

variable {p q : Properties} {members : List (String × Json.Value)}

theorem holds_ofWhen_of_or {v : Json.Value} (hor : members.lookup "OR" = some v) :
    (ofWhen (.object members)).holds p = (ofClauseList v).any (holds p) := by
  simp only [ofWhen, clausesUnder_eq_map, hor, Option.map_some, holds, someHolds_eq_any]

theorem holds_ofWhen_of_and {v : Json.Value} (hor : members.lookup "OR" = none)
    (hand : members.lookup "AND" = some v) :
    (ofWhen (.object members)).holds p = (ofClauseList v).all (holds p) := by
  simp only [ofWhen, clausesUnder_eq_map, hor, hand, Option.map_none, Option.map_some, holds,
    eachHolds_eq_all]

theorem holds_ofWhen_of_neither (hor : members.lookup "OR" = none)
    (hand : members.lookup "AND" = none) :
    (ofWhen (.object members)).holds p = true ↔
      ∀ m ∈ members, ∃ value ∈ allowedValues m.2, p.get? m.1 = some value := by
  simp only [ofWhen, clausesUnder_eq_map, hor, hand, Option.map_none, holds_ofRequirements,
    List.all_map, List.all_eq_true, Function.comp_apply, propertyHolds_iff]

/-- A list in which a condition holds is a list, and the condition is one of its items. -/
theorem any_ofClauseList_iff {v : Json.Value} :
    (ofClauseList v).any (holds p) = true ↔
      ∃ items, v = .array items ∧ ∃ w ∈ items, (ofWhen w).holds p = true := by
  cases v <;> simp [ofClauseList, ofClauses_eq_map, holds]

/-- What is not a list has a condition in it that never holds. -/
theorem all_ofClauseList_iff {v : Json.Value} :
    (ofClauseList v).all (holds p) = true ↔
      ∃ items, v = .array items ∧ ∀ w ∈ items, (ofWhen w).holds p = true := by
  cases v <;> simp [ofClauseList, ofClauses_eq_map, holds]

theorem Met.holds_ofWhen {v : Json.Value} (h : Met p v) : (ofWhen v).holds p = true := by
  induction h with
  | one hor hv _ ih => exact holds_ofWhen_of_or hor ▸ any_ofClauseList_iff.2 ⟨_, rfl, _, hv, ih⟩
  | each hor hand _ ih => exact holds_ofWhen_of_and hor hand ▸ all_ofClauseList_iff.2 ⟨_, rfl, ih⟩
  | values hor hand hmet => exact (holds_ofWhen_of_neither hor hand).2 hmet

/-- A condition in a list under a name is smaller than the object that holds the list. -/
theorem sizeOf_lt_of_lookup {name : String} {items : List Json.Value} {v : Json.Value}
    (h : members.lookup name = some (.array items)) (hv : v ∈ items) :
    sizeOf v < sizeOf (Json.Value.object members) := by
  obtain ⟨l₁, l₂, hl, -⟩ := List.lookup_eq_some_iff.1 h
  have hitem := List.sizeOf_lt_of_mem hv
  have hmember : sizeOf (name, Json.Value.array items) < sizeOf members :=
    List.sizeOf_lt_of_mem (hl ▸ by simp)
  simp only [Prod.mk.sizeOf_spec, Json.Value.array.sizeOf_spec] at hmember
  simp only [Json.Value.object.sizeOf_spec]
  omega

theorem met_of_holds_ofWhen : (v : Json.Value) → (ofWhen v).holds p = true → Met p v
  | .object members, h => by
      cases hor : members.lookup "OR" with
      | some clauses =>
          rw [holds_ofWhen_of_or hor] at h
          obtain ⟨items, rfl, v, hv, hholds⟩ := any_ofClauseList_iff.1 h
          have hsmall := sizeOf_lt_of_lookup hor hv
          exact .one hor hv (met_of_holds_ofWhen v hholds)
      | none =>
          cases hand : members.lookup "AND" with
          | some clauses =>
              rw [holds_ofWhen_of_and hor hand] at h
              obtain ⟨items, rfl, hholds⟩ := all_ofClauseList_iff.1 h
              refine .each hor hand fun v hv => ?_
              have hsmall := sizeOf_lt_of_lookup hand hv
              exact met_of_holds_ofWhen v (hholds v hv)
          | none => exact .values hor hand ((holds_ofWhen_of_neither hor hand).1 h)
  | .null, h | .bool _, h | .number _, h | .text _, h | .array _, h => by cases h
termination_by v => sizeOf v
decreasing_by all_goals exact hsmall

/-- **A condition holds exactly for the states that meet its document.** -/
theorem holds_ofWhen_iff {v : Json.Value} : (ofWhen v).holds p = true ↔ Met p v :=
  ⟨met_of_holds_ofWhen v, Met.holds_ofWhen⟩

instance (p : Properties) (v : Json.Value) : Decidable (Met p v) :=
  decidable_of_iff _ holds_ofWhen_iff

/-! ### Damaged documents -/

mutual

/-- **A document in which conditions, or lists of them, were replaced.**  Conditions are the
document itself and, at any depth, the items of the lists under `OR` and `AND`; what stands in their
place is no object, and what stands in place of a list is no list. -/
inductive Damaged : Json.Value → Json.Value → Prop
  | same (v : Json.Value) : Damaged v v
  | condition (v : Json.Value) {v' : Json.Value} (h : v'.asObject? = none) : Damaged v v'
  | within {members members' : List (String × Json.Value)}
      (h : List.Forall₂ DamagedMember members members') :
      Damaged (.object members) (.object members')

/-- A member of an object whose conditions, or lists of them, were replaced. -/
inductive DamagedMember : String × Json.Value → String × Json.Value → Prop
  | same (m : String × Json.Value) : DamagedMember m m
  | list {name : String} (hname : name = "OR" ∨ name = "AND") (v : Json.Value) {v' : Json.Value}
      (h : v'.asArray? = none) : DamagedMember (name, v) (name, v')
  | items {name : String} (hname : name = "OR" ∨ name = "AND") {items items' : List Json.Value}
      (h : List.Forall₂ Damaged items items') :
      DamagedMember (name, .array items) (name, .array items')

end

theorem DamagedMember.fst_eq {m m' : String × Json.Value} (h : DamagedMember m m') :
    m'.1 = m.1 := by
  cases h <;> rfl

/-- Damage leaves the names of members alone. -/
theorem lookup_damaged {members' : List (String × Json.Value)}
    (h : List.Forall₂ DamagedMember members members') (name : String) :
    (members.lookup name = none ∧ members'.lookup name = none) ∨
      ∃ v v', members.lookup name = some v ∧ members'.lookup name = some v' ∧
        DamagedMember (name, v) (name, v') := by
  induction h with
  | nil => exact .inl ⟨rfl, rfl⟩
  | @cons m m' rest rest' hm _ ih =>
      obtain ⟨n, v⟩ := m
      obtain ⟨n', v'⟩ := m'
      obtain rfl : n' = n := hm.fst_eq
      by_cases hn : name = n'
      · subst hn
        exact .inr ⟨v, v', List.lookup_cons_self, List.lookup_cons_self, hm⟩
      · have hne : (name == n') = false := by simpa using hn
        simpa only [List.lookup_cons, hne] using ih

/-- Damage adds no names. -/
theorem lookup_of_damaged_none {members' : List (String × Json.Value)} {name : String}
    (h : List.Forall₂ DamagedMember members members') (hn : members'.lookup name = none) :
    members.lookup name = none := by
  rcases lookup_damaged h name with ⟨hnone, -⟩ | ⟨v, v', -, hv', -⟩
  · exact hnone
  · rw [hn] at hv'
    cases hv'

/-- A list that is left of damage was a list before. -/
theorem lookup_of_damaged_array {members' : List (String × Json.Value)} {name : String}
    {items' : List Json.Value} (h : List.Forall₂ DamagedMember members members')
    (hn : members'.lookup name = some (.array items')) :
    ∃ items, members.lookup name = some (.array items) ∧ List.Forall₂ Damaged items items' := by
  rcases lookup_damaged h name with ⟨-, hnone⟩ | ⟨v, v', hv, hv', hm⟩
  · rw [hn] at hnone
    cases hnone
  · obtain rfl := Option.some.inj (hn.symm.trans hv')
    cases hm with
    | same => exact ⟨items', hv, List.forall₂_same.2 fun v _ => .same v⟩
    | list _ _ hlist => cases hlist
    | items _ hitems => exact ⟨_, hv, hitems⟩

/-- An object that is left of damage was an object before. -/
theorem Damaged.of_object {v : Json.Value} {members' : List (String × Json.Value)}
    (h : Damaged v (.object members')) :
    ∃ members, v = .object members ∧ List.Forall₂ DamagedMember members members' := by
  cases h with
  | same => exact ⟨members', rfl, List.forall₂_same.2 fun m _ => .same m⟩
  | condition _ hobject => cases hobject
  | within hmembers => exact ⟨_, rfl, hmembers⟩

/-- A member of neither name that stands for lists is left as it was. -/
theorem DamagedMember.eq_of_not_list {m m' : String × Json.Value} (h : DamagedMember m m')
    (hor : m'.1 ≠ "OR") (hand : m'.1 ≠ "AND") : m' = m := by
  cases h with
  | same => rfl
  | list hname | items hname => exact (hname.elim hor hand).elim

theorem ne_of_lookup_eq_none {name : String} (h : members.lookup name = none)
    {m : String × Json.Value} (hm : m ∈ members) : m.1 ≠ name := by
  have hne := List.lookup_eq_none_iff.1 h m hm
  exact fun hname => by simp [hname] at hne

theorem exists_of_mem_left {β γ : Type} {R : β → γ → Prop} {l : List β} {l' : List γ}
    (h : List.Forall₂ R l l') {b : β} (hb : b ∈ l) : ∃ c ∈ l', R b c := by
  induction h with
  | nil => cases hb
  | @cons b' c l l' hbc _ ih =>
      rcases List.mem_cons.1 hb with rfl | hb
      · exact ⟨c, List.mem_cons_self, hbc⟩
      · obtain ⟨c', hc', hbc'⟩ := ih hb
        exact ⟨c', List.mem_cons_of_mem _ hc', hbc'⟩

theorem exists_of_mem_right {β γ : Type} {R : β → γ → Prop} {l : List β} {l' : List γ}
    (h : List.Forall₂ R l l') {c : γ} (hc : c ∈ l') : ∃ b ∈ l, R b c :=
  exists_of_mem_left (R := flip R) h.flip hc

/-- **A state that meets a damaged document meets the whole one**, and so does every state that
extends it. -/
theorem Met.of_damaged {v v' : Json.Value} (h : Met p v') (hd : Damaged v v')
    (hext : q.Extends p) : Met q v := by
  induction h generalizing v with
  | one hor hv _ ih =>
      obtain ⟨members, rfl, hmembers⟩ := hd.of_object
      obtain ⟨items, hor', hitems⟩ := lookup_of_damaged_array hmembers hor
      obtain ⟨w, hw, hdw⟩ := exists_of_mem_right hitems hv
      exact .one hor' hw (ih hdw)
  | each hor hand _ ih =>
      obtain ⟨members, rfl, hmembers⟩ := hd.of_object
      obtain ⟨items, hand', hitems⟩ := lookup_of_damaged_array hmembers hand
      refine .each (lookup_of_damaged_none hmembers hor) hand' fun w hw => ?_
      obtain ⟨w', hw', hdw⟩ := exists_of_mem_left hitems hw
      exact ih w' hw' hdw
  | values hor hand hmet =>
      obtain ⟨members, rfl, hmembers⟩ := hd.of_object
      refine .values (lookup_of_damaged_none hmembers hor) (lookup_of_damaged_none hmembers hand)
        fun m hm => ?_
      obtain ⟨m', hm', hdm⟩ := exists_of_mem_left hmembers hm
      -- there are no lists of conditions here, so the member is as it was
      obtain rfl := hdm.eq_of_not_list (ne_of_lookup_eq_none hor hm')
        (ne_of_lookup_eq_none hand hm')
      obtain ⟨value, hvalue, hget⟩ := hmet m' hm'
      exact ⟨value, hvalue, hext _ _ hget⟩

/-! ### Properties that are not named -/

/-- A condition asks about a property. -/
inductive Names (name : String) : Condition → Prop
  | requires {properties : List (String × List String)} {allowed : List String}
      (h : (name, allowed) ∈ properties) : Names name (.requires properties)
  | any {conditions : List Condition} {c : Condition} (hc : c ∈ conditions) (h : Names name c) :
      Names name (.any conditions)
  | all {conditions : List Condition} {c : Condition} (hc : c ∈ conditions) (h : Names name c) :
      Names name (.all conditions)

theorem propertyHolds_congr {name : String} (h : p.get? name = q.get? name)
    (allowed : List String) : propertyHolds p name allowed = propertyHolds q name allowed := by
  rw [propertyHolds, propertyHolds, h]

mutual

/-- **Properties that a condition does not name have no say.** -/
theorem holds_congr : (c : Condition) → (∀ name, Names name c → p.get? name = q.get? name) →
    holds p c = holds q c
  | .always, _ => rfl
  | .never, _ => rfl
  | .requires properties, h => by
      rw [holds, holds, Bool.eq_iff_iff, List.all_eq_true, List.all_eq_true]
      refine forall₂_congr fun r hr => ?_
      rw [propertyHolds_congr (h r.1 (.requires hr))]
  | .any conditions, h => by
      rw [holds, holds]
      exact someHolds_congr conditions fun c hc name hname => h name (.any hc hname)
  | .all conditions, h => by
      rw [holds, holds]
      exact eachHolds_congr conditions fun c hc name hname => h name (.all hc hname)

theorem someHolds_congr : (cs : List Condition) →
    (∀ c ∈ cs, ∀ name, Names name c → p.get? name = q.get? name) →
    someHolds p cs = someHolds q cs
  | [], _ => rfl
  | c :: rest, h => by
      rw [someHolds, someHolds, holds_congr c (h c List.mem_cons_self),
        someHolds_congr rest fun d hd => h d (List.mem_cons_of_mem _ hd)]

theorem eachHolds_congr : (cs : List Condition) →
    (∀ c ∈ cs, ∀ name, Names name c → p.get? name = q.get? name) →
    eachHolds p cs = eachHolds q cs
  | [], _ => rfl
  | c :: rest, h => by
      rw [eachHolds, eachHolds, holds_congr c (h c List.mem_cons_self),
        eachHolds_congr rest fun d hd => h d (List.mem_cons_of_mem _ hd)]

end

/-! ### Failing closed -/

/-- **Conditions fail closed.**  The condition in a document holds for the states that meet the
document.  If it holds for a state although parts of the document were replaced by something that is
no condition, or no list, then the condition of the whole document holds for that state and for all
that extend it.  And a condition, of a document or not, has the same value for states that agree on
the properties that it names. -/
theorem ofWhen_fails_closed :
    (∀ (v : Json.Value) (p : Properties), (ofWhen v).holds p = true ↔ Met p v) ∧
    (∀ (v v' : Json.Value) (p q : Properties), Damaged v v' → q.Extends p →
      (ofWhen v').holds p = true → (ofWhen v).holds q = true) ∧
    ∀ (c : Condition) (p q : Properties), (∀ name, Names name c → p.get? name = q.get? name) →
      c.holds p = c.holds q := by
  refine ⟨fun v p => holds_ofWhen_iff, ?_, fun c p q => holds_congr c⟩
  intro v v' p q hd hext hholds
  have hmet := (holds_ofWhen_iff.1 hholds).of_damaged hd hext
  exact holds_ofWhen_iff.2 hmet

/-- The condition of a fence that stands next to something in the north or, in one of two ways, in
the east. -/
def fenceCondition : Json.Value :=
  .object [("OR", .array [.object [("north", .text "side|up")],
    .object [("AND", .array [.object [("east", .bool true)], .object []])]])]

/-- The same condition with its first alternative damaged. -/
def hurtFenceCondition : Json.Value :=
  .object [("OR", .array [.null,
    .object [("AND", .array [.object [("east", .bool true)], .object []])]])]

/-- A state with something in the east. -/
def eastward : Properties := Table.ofList [("east", "true")]

/-- The same state, which is lit as well. -/
def litEastward : Properties := Table.ofList [("east", "true"), ("lit", "true")]

theorem ofWhen_fails_closed_fence :
    Damaged fenceCondition hurtFenceCondition ∧ litEastward.Extends eastward ∧
    (ofWhen hurtFenceCondition).holds eastward = true ∧
    (ofWhen fenceCondition).holds litEastward = true ∧
    (∀ name, Names name (.requires [("east", ["true"])]) →
      eastward.get? name = litEastward.get? name) ∧
    (requires [("east", ["true"])]).holds eastward
      = (requires [("east", ["true"])]).holds litEastward := by
  have hdamaged : Damaged fenceCondition hurtFenceCondition :=
    .within (.cons (.items (.inl rfl) (.cons (.condition _ rfl) (.cons (.same _) .nil))) .nil)
  have hextends : litEastward.Extends eastward := by
    intro name value h
    have hentry : (name, value) ∈ [("east", "true")] := Table.get?_eq_some_iff.1 h
    obtain ⟨rfl, rfl⟩ : name = "east" ∧ value = "true" := by simpa using hentry
    rfl
  have hholds : (ofWhen hurtFenceCondition).holds eastward = true := by decide
  have hnames : ∀ name, Names name (.requires [("east", ["true"])]) →
      eastward.get? name = litEastward.get? name := by
    rintro name (h | _ | _)
    obtain rfl : name = "east" := by simpa using congrArg Prod.fst (List.mem_singleton.1 h)
    rfl
  exact ⟨hdamaged, hextends, hholds,
    ofWhen_fails_closed.2.1 _ _ _ _ hdamaged hextends hholds, hnames,
    ofWhen_fails_closed.2.2 _ _ _ hnames⟩

end Condition

end VoxelBake
