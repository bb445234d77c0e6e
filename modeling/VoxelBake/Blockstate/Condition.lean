/-
Conditions on the properties of a block state.

The key of a variant, such as `facing=north,half=top`, asks for the value of each property that it
lists.  The condition of a part is a document: an object of properties, each with the values that
it may have, or a list of conditions of which one or all have to hold.

* `Properties` — the properties of a state;
* `Condition`, `Condition.holds` — a condition, and whether it holds;
* `Condition.specificity` — how many properties a condition asks about;
* `Condition.ofKey` — the condition of a variant;
* `Condition.ofWhen` — the condition of a part.
-/
import VoxelBake.Json.Value
import VoxelBake.Table
import VoxelBake.Text.Blank

set_option relaxedAutoImplicit false
set_option autoImplicit false

namespace VoxelBake

/-- The properties of a block state. -/
abbrev Properties := Table String String

/-- A condition on the properties of a block state. -/
inductive Condition
  /-- Holds for every state. -/
  | always
  /-- Holds for no state. -/
  | never
  /-- Holds if each listed property has one of the values beside it. -/
  | requires (properties : List (String × List String))
  /-- Holds if one of the conditions does. -/
  | any (conditions : List Condition)
  /-- Holds if all of the conditions do. -/
  | all (conditions : List Condition)
deriving Inhabited

namespace Condition

/-! ### Meaning -/

/-- Whether a property has one of some values; a property that the state lacks has none. -/
def propertyHolds (p : Properties) (name : String) (allowed : List String) : Bool :=
  match p.get? name with
  | some actual => allowed.contains actual
  | none => false

theorem propertyHolds_iff {p : Properties} {name : String} {allowed : List String} :
    propertyHolds p name allowed = true ↔ ∃ value ∈ allowed, p.get? name = some value := by
  rw [propertyHolds]
  cases p.get? name with
  | none => simp
  | some actual => simp

mutual

/-- Whether a condition holds for a state with the given properties. -/
def holds (p : Properties) : Condition → Bool
  | always => true
  | never => false
  | requires properties => properties.all fun r => propertyHolds p r.1 r.2
  | any conditions => someHolds p conditions
  | all conditions => eachHolds p conditions

/-- Whether one of some conditions holds. -/
def someHolds (p : Properties) : List Condition → Bool
  | [] => false
  | c :: rest => holds p c || someHolds p rest

/-- Whether all of some conditions hold. -/
def eachHolds (p : Properties) : List Condition → Bool
  | [] => true
  | c :: rest => holds p c && eachHolds p rest

end

theorem someHolds_eq_any (p : Properties) (cs : List Condition) :
    someHolds p cs = cs.any (holds p) := by
  induction cs with
  | nil => rfl
  | cons c cs ih => simp [someHolds, ih]

theorem eachHolds_eq_all (p : Properties) (cs : List Condition) :
    eachHolds p cs = cs.all (holds p) := by
  induction cs with
  | nil => rfl
  | cons c cs ih => simp [eachHolds, ih]

mutual

/-- How many properties a condition asks about. -/
def specificity : Condition → Nat
  | always => 0
  | never => 0
  | requires properties => properties.length
  | any conditions => totalSpecificity conditions
  | all conditions => totalSpecificity conditions

/-- How many properties some conditions ask about together. -/
def totalSpecificity : List Condition → Nat
  | [] => 0
  | c :: rest => specificity c + totalSpecificity rest

end

/-- The condition that each listed property has one of the values beside it; always holds if none
is listed. -/
def ofRequirements (properties : List (String × List String)) : Condition :=
  if properties.isEmpty then always else requires properties

theorem specificity_ofRequirements (properties : List (String × List String)) :
    (ofRequirements properties).specificity = properties.length := by
  cases properties <;> rfl

theorem holds_ofRequirements (p : Properties) (properties : List (String × List String)) :
    (ofRequirements properties).holds p = properties.all fun r => propertyHolds p r.1 r.2 := by
  cases properties <;> rfl

/-! ### Keys of variants -/

/-- The property and the value in one part of a key, blanks around both removed; parts without an
equals sign say nothing. -/
def ofKeyPart (part : List Char) : Option (String × List String) :=
  (Text.splitAtFirst '=' part).map fun p =>
    (String.ofList (Text.trimChars p.1), [String.ofList (Text.trimChars p.2)])

/-- The condition of a variant: parts between commas, each a property and its value. -/
def ofKey (key : String) : Condition :=
  ofRequirements
    ((((Text.pieces ',' key.toList).map Text.trimChars).filter (!·.isEmpty)).filterMap ofKeyPart)

/-! ### Conditions of parts -/

/-- The values that a document allows for a property: texts between vertical bars, blanks around
each removed.  A value that is not a text stands for what it looks like in a document. -/
def allowedValues (v : Json.Value) : List String :=
  let written := match v with
    | .text s => s
    | other => other.compact
  (Text.pieces '|' written.toList).map fun s => String.ofList (Text.trimChars s)

mutual

/-- The condition of a part.  What is not an object never holds. -/
def ofWhen : Json.Value → Condition
  | .object members =>
      match clausesUnder "OR" members with
      | some clauses => any clauses
      | none =>
          match clausesUnder "AND" members with
          | some clauses => all clauses
          | none => ofRequirements (members.map fun m => (m.1, allowedValues m.2))
  | _ => never

/-- The conditions in the list under a name, if there is such a member. -/
def clausesUnder (name : String) : List (String × Json.Value) → Option (List Condition)
  | [] => none
  | (n, v) :: rest => if n = name then some (ofClauseList v) else clausesUnder name rest

/-- The conditions in a list; what is not a list is one condition that never holds. -/
def ofClauseList : Json.Value → List Condition
  | .array items => ofClauses items
  | _ => [never]

/-- The conditions of the items of a list. -/
def ofClauses : List Json.Value → List Condition
  | [] => []
  | v :: rest => ofWhen v :: ofClauses rest

end

theorem ofClauses_eq_map (items : List Json.Value) : ofClauses items = items.map ofWhen := by
  induction items with
  | nil => rfl
  | cons v rest ih => rw [ofClauses, ih, List.map_cons]

theorem clausesUnder_eq_map (name : String) (members : List (String × Json.Value)) :
    clausesUnder name members = (members.lookup name).map ofClauseList := by
  induction members with
  | nil => rfl
  | cons m rest ih =>
      obtain ⟨n, v⟩ := m
      rw [clausesUnder, List.lookup_cons, ih]
      by_cases h : n = name
      · simp [h]
      · have h' : (name == n) = false := by simpa using fun e => h e.symm
        simp [h, h']

end Condition

end VoxelBake
