/-
**Keys of variants say what was written into them.**

A key lists properties with their values, each as a name, an equals sign and a value, with commas
between them.  Somebody who writes a key may put blanks around every name and every value, and may
leave parts empty.  Whatever was written like that is read back: the condition asks for each listed
property and for nothing else, in whatever order they stand.

Main definitions:

* `KeyPair` — a property and a value that a key can hold;
* `KeyPart`, `KeyPart.chars` — one part of a key as somebody writes it: nothing, or a pair;
* `keyText` — **a key as somebody writes it**.

Main results:

* `Condition.ofKeyPart_trimChars` — blanks around a part do not matter;
* `Condition.ofKey_keyText` — what is read back, pair by pair;
* `Condition.ofKey_written` — **the condition that a written key states**.
-/
import Mathlib.Data.List.Basic
import VoxelBake.Blockstate.Condition

set_option relaxedAutoImplicit false
set_option autoImplicit false

namespace VoxelBake

/-! ### Writing keys -/

/-- A run of blanks. -/
structure Blanks where
  /-- Its characters. -/
  chars : List Char
  /-- All of them are white space. -/
  isBlank : ∀ c ∈ chars, Text.isBlank c = true

/-- No blanks at all. -/
def Blanks.none : Blanks := ⟨[], fun _ h => by cases h⟩

/-- A property and a value that a key can hold: both without blanks at their ends, the name without
the signs that separate names and pairs, the value without the sign that separates pairs. -/
structure KeyPair where
  /-- The name of the property. -/
  name : String
  /-- Its value. -/
  value : String
  trim_name : Text.trim name = name
  trim_value : Text.trim value = value
  comma_name : ',' ∉ name.toList
  equals_name : '=' ∉ name.toList
  comma_value : ',' ∉ value.toList

/-- One part of a key as somebody writes it. -/
inductive KeyPart
  /-- Nothing but blanks. -/
  | empty (space : Blanks)
  /-- A pair, with blanks around its name and its value. -/
  | pair (e : KeyPair) (before afterName beforeValue after : Blanks)

namespace KeyPart

/-- The text of a part. -/
def chars : KeyPart → List Char
  | empty space => space.chars
  | pair e before afterName beforeValue after =>
      (before.chars ++ (e.name.toList ++ afterName.chars)) ++
        '=' :: (beforeValue.chars ++ (e.value.toList ++ after.chars))

/-- The pair in a part. -/
def pair? : KeyPart → Option KeyPair
  | empty _ => none
  | pair e _ _ _ _ => some e

end KeyPart

/-- A key as somebody writes it: its parts with commas between them. -/
def keyText (parts : List KeyPart) : String :=
  String.ofList ([','].intercalate (parts.map KeyPart.chars))

namespace KeyPart

theorem comma_not_mem_blanks (space : Blanks) : ',' ∉ space.chars := by
  intro h
  have hblank := space.isBlank ',' h
  revert hblank
  decide

theorem equals_not_mem_blanks (space : Blanks) : '=' ∉ space.chars := by
  intro h
  have hblank := space.isBlank '=' h
  revert hblank
  decide

theorem comma_not_mem_chars (part : KeyPart) : ',' ∉ part.chars := by
  cases part with
  | empty space => exact comma_not_mem_blanks space
  | pair e before afterName beforeValue after =>
      simp [chars, comma_not_mem_blanks, e.comma_name, e.comma_value]

end KeyPart

/-- The text between the commas of a key is what was written as its parts; a key without any parts
has the empty text as its one part. -/
theorem pieces_keyText (parts : List KeyPart) :
    Text.pieces ',' (keyText parts).toList
      = if parts.isEmpty then [[]] else parts.map KeyPart.chars := by
  rw [Text.pieces_eq_splitOn, keyText, String.toList_ofList]
  split
  · rename_i h
    rw [List.isEmpty_iff.1 h]
    rfl
  · rename_i h
    refine List.splitOn_intercalate ',' ?_ (by simpa using h)
    intro l hl
    obtain ⟨part, -, rfl⟩ := List.mem_map.1 hl
    exact part.comma_not_mem_chars

namespace Condition

/-! ### Reading keys -/

theorem equals_not_mem_of_blank {cs : List Char} (h : ∀ c ∈ cs, Text.isBlank c = true) :
    '=' ∉ cs :=
  KeyPart.equals_not_mem_blanks ⟨cs, h⟩

/-- Blanks around a part do not matter: they stand around its name or its value as well. -/
theorem ofKeyPart_trimChars (cs : List Char) : ofKeyPart (Text.trimChars cs) = ofKeyPart cs := by
  obtain ⟨l, r, hl, hr, hcs⟩ := Text.exists_append_trimChars cs
  have hsplit : Text.splitAtFirst '=' cs
      = (Text.splitAtFirst '=' (Text.trimChars cs)).map fun p => (l ++ p.1, p.2 ++ r) := by
    rw [hcs, Text.splitAtFirst_append_left (equals_not_mem_of_blank hl),
      Text.splitAtFirst_append_right (equals_not_mem_of_blank hr), Option.map_map, ← hcs]
    rfl
  rw [ofKeyPart, ofKeyPart, hsplit, Option.map_map]
  congr 1
  funext p
  simp only [Function.comp_apply, Text.trimChars_append_left hl, Text.trimChars_append_right hr]

/-- Blanks around a text do not matter to a text without blanks at its ends. -/
theorem trimChars_padded {s : String} (h : Text.trim s = s) (before after : Blanks) :
    Text.trimChars (before.chars ++ (s.toList ++ after.chars)) = s.toList := by
  rw [Text.trimChars_append_left before.isBlank, Text.trimChars_append_right after.isBlank,
    ← Text.toList_trim, h]

/-- A pair is read back from its part. -/
theorem ofKeyPart_chars (e : KeyPair) (before afterName beforeValue after : Blanks) :
    ofKeyPart (KeyPart.pair e before afterName beforeValue after).chars
      = some (e.name, [e.value]) := by
  have hname : '=' ∉ before.chars ++ (e.name.toList ++ afterName.chars) := by
    simp [KeyPart.equals_not_mem_blanks, e.equals_name]
  rw [ofKeyPart, KeyPart.chars, Text.splitAtFirst_append_left hname]
  simp only [Text.splitAtFirst, if_true, Option.map_some, List.append_nil,
    trimChars_padded e.trim_name, trimChars_padded e.trim_value, String.ofList_toList]

/-- A part is dropped if it is empty, and otherwise gives its pair. -/
theorem read_chars (part : KeyPart) :
    (if !(Text.trimChars part.chars).isEmpty then ofKeyPart (Text.trimChars part.chars) else none)
      = part.pair?.map fun e => (e.name, [e.value]) := by
  cases part with
  | empty space =>
      have hblank : Text.trimChars (KeyPart.empty space).chars = [] :=
        Text.trimChars_eq_nil_iff.2 space.isBlank
      rw [hblank]
      rfl
  | pair e before afterName beforeValue after =>
      -- the equals sign keeps the part from being empty
      have hne : (Text.trimChars
          (KeyPart.pair e before afterName beforeValue after).chars).isEmpty = false := by
        refine List.isEmpty_eq_false_iff.2 fun h => ?_
        have hblank := Text.trimChars_eq_nil_iff.1 h '=' (by simp [KeyPart.chars])
        revert hblank
        decide
      simp only [hne, Bool.not_false, if_true, KeyPart.pair?, Option.map_some, ofKeyPart_trimChars,
        ofKeyPart_chars]

/-- **What is read back from a key**, pair by pair. -/
theorem ofKey_keyText (parts : List KeyPart) :
    ofKey (keyText parts)
      = ofRequirements ((parts.filterMap KeyPart.pair?).map fun e => (e.name, [e.value])) := by
  rw [ofKey, pieces_keyText]
  split
  · rename_i h
    rw [List.isEmpty_iff.1 h]
    rfl
  · rw [List.map_map, List.filterMap_filter, List.filterMap_map, List.map_filterMap]
    congr 1
    exact List.filterMap_congr fun part _ => read_chars part

/-! ### What a key says -/

/-- **The condition that a written key states.**  Let a key be written with some pairs, in any
order, with any blanks around names and values and with any number of empty parts.  Its condition
asks about as many properties as there are pairs, and holds for a state exactly if each listed
property has the value beside it.  A key without pairs holds for every state. -/
theorem ofKey_written {pairs : List KeyPair} {parts : List KeyPart}
    (h : (parts.filterMap KeyPart.pair?).Perm pairs) :
    (ofKey (keyText parts)).specificity = pairs.length ∧
    (∀ p : Properties, (ofKey (keyText parts)).holds p = true ↔
      ∀ e ∈ pairs, p.get? e.name = some e.value) ∧
    (pairs = [] → ofKey (keyText parts) = always) := by
  rw [ofKey_keyText]
  refine ⟨?_, ?_, ?_⟩
  · rw [specificity_ofRequirements, List.length_map, h.length_eq]
  · intro p
    rw [holds_ofRequirements, List.all_map, List.all_eq_true]
    simp only [h.mem_iff, Function.comp_apply, propertyHolds_iff, List.mem_singleton,
      exists_eq_left]
  · rintro rfl
    rw [h.eq_nil]
    rfl

/-- A blank and a tabulator. -/
def gap : Blanks := ⟨[' ', '\t'], List.all_eq_true.1 (by decide)⟩

/-- A direction. -/
def facingNorth : KeyPair where
  name := "facing"
  value := "north"
  trim_name := by decide
  trim_value := by decide
  comma_name := by decide
  equals_name := by decide
  comma_value := by decide

/-- A value that looks like a pair. -/
def oddPair : KeyPair where
  name := "odd one"
  value := "a=b"
  trim_name := by decide
  trim_value := by decide
  comma_name := by decide
  equals_name := by decide
  comma_value := by decide

/-- A key with two pairs and two empty parts. -/
def looseKey : List KeyPart :=
  [.empty gap, .pair oddPair gap .none gap .none, .empty .none,
    .pair facingNorth .none gap .none gap]

example : keyText looseKey = " \t, \todd one= \ta=b,,facing \t=north \t" := by decide

theorem ofKey_written_loose :
    (looseKey.filterMap KeyPart.pair?).Perm [facingNorth, oddPair] ∧
    (ofKey (keyText looseKey)).specificity = 2 ∧
    ∀ p : Properties, (ofKey (keyText looseKey)).holds p = true ↔
      ∀ e ∈ [facingNorth, oddPair], p.get? e.name = some e.value := by
  have hperm : (looseKey.filterMap KeyPart.pair?).Perm [facingNorth, oddPair] :=
    List.Perm.swap _ _ _
  obtain ⟨hcount, hholds, -⟩ := ofKey_written hperm
  exact ⟨hperm, hcount, hholds⟩

end Condition

end VoxelBake
