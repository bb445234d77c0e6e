/-
Blanks and the pieces of a text between separators.

* `Text.isBlank` — the characters that count as white space;
* `Text.trim` — a text without the blanks at its two ends;
* `Text.splitAtFirst` — the parts before and after the first occurrence of a character;
* `Text.pieces` — all parts between the occurrences of a character;
* `Text.readInt64`, `Text.readBool` — values written as text;
* `Text.trimChars_append_left`, `Text.trimChars_append_right`, `Text.exists_append_trimChars` —
  blanks at the two ends do not count, and nothing else is cut off;
* `Text.splitAtFirst_append_left`, `Text.splitAtFirst_append_right`,
  `Text.splitAtFirst_eq_some_iff`, `Text.pieces_eq_splitOn` — how texts fall apart that were put
  together.
-/

set_option relaxedAutoImplicit false
set_option autoImplicit false

namespace VoxelBake.Text

/-! ### Blanks -/

/-- Ranges of code points, first and last included, of the characters that count as white
space. -/
def blankRanges : List (Nat × Nat) :=
  [(0x9, 0xD), (0x20, 0x20), (0x85, 0x85), (0xA0, 0xA0), (0x1680, 0x1680), (0x2000, 0x200A),
   (0x2028, 0x2029), (0x202F, 0x202F), (0x205F, 0x205F), (0x3000, 0x3000)]

/-- Whether a character is white space. -/
def isBlank (c : Char) : Bool :=
  blankRanges.any fun r => r.1 ≤ c.toNat && c.toNat ≤ r.2

/-- Characters without the blanks at the two ends. -/
def trimChars (cs : List Char) : List Char :=
  (((cs.dropWhile isBlank).reverse).dropWhile isBlank).reverse

/-- A text without the blanks at its two ends. -/
def trim (s : String) : String := String.ofList (trimChars s.toList)

@[simp] theorem toList_trim (s : String) : (trim s).toList = trimChars s.toList :=
  String.toList_ofList

theorem trimChars_append_left {l : List Char} (hl : ∀ c ∈ l, isBlank c = true) (cs : List Char) :
    trimChars (l ++ cs) = trimChars cs := by
  rw [trimChars, List.dropWhile_append_of_pos hl, trimChars]

theorem trimChars_append_right {r : List Char} (hr : ∀ c ∈ r, isBlank c = true) (cs : List Char) :
    trimChars (cs ++ r) = trimChars cs := by
  have hr' : ∀ c ∈ r.reverse, isBlank c = true := fun c hc => hr c (List.mem_reverse.1 hc)
  rw [trimChars, trimChars, List.dropWhile_append]
  split
  · rename_i hblank
    have hr₀ : (r ++ []).dropWhile isBlank = [] := List.dropWhile_append_of_pos hr
    rw [List.append_nil] at hr₀
    rw [hr₀, List.isEmpty_iff.1 hblank]
  · rw [List.reverse_append, List.dropWhile_append_of_pos hr']

/-- What is cut off at the two ends is blank. -/
theorem exists_append_trimChars (cs : List Char) :
    ∃ l r, (∀ c ∈ l, isBlank c = true) ∧ (∀ c ∈ r, isBlank c = true) ∧
      cs = l ++ (trimChars cs ++ r) := by
  refine ⟨cs.takeWhile isBlank, ((cs.dropWhile isBlank).reverse.takeWhile isBlank).reverse,
    fun c hc => List.all_eq_true.1 List.all_takeWhile c hc,
    fun c hc => List.all_eq_true.1 List.all_takeWhile c (List.mem_reverse.1 hc), ?_⟩
  rw [trimChars, ← List.reverse_append, List.takeWhile_append_dropWhile, List.reverse_reverse,
    List.takeWhile_append_dropWhile]

theorem trimChars_eq_nil_iff {cs : List Char} :
    trimChars cs = [] ↔ ∀ c ∈ cs, isBlank c = true := by
  constructor
  · intro h
    obtain ⟨l, r, hl, hr, hcs⟩ := exists_append_trimChars cs
    rw [h, List.nil_append] at hcs
    intro c hc
    rw [hcs] at hc
    exact (List.mem_append.1 hc).elim (hl c) (hr c)
  · intro h
    simpa [trimChars] using trimChars_append_left h []

/-! ### Separators -/

/-- The characters before and after the first `sep`, if there is one. -/
def splitAtFirst (sep : Char) : List Char → Option (List Char × List Char)
  | [] => none
  | c :: rest =>
      if c = sep then some ([], rest)
      else (splitAtFirst sep rest).map fun p => (c :: p.1, p.2)

/-- The pieces between the occurrences of `sep`, empty ones included. -/
def pieces (sep : Char) : List Char → List (List Char)
  | [] => [[]]
  | c :: rest =>
      if c = sep then [] :: pieces sep rest
      else
        match pieces sep rest with
        | [] => [[c]]
        | p :: ps => (c :: p) :: ps

theorem pieces_ne_nil (sep : Char) (cs : List Char) : pieces sep cs ≠ [] := by
  cases cs with
  | nil => simp [pieces]
  | cons c rest =>
      unfold pieces
      split
      · simp
      · split <;> simp

theorem splitAtFirst_eq_none_iff {sep : Char} {cs : List Char} :
    splitAtFirst sep cs = none ↔ sep ∉ cs := by
  induction cs with
  | nil => simp [splitAtFirst]
  | cons c rest ih =>
      by_cases h : c = sep
      · simp [splitAtFirst, h]
      · have h' : ¬ sep = c := fun e => h e.symm
        simp [splitAtFirst, h, h', ih]

theorem splitAtFirst_append_left {sep : Char} {l : List Char} (hl : sep ∉ l) (cs : List Char) :
    splitAtFirst sep (l ++ cs) = (splitAtFirst sep cs).map fun p => (l ++ p.1, p.2) := by
  induction l with
  | nil => simp
  | cons c l ih =>
      have hc : c ≠ sep := fun h => hl (h ▸ List.mem_cons_self)
      have hrest := ih fun h => hl (List.mem_cons_of_mem _ h)
      simp only [List.cons_append, splitAtFirst, hc, if_false, hrest, Option.map_map]
      rfl

theorem splitAtFirst_append_right {sep : Char} {r : List Char} (hr : sep ∉ r) (cs : List Char) :
    splitAtFirst sep (cs ++ r) = (splitAtFirst sep cs).map fun p => (p.1, p.2 ++ r) := by
  induction cs with
  | nil => simpa [splitAtFirst] using splitAtFirst_eq_none_iff.2 hr
  | cons c cs ih =>
      simp only [List.cons_append, splitAtFirst, ih]
      split
      · rfl
      · simp only [Option.map_map]
        rfl

/-- A text falls apart at the separator that has none before it. -/
theorem splitAtFirst_eq_some_iff {sep : Char} {cs l r : List Char} :
    splitAtFirst sep cs = some (l, r) ↔ sep ∉ l ∧ cs = l ++ sep :: r := by
  constructor
  · intro h
    induction cs generalizing l with
    | nil => cases h
    | cons c rest ih =>
        rw [splitAtFirst] at h
        split at h
        · rename_i hc
          cases h
          exact ⟨List.not_mem_nil, by rw [hc, List.nil_append]⟩
        · rename_i hc
          obtain ⟨⟨l', r'⟩, hsplit, heq⟩ := Option.map_eq_some_iff.1 h
          cases heq
          obtain ⟨hl, rfl⟩ := ih hsplit
          exact ⟨by simp [Ne.symm hc, hl], rfl⟩
  · rintro ⟨hl, rfl⟩
    rw [splitAtFirst_append_left hl]
    simp [splitAtFirst]

/-- The pieces are those of the library's splitting. -/
theorem pieces_eq_splitOn (sep : Char) (cs : List Char) : pieces sep cs = cs.splitOn sep := by
  rw [List.splitOn]
  induction cs with
  | nil => rfl
  | cons c cs ih =>
      rw [pieces, List.splitOnP_cons_eq_if_modifyHead, ← ih]
      by_cases hc : c = sep
      · simp [hc]
      · simp only [hc, if_false, beq_iff_eq]
        cases h : pieces sep cs with
        | nil => exact absurd h (pieces_ne_nil sep cs)
        | cons p ps => rfl

/-! ### Values written as text -/

/-- The number written by decimal digits, at least one of them. -/
def readDigits (cs : List Char) : Option Nat :=
  if cs.isEmpty || !cs.all Char.isDigit then none
  else some (cs.foldl (fun n c => 10 * n + (c.toNat - 48)) 0)

/-- A whole number with an optional sign, provided it fits into 64 bits. -/
def readInt64 (s : String) : Option Int := do
  let n ← match s.toList with
    | '-' :: ds => (readDigits ds).map fun n => -(n : Int)
    | '+' :: ds => (readDigits ds).map fun n => (n : Int)
    | ds => (readDigits ds).map fun n => (n : Int)
  if -0x8000000000000000 ≤ n ∧ n ≤ 0x7fffffffffffffff then some n else none

/-- A truth value written out. -/
def readBool (s : String) : Option Bool :=
  if s = "true" then some true else if s = "false" then some false else none

end VoxelBake.Text
