/-
**A name is read back from its written form.**

A name is kept as two halves in lower case and written with a colon between them.  The first colon
of a text is the one that counts, so a space must not have one, while a path may; and a path has no
backslashes, while a space may.  What comes out of reading a text is of this form, since lower case
makes neither a colon nor a backslash out of another character; and a name of this form does not
change when it is read again, since small letters stay as they are.

That lower case settles after one pass is a property of its table: the small letter of a run of
capital letters is never a capital letter of another run.  Two runs either lie apart or alternate.

Main definitions:

* `Text.Run.small`, `Text.Run.clear` — where the small letters of a run lie, and that no run begins
  again with them;
* `Text.Settled` — a character that lower case keeps;
* `Identifier.Canonical` — **a name as it is kept**.

Main results:

* `Text.lowerChar_spec`, `Text.lowerAfter_spec` — what the characters of a text in lower case are;
* `Text.lower_lower` — a text in lower case stays as it is;
* `Text.mem_of_mem_lower` — lower case makes no signs;
* `Identifier.canonical_iff` — the names that can be read are the canonical ones;
* `Identifier.parse_written` — **names and their written forms**.
-/
import Mathlib.Data.List.Basic
import VoxelBake.Identifier

set_option relaxedAutoImplicit false
set_option autoImplicit false

namespace VoxelBake

namespace Text

/-! ### Small letters of a run -/

namespace Run

/-- The code point that a run puts in place of a capital letter. -/
def small (r : Run) (n : Nat) : Nat := (n + r.shift).toNat

/-- No capital letter of the run lies between two code points. -/
def misses (r : Run) (low high : Nat) : Bool := high < r.first || r.last < low

/-- The run takes every second code point, and the given one is not among them. -/
def skips (r : Run) (low : Nat) : Bool := r.stride == 2 && (low + r.first) % 2 == 1

/-- No small letter of the run is a capital letter of any run: those runs lie elsewhere, or their
capital letters alternate with these small letters. -/
def clear (r : Run) : Bool :=
  capitalRuns.all fun other => other.misses (r.small r.first) (r.small r.last) ||
    ((r.first == r.last || r.stride == 2) && other.skips (r.small r.first))

/-- The small letters of the run are characters beyond the signs of the first 97 code points, and
the dotted capital I is not among them. -/
def lettersOnly (r : Run) : Bool :=
  97 ≤ r.small r.first && (r.small r.last < 0xD800 || 0xDFFF < r.small r.first) &&
    r.small r.last < 0x110000 && (r.small r.last < 0x130 || 0x130 < r.small r.first)

theorem clear_of_mem : ∀ r ∈ capitalRuns, r.clear = true := by decide +kernel

theorem lettersOnly_of_mem : ∀ r ∈ capitalRuns, r.lettersOnly = true := by decide +kernel

variable {r : Run} {n : Nat}

theorem covers_iff : r.covers n = true ↔
    r.first ≤ n ∧ n ≤ r.last ∧ (n - r.first) % r.stride = 0 := by
  simp [covers, and_assoc]

/-- The small letters of a run lie between those of its first and its last capital letter. -/
theorem small_mem (hr : r ∈ capitalRuns) (h : r.covers n = true) :
    r.small r.first ≤ r.small n ∧ r.small n ≤ r.small r.last ∧
      r.small n + r.first = r.small r.first + n := by
  obtain ⟨hfirst, hlast, -⟩ := covers_iff.1 h
  have hletters := lettersOnly_of_mem r hr
  simp only [lettersOnly, Bool.and_eq_true, decide_eq_true_eq] at hletters
  simp only [small] at hletters ⊢
  omega

theorem small_spec (hr : r ∈ capitalRuns) (h : r.covers n = true) :
    (r.small n).isValidChar ∧ 97 ≤ r.small n ∧ r.small n ≠ 0x130 := by
  have hletters := lettersOnly_of_mem r hr
  simp only [lettersOnly, Bool.and_eq_true, Bool.or_eq_true, decide_eq_true_eq] at hletters
  obtain ⟨hlow, hhigh, -⟩ := small_mem hr h
  simp only [Nat.isValidChar]
  omega

/-- **The small letter of a capital letter is not a capital letter.** -/
theorem covers_small (hr : r ∈ capitalRuns) (h : r.covers n = true) {other : Run}
    (ho : other ∈ capitalRuns) : other.covers (r.small n) = false := by
  obtain ⟨hlow, hhigh, hshift⟩ := small_mem hr h
  obtain ⟨hfirst, hlast, hstride⟩ := covers_iff.1 h
  have hclear := List.all_eq_true.1 (clear_of_mem r hr) other ho
  simp only [misses, skips, Bool.or_eq_true, Bool.and_eq_true, decide_eq_true_eq,
    beq_iff_eq] at hclear
  rw [Bool.eq_false_iff, ne_eq, covers_iff]
  rintro ⟨hfirst', hlast', hstride'⟩
  rcases hclear with hapart | ⟨hown, hother, hodd⟩
  · omega
  · -- the small letter is an even number of places behind the first one
    rw [hother] at hstride'
    rcases hown with hsingle | htwo
    · omega
    · rw [htwo] at hstride
      omega

end Run

/-! ### Lower case stays -/

/-- A character that lower case keeps. -/
def Settled (c : Char) : Prop := lowerChar c = c ∧ c ≠ 'İ'

theorem Settled.ne_sigma {c : Char} (h : Settled c) : c ≠ 'Σ' := by
  rintro rfl
  have hkept := h.1
  revert hkept
  decide +kernel

theorem toNat_ofNat {n : Nat} (h : n.isValidChar) : (Char.ofNat n).toNat = n := by
  rw [Char.ofNat, dif_pos h]
  rfl

theorem settled_of_lt {c : Char} (h : c.toNat < 128) (hsmall : ¬ (65 ≤ c.toNat ∧ c.toNat ≤ 90)) :
    Settled c := by
  refine ⟨?_, ?_⟩
  · simp only [lowerChar, h, if_true, Bool.and_eq_true, decide_eq_true_eq, hsmall, if_false]
  · rintro rfl
    revert h
    decide

theorem settled_of_not_covers {c : Char} (h : 128 ≤ c.toNat)
    (hruns : ∀ r ∈ capitalRuns, r.covers c.toNat = false) (hdotted : c ≠ 'İ') : Settled c := by
  have hnone : capitalRuns.find? (·.covers c.toNat) = none := by
    simpa [List.find?_eq_none] using hruns
  refine ⟨?_, hdotted⟩
  simp only [lowerChar, Nat.not_lt.2 h, if_false, hnone]

/-- Where a run puts small letters, they stay. -/
theorem settled_small {r : Run} {n : Nat} (hr : r ∈ capitalRuns) (h : r.covers n = true) :
    97 ≤ (Char.ofNat (r.small n)).toNat ∧ Settled (Char.ofNat (r.small n)) := by
  obtain ⟨hvalid, hlow, hdotted⟩ := Run.small_spec hr h
  have hcode := toNat_ofNat hvalid
  rw [hcode]
  refine ⟨hlow, ?_⟩
  by_cases hlt : r.small n < 128
  · exact settled_of_lt (by omega) (by omega)
  · refine settled_of_not_covers (by omega) ?_ ?_
    · intro other ho
      rw [hcode]
      exact Run.covers_small hr h ho
    · intro heq
      rw [heq] at hcode
      exact hdotted hcode.symm

/-- **The small letter of a character**: the character itself, or a letter beyond the first 97 code
points that stays. -/
theorem lowerChar_spec {c : Char} (h : c ≠ 'İ') :
    Settled (lowerChar c) ∧ (lowerChar c = c ∨ 97 ≤ (lowerChar c).toNat) := by
  by_cases hlt : c.toNat < 128
  · by_cases hcapital : 65 ≤ c.toNat ∧ c.toNat ≤ 90
    · have hlower : lowerChar c = Char.ofNat (c.toNat + 32) := by simp [lowerChar, hlt, hcapital]
      have hcode : (Char.ofNat (c.toNat + 32)).toNat = c.toNat + 32 :=
        toNat_ofNat (Or.inl (by omega))
      rw [hlower, hcode]
      exact ⟨settled_of_lt (by omega) (by omega), Or.inr (by omega)⟩
    · have hsettled := settled_of_lt hlt hcapital
      rw [hsettled.1]
      exact ⟨hsettled, Or.inl rfl⟩
  · cases hfind : capitalRuns.find? (·.covers c.toNat) with
    | some r =>
        have hlower : lowerChar c = Char.ofNat (r.small c.toNat) := by
          simp only [lowerChar, hlt, if_false, hfind, Run.small]
        have hcovers := List.find?_some hfind
        obtain ⟨hcode, hsettled⟩ := settled_small (List.mem_of_find?_eq_some hfind) hcovers
        rw [hlower]
        exact ⟨hsettled, Or.inr hcode⟩
    | none =>
        have hsettled : Settled c := by
          refine settled_of_not_covers (Nat.not_lt.1 hlt) ?_ h
          simpa [List.find?_eq_none] using hfind
        rw [hsettled.1]
        exact ⟨hsettled, Or.inl rfl⟩

/-- What stands for a capital sigma or a dotted capital I. -/
theorem settled_special : ∀ c ∈ ['ς', 'σ', 'i', '\u0307'], Settled c ∧ 97 ≤ c.toNat := by
  intro c hc
  simp only [List.mem_cons, List.not_mem_nil, or_false] at hc
  rcases hc with rfl | rfl | rfl | rfl <;>
    exact ⟨⟨by decide +kernel, by decide⟩, by decide⟩

/-- **The characters of a text in lower case** stay, and each was there before or is a letter beyond
the first 97 code points. -/
theorem lowerAfter_spec {cs before : List Char} {c : Char} (h : c ∈ lowerAfter before cs) :
    Settled c ∧ (c ∈ cs ∨ 97 ≤ c.toNat) := by
  induction cs generalizing before with
  | nil => cases h
  | cons a rest ih =>
      rw [lowerAfter, List.mem_append] at h
      rcases h with hfirst | hrest
      · -- either sigma, and what stands for the dotted capital I, are among four small letters
        have hspecial : c ∈ ['ς', 'σ', 'i', '\u0307'] →
            Settled c ∧ (c ∈ a :: rest ∨ 97 ≤ c.toNat) :=
          fun hc => (settled_special c hc).imp_right Or.inr
        split_ifs at hfirst with hsigma hend hdotted
        · exact hspecial (by simp [List.mem_singleton.1 hfirst])
        · exact hspecial (by simp [List.mem_singleton.1 hfirst])
        · exact hspecial (List.mem_cons_of_mem _ (List.mem_cons_of_mem _ hfirst))
        · obtain rfl := List.mem_singleton.1 hfirst
          obtain ⟨hsettled, hkept | hletter⟩ := lowerChar_spec hdotted
          · refine ⟨hsettled, Or.inl ?_⟩
            rw [hkept]
            exact List.mem_cons_self
          · exact ⟨hsettled, Or.inr hletter⟩
      · obtain ⟨hsettled, hmem | hletter⟩ := ih hrest
        · exact ⟨hsettled, Or.inl (List.mem_cons_of_mem _ hmem)⟩
        · exact ⟨hsettled, Or.inr hletter⟩

/-- Characters that lower case keeps stay, wherever they stand. -/
theorem lowerAfter_of_settled {cs : List Char} (h : ∀ c ∈ cs, Settled c) (before : List Char) :
    lowerAfter before cs = cs := by
  induction cs generalizing before with
  | nil => rfl
  | cons a rest ih =>
      obtain ⟨ha, hrest⟩ := List.forall_mem_cons.1 h
      rw [lowerAfter, if_neg ha.ne_sigma, if_neg ha.2, ha.1, ih hrest, List.singleton_append]

theorem lower_of_settled {s : String} (h : ∀ c ∈ s.toList, Settled c) : lower s = s := by
  rw [lower, lowerAfter_of_settled h, String.ofList_toList]

theorem settled_of_mem_lower {s : String} {c : Char} (h : c ∈ (lower s).toList) : Settled c := by
  rw [lower, String.toList_ofList] at h
  exact (lowerAfter_spec h).1

/-- Lower case makes no signs: a sign before the 97th code point was there before. -/
theorem mem_of_mem_lower {s : String} {c : Char} (hc : c.toNat < 97)
    (h : c ∈ (lower s).toList) : c ∈ s.toList := by
  rw [lower, String.toList_ofList] at h
  exact (lowerAfter_spec h).2.resolve_right (Nat.not_le.2 hc)

/-- **A text in lower case stays as it is.** -/
theorem lower_lower (s : String) : lower (lower s) = lower s :=
  lower_of_settled fun _ => settled_of_mem_lower

end Text

namespace Identifier

/-! ### Names as they are kept -/

theorem forwardSlashes_of_not_mem {s : String} (h : '\\' ∉ s.toList) : forwardSlashes s = s := by
  have hkept : (s.toList.map fun c => if c = '\\' then '/' else c) = s.toList := by
    refine (List.map_congr_left fun c hc => ?_).trans (List.map_id _)
    have hne : c ≠ '\\' := fun hback => h (hback ▸ hc)
    exact if_neg hne
  rw [forwardSlashes, hkept, String.ofList_toList]

theorem backslash_not_mem_forwardSlashes (s : String) : '\\' ∉ (forwardSlashes s).toList := by
  rw [forwardSlashes, String.toList_ofList, List.mem_map]
  rintro ⟨c, -, hc⟩
  split_ifs at hc with hback
  · cases hc
  · exact hback hc

/-- **A name as it is kept**: both halves in lower case, no colon in the space and no backslash in
the path. -/
structure Canonical (id : Identifier) : Prop where
  /-- The space is in lower case. -/
  space_settled : ∀ c ∈ id.space.toList, Text.Settled c
  /-- The path is in lower case. -/
  path_settled : ∀ c ∈ id.path.toList, Text.Settled c
  /-- The first colon of the written form comes after the space. -/
  colon_space : ':' ∉ id.space.toList
  /-- Steps of the path are parted by forward slashes. -/
  backslash_path : '\\' ∉ id.path.toList

/-- What two halves make is canonical if there is no colon in the first one. -/
theorem canonical_ofParts {space : String} (h : ':' ∉ space.toList) (path : String) :
    (ofParts space path).Canonical where
  space_settled _ := Text.settled_of_mem_lower
  path_settled _ := Text.settled_of_mem_lower
  colon_space hmem := h (Text.mem_of_mem_lower (by decide) hmem)
  backslash_path hmem :=
    backslash_not_mem_forwardSlashes path (Text.mem_of_mem_lower (by decide) hmem)

/-- **What is read is canonical.** -/
theorem canonical_parse (s : String) : (parse s).Canonical := by
  rw [parse]
  split
  · rename_i space path hsplit
    refine canonical_ofParts ?_ _
    rw [String.toList_ofList]
    exact (Text.splitAtFirst_eq_some_iff.1 hsplit).1
  · exact canonical_ofParts (by decide) s

namespace Canonical

variable {id : Identifier}

theorem ofParts_eq (h : id.Canonical) : ofParts id.space id.path = id := by
  rw [ofParts, forwardSlashes_of_not_mem h.backslash_path, Text.lower_of_settled h.space_settled,
    Text.lower_of_settled h.path_settled]

/-- **A canonical name is read back from its written form.** -/
theorem parse_text (h : id.Canonical) : parse id.text = id := by
  have hsplit : Text.splitAtFirst ':' id.text.toList = some (id.space.toList, id.path.toList) :=
    Text.splitAtFirst_eq_some_iff.2 ⟨h.colon_space, by simp [text]⟩
  rw [parse, hsplit]
  simp only [String.ofList_toList]
  exact h.ofParts_eq

theorem text_inj (h : id.Canonical) {other : Identifier} (ho : other.Canonical) :
    id.text = other.text ↔ id = other := by
  refine ⟨fun htext => ?_, fun heq => heq ▸ rfl⟩
  rw [← h.parse_text, htext, ho.parse_text]

end Canonical

/-- The names that can be read are the canonical ones. -/
theorem canonical_iff {id : Identifier} : id.Canonical ↔ ∃ s, parse s = id := by
  constructor
  · intro h
    exact ⟨id.text, h.parse_text⟩
  · rintro ⟨s, rfl⟩
    exact canonical_parse s

/-- **Names and their written forms.**  Whatever a text says, its name is read back from the
written form of the name; two texts have the same name exactly if their names are written in the
same way; and a name put into its own space is the same name. -/
theorem parse_written (s : String) :
    parse (parse s).text = parse s ∧
    (∀ t, parse s = parse t ↔ (parse s).text = (parse t).text) ∧
    (parse s).withPath (parse s).path = parse s := by
  have h := canonical_parse s
  exact ⟨h.parse_text, fun t => (h.text_inj (canonical_parse t)).symm, h.ofParts_eq⟩

example : parse "A\\b:C\\d:E" = ⟨"a\\b", "c/d:e"⟩ := by decide +kernel

-- halves that were not read from a text may be written in the same way
example : (⟨"a:b", "c"⟩ : Identifier).text = (⟨"a", "b:c"⟩ : Identifier).text := by decide +kernel

end Identifier

end VoxelBake
