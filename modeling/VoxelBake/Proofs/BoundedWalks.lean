/-
**Bounded walks and the chains that they follow.**

A walk looks up one key after another until it finds a value, finds nothing, or has made as many
hops as it may.  The chain itself has no such bound: `Chain.Reaches` says after how many hops it
comes to which key, and it may go on for ever.  This module compares the two.  What a walk finds is
what the chain comes to within the bound; and a chain through finitely many keys that comes to no
end within as many hops as there are keys comes back to one of them, so that it never ends.

Main definitions:

* `Chain.EndsAt` — the value that a chain comes to, and after how many hops;
* `Chain.BreaksOff` — a chain that comes to a key under which there is nothing;
* `Chain.GoesRound` — a chain that comes back to a key.

Main results:

* `Chain.outcome_eq_ok_iff`, `Chain.outcome_eq_missing_iff`, `Chain.outcome_eq_tooDeep_iff` —
  **the end of a walk**, by the chain;
* `Chain.GoesRound.next_of_reaches` — a chain that comes back goes on at all its keys;
* `Chain.goesRound_of_long` — a chain with more hops than keys comes back;
* `Chain.cases_of_keys` — **every chain through finitely many keys** ends, breaks off or goes round.
-/
import Mathlib.Data.Finset.Card
import VoxelBake.Chain

set_option relaxedAutoImplicit false
set_option autoImplicit false

namespace VoxelBake.Chain

variable {κ β : Type} {lookup : κ → Step κ β} {k l : κ} {n : Nat}

/-! ### Chains -/

/-- The chain that starts at a key comes after some hops to a value. -/
def EndsAt (lookup : κ → Step κ β) (k : κ) (n : Nat) (v : β) : Prop :=
  ∃ l, Reaches lookup k n l ∧ lookup l = .done v

/-- The chain that starts at a key comes after some hops to a key under which there is nothing. -/
def BreaksOff (lookup : κ → Step κ β) (k : κ) (n : Nat) : Prop :=
  ∃ l, Reaches lookup k n l ∧ lookup l = .missing

/-- The chain that starts at a key comes twice to the same key. -/
def GoesRound (lookup : κ → Step κ β) (k : κ) : Prop :=
  ∃ n l m, Reaches lookup k n l ∧ Reaches lookup l (m + 1) l

namespace Reaches

/-- A chain comes to one key only after a number of hops. -/
theorem unique (h : Reaches lookup k n l) : ∀ {l' : κ}, Reaches lookup k n l' → l' = l := by
  induction h with
  | here =>
      intro l' h'
      cases h'
      rfl
  | hop _ hnext ih =>
      intro l' h'
      cases h' with
      | hop hr' hnext' =>
          obtain rfl := ih hr'
          rw [hnext] at hnext'
          exact (Step.next.inj hnext').symm

theorem trans (h : Reaches lookup k n l) {m : Nat} {j : κ} (h' : Reaches lookup l m j) :
    Reaches lookup k (n + m) j := by
  induction h' with
  | here => exact h
  | hop _ hnext ih => exact .hop ih hnext

/-- On the way to a key the chain comes to a key after every smaller number of hops. -/
theorem stop (h : Reaches lookup k n l) : ∀ {m : Nat}, m ≤ n →
    ∃ j, Reaches lookup k m j ∧ Reaches lookup j (n - m) l := by
  induction h with
  | here =>
      intro m hm
      obtain rfl : m = 0 := Nat.le_zero.1 hm
      exact ⟨k, .here, .here⟩
  | @hop n l l' hr hnext ih =>
      intro m hm
      rcases Nat.eq_or_lt_of_le hm with rfl | hlt
      · refine ⟨l', .hop hr hnext, ?_⟩
        rw [Nat.sub_self]
        exact .here
      · obtain ⟨j, hkj, hjl⟩ := ih (Nat.le_of_lt_succ hlt)
        refine ⟨j, hkj, ?_⟩
        rw [Nat.succ_sub (Nat.le_of_lt_succ hlt)]
        exact .hop hjl hnext

/-- The chain goes on at every key that it comes to before another one. -/
theorem next_of_lt (h : Reaches lookup k n l) {m : Nat} {j : κ} (hj : Reaches lookup k m j)
    (hm : m < n) : ∃ j', lookup j = .next j' := by
  obtain ⟨i, hi, -⟩ := h.stop (Nat.succ_le_of_lt hm)
  cases hi with
  | hop hr hnext =>
      obtain rfl := hr.unique hj
      exact ⟨_, hnext⟩

/-- The keys that a chain comes to on the way to another one. -/
theorem exists_stops (h : Reaches lookup k n l) :
    ∃ stops : Nat → κ, ∀ m ≤ n, Reaches lookup k m (stops m) := by
  have hstop : ∀ m, ∃ j, m ≤ n → Reaches lookup k m j := by
    intro m
    by_cases hm : m ≤ n
    · obtain ⟨j, hj, -⟩ := h.stop hm
      exact ⟨j, fun _ => hj⟩
    · exact ⟨l, fun hle => absurd hle hm⟩
  exact Classical.axiomOfChoice hstop

/-- A chain comes to one key only at which it does not go on. -/
theorem end_unique (h : Reaches lookup k n l) (hl : ∀ j, lookup l ≠ .next j) {m : Nat} {l' : κ}
    (h' : Reaches lookup k m l') (hl' : ∀ j, lookup l' ≠ .next j) : m = n ∧ l' = l := by
  rcases Nat.lt_trichotomy m n with hlt | rfl | hlt
  · obtain ⟨j, hj⟩ := h.next_of_lt h' hlt
    exact absurd hj (hl' j)
  · exact ⟨rfl, h.unique h'⟩
  · obtain ⟨j, hj⟩ := h'.next_of_lt h hlt
    exact absurd hj (hl j)

end Reaches

/-- A chain comes to one value only. -/
theorem EndsAt.unique {v : β} (h : EndsAt lookup k n v) {m : Nat} {w : β}
    (h' : EndsAt lookup k m w) : m = n ∧ w = v := by
  obtain ⟨l, hr, hl⟩ := h
  obtain ⟨l', hr', hl'⟩ := h'
  obtain ⟨rfl, rfl⟩ := hr.end_unique (by simp [hl]) hr' (by simp [hl'])
  exact ⟨rfl, Step.done.inj (hl'.symm.trans hl)⟩

/-- A chain that comes to a value does not break off. -/
theorem EndsAt.not_breaksOff {v : β} (h : EndsAt lookup k n v) {m : Nat} :
    ¬ BreaksOff lookup k m := by
  rintro ⟨l', hr', hl'⟩
  obtain ⟨l, hr, hl⟩ := h
  obtain ⟨-, rfl⟩ := hr.end_unique (by simp [hl]) hr' (by simp [hl'])
  rw [hl] at hl'
  cases hl'

/-! ### The end of a walk -/

/-- The first hops of a walk follow the chain. -/
theorem outcome_follow_add (h : Reaches lookup k n l) (hops : Nat) :
    (follow lookup (hops + n) k).outcome = (follow lookup hops l).outcome := by
  induction h generalizing hops with
  | here => rfl
  | @hop n l l' _ hnext ih =>
      have hshift : hops + (n + 1) = hops + 1 + n := by omega
      rw [hshift, ih, follow_succ_of_next hnext]

/-- Every walk ends at a value, at nothing, or at its bound. -/
theorem walk_cases (lookup : κ → Step κ β) (k : κ) (hops : Nat) :
    (∃ n ≤ hops, ∃ v, EndsAt lookup k n v) ∨ (∃ n ≤ hops, BreaksOff lookup k n) ∨
      ∃ l, Reaches lookup k (hops + 1) l := by
  have step : ∀ {n : Nat} {l : κ}, Reaches lookup k n l →
      (∃ v, EndsAt lookup k n v) ∨ BreaksOff lookup k n ∨ ∃ l', Reaches lookup k (n + 1) l' := by
    intro n l h
    cases hl : lookup l with
    | done v => exact .inl ⟨v, l, h, hl⟩
    | missing => exact .inr (.inl ⟨l, h, hl⟩)
    | next l' => exact .inr (.inr ⟨l', .hop h hl⟩)
  induction hops with
  | zero =>
      rcases step .here with hend | hbreak | hlong
      · exact .inl ⟨0, le_rfl, hend⟩
      · exact .inr (.inl ⟨0, le_rfl, hbreak⟩)
      · exact .inr (.inr hlong)
  | succ hops ih =>
      rcases ih with ⟨n, hn, hend⟩ | ⟨n, hn, hbreak⟩ | ⟨l, hl⟩
      · exact .inl ⟨n, Nat.le_succ_of_le hn, hend⟩
      · exact .inr (.inl ⟨n, Nat.le_succ_of_le hn, hbreak⟩)
      · rcases step hl with hend | hbreak | hlong
        · exact .inl ⟨hops + 1, le_rfl, hend⟩
        · exact .inr (.inl ⟨hops + 1, le_rfl, hbreak⟩)
        · exact .inr (.inr hlong)

theorem EndsAt.outcome {v : β} (h : EndsAt lookup k n v) {hops : Nat} (hn : n ≤ hops) :
    (follow lookup hops k).outcome = .ok v := by
  obtain ⟨l, hr, hl⟩ := h
  rw [← Nat.sub_add_cancel hn, outcome_follow_add hr, follow_of_done hl]

theorem BreaksOff.outcome (h : BreaksOff lookup k n) {hops : Nat} (hn : n ≤ hops) :
    (follow lookup hops k).outcome = .error .missing := by
  obtain ⟨l, hr, hl⟩ := h
  rw [← Nat.sub_add_cancel hn, outcome_follow_add hr, follow_of_missing hl]

theorem Reaches.outcome {hops : Nat} (h : Reaches lookup k (hops + 1) l) :
    (follow lookup hops k).outcome = .error .tooDeep := by
  cases h with
  | hop hr hnext =>
      have hwalk := outcome_follow_add hr 0
      rwa [Nat.zero_add, follow_zero_of_next hnext] at hwalk

/-- **A walk finds the value that the chain comes to within the bound.** -/
theorem outcome_eq_ok_iff {hops : Nat} {v : β} :
    (follow lookup hops k).outcome = .ok v ↔ ∃ n ≤ hops, EndsAt lookup k n v := by
  refine ⟨fun h => ?_, fun ⟨n, hn, hend⟩ => hend.outcome hn⟩
  rcases walk_cases lookup k hops with ⟨n, hn, w, hend⟩ | ⟨n, hn, hbreak⟩ | ⟨l, hl⟩
  · rw [hend.outcome hn] at h
    cases h
    exact ⟨n, hn, hend⟩
  · rw [hbreak.outcome hn] at h
    cases h
  · rw [hl.outcome] at h
    cases h

/-- **A walk finds nothing if the chain breaks off within the bound.** -/
theorem outcome_eq_missing_iff {hops : Nat} :
    (follow lookup hops k).outcome = .error .missing ↔ ∃ n ≤ hops, BreaksOff lookup k n := by
  refine ⟨fun h => ?_, fun ⟨n, hn, hbreak⟩ => hbreak.outcome hn⟩
  rcases walk_cases lookup k hops with ⟨n, hn, w, hend⟩ | ⟨n, hn, hbreak⟩ | ⟨l, hl⟩
  · rw [hend.outcome hn] at h
    cases h
  · exact ⟨n, hn, hbreak⟩
  · rw [hl.outcome] at h
    cases h

/-- **A walk is given up if the chain has more hops than the bound.** -/
theorem outcome_eq_tooDeep_iff {hops : Nat} :
    (follow lookup hops k).outcome = .error .tooDeep ↔ ∃ l, Reaches lookup k (hops + 1) l := by
  refine ⟨fun h => ?_, fun ⟨l, hl⟩ => hl.outcome⟩
  rcases walk_cases lookup k hops with ⟨n, hn, w, hend⟩ | ⟨n, hn, hbreak⟩ | hlong
  · rw [hend.outcome hn] at h
    cases h
  · rw [hbreak.outcome hn] at h
    cases h
  · exact hlong

/-! ### Chains that come back -/

/-- A chain that comes back never ends. -/
theorem GoesRound.endless (h : GoesRound lookup k) (n : Nat) : ∃ l, Reaches lookup k n l := by
  obtain ⟨start, j, m, hkj, hround⟩ := h
  have rounds : ∀ i, Reaches lookup j (i * (m + 1)) j := by
    intro i
    induction i with
    | zero =>
        rw [Nat.zero_mul]
        exact .here
    | succ i ih =>
        rw [Nat.succ_mul]
        exact ih.trans hround
  have hle : n ≤ start + n * (m + 1) :=
    Nat.le_add_left_of_le (Nat.le_mul_of_pos_right n (Nat.succ_pos m))
  obtain ⟨l, hl, -⟩ := (hkj.trans (rounds n)).stop hle
  exact ⟨l, hl⟩

theorem GoesRound.next_of_reaches (h : GoesRound lookup k) (hl : Reaches lookup k n l) :
    ∃ l', lookup l = .next l' := by
  obtain ⟨j, hj⟩ := h.endless (n + 1)
  exact hj.next_of_lt hl (Nat.lt_succ_self n)

theorem EndsAt.not_goesRound {v : β} (h : EndsAt lookup k n v) : ¬ GoesRound lookup k := by
  intro hround
  obtain ⟨l, hr, hl⟩ := h
  obtain ⟨j, hj⟩ := hround.next_of_reaches hr
  rw [hl] at hj
  cases hj

/-- **A chain with at least as many hops as there are keys comes back**, unless it breaks off.  Each
of its stops is one of the keys, so that two of them are the same. -/
theorem goesRound_of_long {keys : List κ} (hkeys : ∀ j, lookup j ≠ .missing → j ∈ keys)
    (h : Reaches lookup k n l) (hl : lookup l ≠ .missing) (hn : keys.length ≤ n) :
    GoesRound lookup k := by
  classical
  obtain ⟨stops, hstops⟩ := h.exists_stops
  have hmem : ∀ m ∈ Finset.range (n + 1), stops m ∈ keys.toFinset := by
    intro m hm
    have hm' : m ≤ n := Nat.le_of_lt_succ (Finset.mem_range.1 hm)
    rw [List.mem_toFinset]
    apply hkeys
    rcases Nat.eq_or_lt_of_le hm' with rfl | hlt
    · rwa [h.unique (hstops m le_rfl)]
    · obtain ⟨j, hj⟩ := h.next_of_lt (hstops m hm') hlt
      rw [hj]
      exact nofun
  have hcard : keys.toFinset.card < (Finset.range (n + 1)).card := by
    rw [Finset.card_range]
    exact Nat.lt_succ_of_le ((List.toFinset_card_le keys).trans hn)
  obtain ⟨a, ha, b, hb, hne, hab⟩ :=
    Finset.exists_ne_map_eq_of_card_lt_of_maps_to hcard hmem
  wlog hlt : a < b generalizing a b
  · exact this b hb a ha hne.symm hab.symm (lt_of_le_of_ne (not_lt.1 hlt) hne.symm)
  -- the way from the earlier of the two stops to the later one leads back to it
  have hb' : b ≤ n := Nat.le_of_lt_succ (Finset.mem_range.1 hb)
  obtain ⟨j, hkj, hjb⟩ := (hstops b hb').stop hlt.le
  obtain rfl := (hstops a (hlt.le.trans hb')).unique hkj
  obtain ⟨m, hm⟩ : ∃ m, b - a = m + 1 := ⟨b - a - 1, by omega⟩
  rw [← hab, hm] at hjb
  exact ⟨a, stops a, m, hkj, hjb⟩

/-- A chain that ends has fewer hops than there are keys. -/
theorem EndsAt.lt_length {keys : List κ} (hkeys : ∀ j, lookup j ≠ .missing → j ∈ keys) {v : β}
    (h : EndsAt lookup k n v) : n < keys.length := by
  obtain ⟨l, hr, hl⟩ := h
  refine Nat.lt_of_not_le fun hle => ?_
  have hfound : lookup l ≠ .missing := by
    rw [hl]
    exact nofun
  exact EndsAt.not_goesRound ⟨l, hr, hl⟩ (goesRound_of_long hkeys hr hfound hle)

/-- **Every chain through finitely many keys** ends at a value, breaks off, or goes round. -/
theorem cases_of_keys {keys : List κ} (hkeys : ∀ j, lookup j ≠ .missing → j ∈ keys) (k : κ) :
    (∃ n v, EndsAt lookup k n v) ∨ (∃ n, BreaksOff lookup k n) ∨ GoesRound lookup k := by
  rcases walk_cases lookup k keys.length with ⟨n, -, hend⟩ | ⟨n, -, hbreak⟩ | ⟨l, hl⟩
  · exact .inl ⟨n, hend⟩
  · exact .inr (.inl ⟨n, hbreak⟩)
  · by_cases hmissing : lookup l = .missing
    · exact .inr (.inl ⟨_, l, hl, hmissing⟩)
    · exact .inr (.inr (goesRound_of_long hkeys hl hmissing (Nat.le_succ _)))

end VoxelBake.Chain
