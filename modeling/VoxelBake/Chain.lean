/-
Following references up to a bound.

Texture slots point at other slots and models point at their parents.  Nothing promises that such
a chain ends, so it is followed for a limited number of hops and given up afterwards.

* `Step` — what is found under one key;
* `Walk`, `follow` — the keys that were looked up and how the walk ended;
* `followWith` — a walk with look-ups that may change on the way;
* `Reaches` — the chain without a bound: after how many hops it comes to which key;
* `follow_of_done`, `follow_of_missing`, `follow_zero_of_next`, `follow_succ_of_next` — one step of
  a walk;
* `follow_visited_length_le` — a walk of at most `hops` hops looks up at most `hops + 1` keys;
* `exists_done_of_outcome` — what a walk finds stands under some key.
-/

set_option relaxedAutoImplicit false
set_option autoImplicit false

namespace VoxelBake.Chain

/-- What is found under a key. -/
inductive Step (κ β : Type)
  /-- The chain goes on at another key. -/
  | next (k : κ)
  /-- The chain ends here with a value. -/
  | done (v : β)
  /-- There is nothing under the key. -/
  | missing

/-- Why a walk found nothing. -/
inductive Failure
  /-- The chain has more hops than allowed. -/
  | tooDeep
  /-- A key of the chain does not exist. -/
  | missing
deriving DecidableEq

/-- The course of a walk along a chain. -/
structure Walk (κ β : Type) where
  /-- The keys that were looked up, in order. -/
  visited : List κ
  /-- The value at the end of the chain, or why there is none. -/
  outcome : Except Failure β

variable {κ β : Type}

/-- Walks along a chain from a key, making at most `hops` hops. -/
def follow (lookup : κ → Step κ β) (hops : Nat) (k : κ) : Walk κ β :=
  match lookup k with
  | .done v => ⟨[k], .ok v⟩
  | .missing => ⟨[k], .error .missing⟩
  | .next k' =>
      match hops with
      | 0 => ⟨[k], .error .tooDeep⟩
      | hops + 1 =>
          let w := follow lookup hops k'
          ⟨k :: w.visited, w.outcome⟩

/-- Walks along a chain with look-ups that carry a state: each of them is given the state that the
one before it left.  The walk, and the state that the last look-up left. -/
def followWith {σ : Type} (lookup : σ → κ → Step κ β × σ) (hops : Nat) (s : σ) (k : κ) :
    Walk κ β × σ :=
  match lookup s k with
  | (.done v, t) => (⟨[k], .ok v⟩, t)
  | (.missing, t) => (⟨[k], .error .missing⟩, t)
  | (.next k', t) =>
      match hops with
      | 0 => (⟨[k], .error .tooDeep⟩, t)
      | hops + 1 =>
          let (w, u) := followWith lookup hops t k'
          (⟨k :: w.visited, w.outcome⟩, u)

/-- The chain without a bound: `Reaches lookup k n l` says that `n` hops lead from `k` to `l`. -/
inductive Reaches (lookup : κ → Step κ β) (k : κ) : Nat → κ → Prop
  | here : Reaches lookup k 0 k
  | hop {n : Nat} {l m : κ} : Reaches lookup k n l → lookup l = .next m →
      Reaches lookup k (n + 1) m

/-! ### The course of a walk -/

theorem follow_of_done {lookup : κ → Step κ β} {k : κ} {v : β} (h : lookup k = .done v)
    (hops : Nat) : follow lookup hops k = ⟨[k], .ok v⟩ := by
  cases hops <;> simp [follow, h]

theorem follow_of_missing {lookup : κ → Step κ β} {k : κ} (h : lookup k = .missing)
    (hops : Nat) : follow lookup hops k = ⟨[k], .error .missing⟩ := by
  cases hops <;> simp [follow, h]

theorem follow_zero_of_next {lookup : κ → Step κ β} {k k' : κ} (h : lookup k = .next k') :
    follow lookup 0 k = ⟨[k], .error .tooDeep⟩ := by
  simp [follow, h]

theorem follow_succ_of_next {lookup : κ → Step κ β} {k k' : κ} (h : lookup k = .next k')
    (hops : Nat) :
    follow lookup (hops + 1) k
      = ⟨k :: (follow lookup hops k').visited, (follow lookup hops k').outcome⟩ := by
  rw [follow, h]

/-! ### The keys of a walk -/

theorem follow_visited_ne_nil (lookup : κ → Step κ β) (hops : Nat) (k : κ) :
    (follow lookup hops k).visited ≠ [] := by
  unfold follow
  split
  · simp
  · simp
  · split <;> simp

theorem follow_visited_length_le (lookup : κ → Step κ β) (hops : Nat) (k : κ) :
    (follow lookup hops k).visited.length ≤ hops + 1 := by
  induction hops generalizing k with
  | zero =>
      unfold follow
      split <;> simp
  | succ hops ih =>
      unfold follow
      split
      · simp
      · simp
      · simpa using ih _

/-! ### The end of a walk -/

/-- What a walk finds stands under some key. -/
theorem exists_done_of_outcome {lookup : κ → Step κ β} {hops : Nat} {k : κ} {v : β}
    (h : (follow lookup hops k).outcome = .ok v) : ∃ l, lookup l = .done v := by
  induction hops generalizing k with
  | zero =>
      cases hk : lookup k with
      | done w =>
          rw [follow_of_done hk] at h
          exact ⟨k, hk.trans (congrArg Step.done (Except.ok.inj h))⟩
      | missing => simp [follow, hk] at h
      | next k' => simp [follow, hk] at h
  | succ hops ih =>
      cases hk : lookup k with
      | done w =>
          rw [follow_of_done hk] at h
          exact ⟨k, hk.trans (congrArg Step.done (Except.ok.inj h))⟩
      | missing => simp [follow, hk] at h
      | next k' =>
          rw [follow_succ_of_next hk] at h
          exact ih h

end VoxelBake.Chain
