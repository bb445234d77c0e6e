/-
**Walks with look-ups that may change on the way.**

A look-up may do more than answer: it may collect what it read, count, or answer differently the
next time.  It is then given a state and leaves another one.  Looking up a key in a state is like
looking up the two of them together, so that such a walk follows an ordinary chain of pairs
(`Chain.paired`); it comes to the end of that chain if there is one within the bound, and stops
after one look-up more than its bound otherwise.  Nothing else is done to the state than looking up
the visited keys, one after another.

If the answers do not depend on the state the walk is the ordinary one, and a chain that comes back
to a key is given up whatever the bound.  Without that it may well end.

Main definitions:

* `Chain.paired` — look-ups of a key together with the state in which it is looked up.

Main results:

* `Chain.followWith_fst`, `Chain.followWith_snd` — the walk and the state after it;
* `Chain.reaches_of_visited`, `Chain.length_visited` — which keys are looked up, and how many;
* `Chain.follow_of_le` — a larger bound changes no walk that came to an end;
* `Chain.followWith_exact` — **look-ups and outcome of a walk**.
-/
import VoxelBake.Proofs.BoundedWalks

set_option relaxedAutoImplicit false
set_option autoImplicit false

namespace VoxelBake.Chain

variable {κ β σ : Type}

/-! ### The keys of a walk -/

section Keys

variable {lookup : κ → Step κ β} {k l : κ} {n hops : Nat}

/-- A walk looks up its first key, and goes on from the next one if there is one and the bound
allows it. -/
theorem visited_cases (lookup : κ → Step κ β) (hops : Nat) (k : κ) :
    (follow lookup hops k).visited = [k] ∨ ∃ k' fewer, lookup k = .next k' ∧
      (follow lookup hops k).visited = k :: (follow lookup fewer k').visited := by
  cases hk : lookup k with
  | done v => exact .inl (by rw [follow_of_done hk])
  | missing => exact .inl (by rw [follow_of_missing hk])
  | next k' =>
      cases hops with
      | zero => exact .inl (by rw [follow_zero_of_next hk])
      | succ hops => exact .inr ⟨k', hops, rfl, by rw [follow_succ_of_next hk]⟩

/-- The keys of a walk are those that the chain comes to, one hop after another. -/
theorem reaches_of_visited {i : Nat} (h : (follow lookup hops k).visited[i]? = some l) :
    Reaches lookup k i l := by
  induction i generalizing k hops with
  | zero =>
      obtain hone | ⟨k', fewer, -, hmore⟩ := visited_cases lookup hops k
      · rw [hone] at h
        cases h
        exact .here
      · rw [hmore] at h
        cases h
        exact .here
  | succ i ih =>
      obtain hone | ⟨k', fewer, hk, hmore⟩ := visited_cases lookup hops k
      · rw [hone] at h
        cases h
      · rw [hmore, List.getElem?_cons_succ] at h
        have hreach := (Reaches.hop .here hk).trans (ih h)
        rwa [Nat.add_comm] at hreach

/-- Each hop of the chain is one more key to be looked up. -/
theorem length_visited_add (h : Reaches lookup k n l) (hops : Nat) :
    (follow lookup (hops + n) k).visited.length = (follow lookup hops l).visited.length + n := by
  induction h generalizing hops with
  | here => rfl
  | @hop n l l' _ hnext ih =>
      have hshift : hops + (n + 1) = hops + 1 + n := by omega
      rw [hshift, ih, follow_succ_of_next hnext, List.length_cons, Nat.add_assoc, Nat.add_comm 1]

/-- A walk that comes to a key at which the chain does not go on looks up no further one. -/
theorem length_visited_of_end (h : Reaches lookup k n l) (hl : ∀ j, lookup l ≠ .next j)
    (hn : n ≤ hops) : (follow lookup hops k).visited.length = n + 1 := by
  have hone : (follow lookup (hops - n) l).visited = [l] := by
    obtain hone | ⟨j, -, hj, -⟩ := visited_cases lookup (hops - n) l
    · exact hone
    · exact absurd hj (hl j)
  rw [← Nat.sub_add_cancel hn, length_visited_add h, hone, List.length_singleton, Nat.add_comm]

/-- A walk that is given up has looked up one key more than it may make hops. -/
theorem length_visited_of_long (h : Reaches lookup k (hops + 1) l) :
    (follow lookup hops k).visited.length = hops + 1 := by
  cases h with
  | hop hr hnext =>
      have hlength := length_visited_add hr 0
      rwa [Nat.zero_add, follow_zero_of_next hnext, List.length_singleton, Nat.add_comm] at hlength

/-- **A larger bound changes no walk that came to an end.** -/
theorem follow_of_le {more : Nat} (hle : hops ≤ more)
    (h : (follow lookup hops k).outcome ≠ .error .tooDeep) :
    follow lookup more k = follow lookup hops k := by
  induction hops generalizing k more with
  | zero =>
      cases hk : lookup k with
      | done v => rw [follow_of_done hk, follow_of_done hk]
      | missing => rw [follow_of_missing hk, follow_of_missing hk]
      | next k' =>
          rw [follow_zero_of_next hk] at h
          exact absurd rfl h
  | succ hops ih =>
      cases hk : lookup k with
      | done v => rw [follow_of_done hk, follow_of_done hk]
      | missing => rw [follow_of_missing hk, follow_of_missing hk]
      | next k' =>
          obtain ⟨more, rfl⟩ : ∃ m, more = m + 1 := ⟨more - 1, by omega⟩
          rw [follow_succ_of_next hk] at h
          rw [follow_succ_of_next hk, follow_succ_of_next hk, ih (Nat.le_of_succ_le_succ hle) h]

end Keys

/-! ### Look-ups that carry a state -/

/-- Look-ups of a key together with the state in which it is looked up. -/
def paired (lookup : σ → κ → Step κ β × σ) (p : σ × κ) : Step (σ × κ) β :=
  match lookup p.1 p.2 with
  | (.next k, s) => .next (s, k)
  | (.done v, _) => .done v
  | (.missing, _) => .missing

section Paired

variable {lookup : σ → κ → Step κ β × σ} {s t : σ} {k : κ}

theorem paired_of_next {k' : κ} (h : lookup s k = (.next k', t)) :
    paired lookup (s, k) = .next (t, k') := by
  simp only [paired, h]

theorem paired_of_done {v : β} (h : lookup s k = (.done v, t)) :
    paired lookup (s, k) = .done v := by
  simp only [paired, h]

theorem paired_of_missing (h : lookup s k = (.missing, t)) : paired lookup (s, k) = .missing := by
  simp only [paired, h]

end Paired

variable (lookup : σ → κ → Step κ β × σ) (hops : Nat) (s : σ) (k : κ)

/-- **The walk**: it looks up the keys of the chain of pairs and comes to the same end. -/
theorem followWith_fst :
    (followWith lookup hops s k).1
      = ⟨(follow (paired lookup) hops (s, k)).visited.map Prod.snd,
          (follow (paired lookup) hops (s, k)).outcome⟩ := by
  fun_induction followWith lookup hops s k with
  | case1 hops s k v t hk =>
      rw [follow_of_done (paired_of_done hk)]
      rfl
  | case2 hops s k t hk =>
      rw [follow_of_missing (paired_of_missing hk)]
      rfl
  | case3 s k k' t hk =>
      rw [follow_zero_of_next (paired_of_next hk)]
      rfl
  | case4 s k k' t hk hops w u hw ih =>
      rw [hw] at ih
      rw [follow_succ_of_next (paired_of_next hk), show w = _ from ih]
      rfl

/-- **The state after a walk** is what looking up its keys makes of the state before, one key after
another. -/
theorem followWith_snd :
    (followWith lookup hops s k).2
      = (followWith lookup hops s k).1.visited.foldl (fun t l => (lookup t l).2) s := by
  fun_induction followWith lookup hops s k with
  | case1 hops s k v t hk => rw [List.foldl_cons, hk, List.foldl_nil]
  | case2 hops s k t hk => rw [List.foldl_cons, hk, List.foldl_nil]
  | case3 s k k' t hk => rw [List.foldl_cons, hk, List.foldl_nil]
  | case4 s k k' t hk hops w u hw ih =>
      rw [hw] at ih
      rw [List.foldl_cons, hk]
      exact ih

/-- A walk whose look-ups always answer alike is the ordinary one. -/
theorem followWith_of_steady {lookup : σ → κ → Step κ β × σ} {steady : κ → Step κ β}
    (h : ∀ t l, (lookup t l).1 = steady l) :
    (followWith lookup hops s k).1 = follow steady hops k := by
  -- what is looked up first is what the ordinary walk finds
  have hfirst : ∀ {s : σ} {k : κ} {out : Step κ β × σ}, lookup s k = out → steady k = out.1 := by
    rintro s k out rfl
    exact (h s k).symm
  fun_induction followWith lookup hops s k with
  | case1 hops s k v t hk => rw [follow_of_done (hfirst hk)]
  | case2 hops s k t hk => rw [follow_of_missing (hfirst hk)]
  | case3 s k k' t hk => rw [follow_zero_of_next (hfirst hk)]
  | case4 s k k' t hk hops w u hw ih =>
      rw [hw] at ih
      rw [follow_succ_of_next (hfirst hk), ← ih]

/-- **A larger bound changes no walk that came to an end**, and not what its look-ups leave. -/
theorem followWith_of_le {more : Nat} (hle : hops ≤ more)
    (h : (followWith lookup hops s k).1.outcome ≠ .error .tooDeep) :
    followWith lookup more s k = followWith lookup hops s k := by
  have hfst : (followWith lookup more s k).1 = (followWith lookup hops s k).1 := by
    rw [followWith_fst] at h
    rw [followWith_fst, followWith_fst, follow_of_le hle h]
  refine Prod.ext hfst ?_
  rw [followWith_snd, followWith_snd, hfst]

/-! ### Look-ups and outcome -/

/-- **Look-ups and outcome of a walk.**  A walk with a bound on its hops looks up at most one key
more than that.  They are the successive keys of the chain, each in the state that the ones before
it left, and nothing else is done to the state.

The walk finds a value exactly if the chain comes to it within the bound, and nothing exactly if the
chain breaks off within the bound; it then looks up one key more than it makes hops.  It is given up
exactly if the chain goes on at all keys that it may look up.  A larger bound changes no walk that
was not given up.

If the answers do not depend on the state, the walk is the ordinary one, all this is said of the
chain of the keys alone, and a chain that comes back to a key is given up. -/
theorem followWith_exact (lookup : σ → κ → Step κ β × σ) (hops : Nat) (s : σ) (k : κ) :
    let walk := (followWith lookup hops s k).1
    (walk.visited.length ≤ hops + 1 ∧
      (∀ i l, walk.visited[i]? = some l → ∃ t, Reaches (paired lookup) (s, k) i (t, l)) ∧
      (followWith lookup hops s k).2 = walk.visited.foldl (fun t l => (lookup t l).2) s) ∧
    (∀ v, walk.outcome = .ok v ↔ ∃ n ≤ hops, EndsAt (paired lookup) (s, k) n v) ∧
    (walk.outcome = .error .missing ↔ ∃ n ≤ hops, BreaksOff (paired lookup) (s, k) n) ∧
    (walk.outcome = .error .tooDeep ↔ ∃ p, Reaches (paired lookup) (s, k) (hops + 1) p) ∧
    (∀ n ≤ hops, (∃ v, EndsAt (paired lookup) (s, k) n v) ∨ BreaksOff (paired lookup) (s, k) n →
      walk.visited.length = n + 1) ∧
    (walk.outcome = .error .tooDeep → walk.visited.length = hops + 1) ∧
    (walk.outcome ≠ .error .tooDeep → ∀ more ≥ hops,
      followWith lookup more s k = followWith lookup hops s k) ∧
    ∀ steady : κ → Step κ β, (∀ t l, (lookup t l).1 = steady l) →
      walk = follow steady hops k ∧
      (∀ v, walk.outcome = .ok v ↔ ∃ n ≤ hops, EndsAt steady k n v) ∧
      (walk.outcome = .error .missing ↔ ∃ n ≤ hops, BreaksOff steady k n) ∧
      (walk.outcome = .error .tooDeep ↔ ∃ l, Reaches steady k (hops + 1) l) ∧
      (GoesRound steady k → walk.outcome = .error .tooDeep) := by
  intro walk
  have hvisited : walk.visited = (follow (paired lookup) hops (s, k)).visited.map Prod.snd :=
    congrArg Walk.visited (followWith_fst lookup hops s k)
  have houtcome : walk.outcome = (follow (paired lookup) hops (s, k)).outcome :=
    congrArg Walk.outcome (followWith_fst lookup hops s k)
  have hlength : walk.visited.length = (follow (paired lookup) hops (s, k)).visited.length := by
    rw [hvisited, List.length_map]
  refine ⟨⟨?_, ?_, followWith_snd lookup hops s k⟩, ?_, ?_, ?_, ?_, ?_, ?_, ?_⟩
  · rw [hlength]
    exact follow_visited_length_le ..
  · intro i l hl
    rw [hvisited, List.getElem?_map] at hl
    obtain ⟨⟨t, l'⟩, hpair, rfl⟩ := Option.map_eq_some_iff.1 hl
    exact ⟨t, reaches_of_visited hpair⟩
  · intro v
    rw [houtcome, outcome_eq_ok_iff]
  · rw [houtcome, outcome_eq_missing_iff]
  · rw [houtcome, outcome_eq_tooDeep_iff]
  · rintro n hn (⟨v, p, hreach, hp⟩ | ⟨p, hreach, hp⟩)
    · rw [hlength, length_visited_of_end hreach (by simp [hp]) hn]
    · rw [hlength, length_visited_of_end hreach (by simp [hp]) hn]
  · intro hdeep
    rw [houtcome, outcome_eq_tooDeep_iff] at hdeep
    obtain ⟨p, hp⟩ := hdeep
    rw [hlength, length_visited_of_long hp]
  · intro hend more hmore
    exact followWith_of_le lookup hops s k hmore hend
  · intro steady hsteady
    have hwalk : walk = follow steady hops k := followWith_of_steady hops s k hsteady
    rw [hwalk]
    exact ⟨rfl, fun _ => outcome_eq_ok_iff, outcome_eq_missing_iff, outcome_eq_tooDeep_iff,
      fun hround => outcome_eq_tooDeep_iff.2 (hround.endless (hops + 1))⟩

/-- Look-ups that count themselves and go to and fro between two keys. -/
def toAndFro (count : Nat) (k : Bool) : Step Bool String × Nat := (.next !k, count + 1)

/-- Look-ups that send back to the same key twice and have a value the third time. -/
def thirdTime (count : Nat) (k : Bool) : Step Bool String × Nat :=
  (if count < 2 then .next k else .done "found", count + 1)

/-- A walk to and fro is given up after as many look-ups as there may be.  Where look-ups change, a
chain that comes back may end, and a larger bound makes no difference then. -/
theorem followWith_exact_toAndFro :
    (∀ count k, (toAndFro count k).1 = .next !k) ∧
    GoesRound (fun k : Bool => (.next !k : Step Bool String)) true ∧
    (followWith toAndFro 50 0 true).1.outcome = .error .tooDeep ∧
    (followWith toAndFro 50 0 true).2 = 51 ∧
    (followWith thirdTime 5 0 true).1.visited = [true, true, true] ∧
    (followWith thirdTime 5 0 true).1.outcome = .ok "found" ∧
    followWith thirdTime 50 0 true = followWith thirdTime 5 0 true := by
  have hsteady : ∀ count k, (toAndFro count k).1 = .next !k := fun _ _ => rfl
  have hround : GoesRound (fun k : Bool => (.next !k : Step Bool String)) true :=
    ⟨0, true, 1, .here, .hop (.hop .here rfl) rfl⟩
  obtain ⟨-, -, -, -, -, -, -, hordinary⟩ := followWith_exact toAndFro 50 0 true
  obtain ⟨-, -, -, -, hdeep⟩ := hordinary _ hsteady
  obtain ⟨-, -, -, -, -, -, hlarger, -⟩ := followWith_exact thirdTime 5 0 true
  have hfound : (followWith thirdTime 5 0 true).1.outcome = .ok "found" := rfl
  have hend : (followWith thirdTime 5 0 true).1.outcome ≠ .error .tooDeep := by
    rw [hfound]
    exact nofun
  exact ⟨hsteady, hround, hdeep hround, rfl, rfl, hfound,
    hlarger hend 50 (by decide)⟩

end VoxelBake.Chain
