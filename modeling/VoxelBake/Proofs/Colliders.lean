/-
**A collider holds the places of the vertices that are drawn.**

The places of a block are needed twice: with everything that is drawn, and alone, to collide with.
There are three ways to get them.  Drawing goes through the faces that are never hidden by the list
of their directions and through the other sides one by one; the way for colliders goes through all
seven buckets alike and assigns places in an array that was made long enough; and the way that does
both copies a window of what was drawn.  All three count the same places and give them in the same
order, and none of them assigns a place that is not there.

Main definitions:

* `Assigning`, `Assigning.put?` — an array whose places are assigned one after another, and the
  next assignment;
* `emitColliderStepwise` — the places of a block assigned one by one;
* `copyWindow?`, `emitWithColliderStepwise` — a window copied over another, and a block drawn vertex
  by vertex with its places copied.

Main results:

* `emitColliderStepwise_eq`, `emitWithColliderStepwise_eq` — no step fails, and each way is one
  write;
* `map_position_blockVertices` — the vertices of a block stand at the places of its collider;
* `collider_follows_mesh` — **collider and mesh coincide**.
-/
import VoxelBake.Proofs.Emission

set_option relaxedAutoImplicit false
set_option autoImplicit false

namespace VoxelBake

/-! ### Assigning places of an array -/

/-- An array whose places are assigned one after another, and the next place. -/
structure Assigning (β : Type) where
  /-- The array. -/
  array : Array β
  /-- The place that is assigned next. -/
  cursor : Nat

namespace Assigning

variable {β : Type}

/-- One more assignment; nothing if the array has no such place. -/
def put? (s : Assigning β) (b : β) : Option (Assigning β) :=
  if s.cursor < s.array.size then some ⟨s.array.setIfInBounds s.cursor b, s.cursor + 1⟩ else none

/-- An array after some elements were written in one piece. -/
def after (filler : β) (a : Array β) (start : Nat) (xs : Array β) : Assigning β :=
  ⟨writeAt filler a start xs, start + xs.size⟩

theorem setIfInBounds_eq_writeAt (filler : β) {a : Array β} {i : Nat} (h : i < a.size) (b : β) :
    a.setIfInBounds i b = writeAt filler a i #[b] := by
  refine Array.ext_getElem? fun j => ?_
  rw [Array.getElem?_setIfInBounds, getElem?_writeAt]
  by_cases hj : i = j
  · subst hj
    have hwindow : i ≤ i ∧ i < i + #[b].size := ⟨Nat.le_refl i, Nat.lt_succ_self i⟩
    rw [if_pos rfl, if_pos h, if_pos hwindow, Nat.sub_self]
    rfl
  · have hwindow : ¬ (i ≤ j ∧ j < i + #[b].size) := by
      simp only [List.size_toArray, List.length_singleton]
      omega
    rw [if_neg hj, if_neg hwindow]
    by_cases hlt : j < a.size
    · rw [if_pos hlt]
    · rw [if_neg hlt, if_neg (by omega), Array.getElem?_eq_none (Nat.le_of_not_lt hlt)]

/-- An assignment within the array writes one more element. -/
theorem put?_after (filler : β) {a : Array β} {start : Nat} {xs : Array β} (b : β)
    (h : start + xs.size < a.size) :
    (after filler a start xs).put? b = some (after filler a start (xs.push b)) := by
  have hsize : start + xs.size < (writeAt filler a start xs).size := by
    rw [size_writeAt]
    omega
  simp only [put?, after, hsize, if_true, setIfInBounds_eq_writeAt filler hsize, writeAt_writeAt,
    Array.size_push, Nat.add_assoc]
  rfl

/-- **Assignments one after another write all elements in one piece**, if the array is long
enough. -/
theorem foldlM_put? (filler : β) {a : Array β} {start : Nat} (bs : List β) {xs : Array β}
    (h : start + xs.size + bs.length ≤ a.size) :
    bs.foldlM put? (after filler a start xs) = some (after filler a start (xs ++ bs.toArray)) := by
  induction bs generalizing xs with
  | nil => simp
  | cons b bs ih =>
      rw [List.length_cons] at h
      have hrest : start + (xs.push b).size + bs.length ≤ a.size := by
        rw [Array.size_push]
        omega
      rw [List.foldlM_cons, put?_after filler b (by omega)]
      exact (ih hrest).trans (by simp)

end Assigning

/-! ### The way for colliders -/

section Colliders

variable {α : Type} [Scalar α]

/-- The places of a block assigned one by one, bucket after bucket, in an array that was made long
enough. -/
def emitColliderStepwise (g : Geometry α) (offset : Vec3 α) (flags : SideFlags)
    (collider : Array (Vec3 α)) (start : Nat) : Option (Array (Vec3 α) × Nat) := do
  let sized : Assigning (Vec3 α) :=
    ⟨padTo Vec3.zero (start + g.vertexCount flags) collider, start⟩
  let filled ← CullSide.all.foldlM (fun s c =>
    if flags.allows c then
      (g.bucket c).toList.foldlM (fun s k => s.put? (k.position + offset)) s
    else some s) sized
  some (filled.array, filled.cursor)

variable (g : Geometry α) (offset : Vec3 α) (flags : SideFlags)

/-- A collider has as many places as vertices are counted. -/
theorem size_blockPositions : (blockPositions g offset flags).size = g.vertexCount flags := by
  rw [blockPositions, size_flatMap_toArray]
  simp only [Array.size_map]
  rfl

/-- Going through the buckets is going through all places that are drawn. -/
theorem foldlM_buckets (cs : List CullSide) (s : Assigning (Vec3 α)) :
    cs.foldlM (fun s c =>
        if flags.allows c then
          (g.bucket c).toList.foldlM (fun s k => s.put? (k.position + offset)) s
        else some s) s
      = ((cs.filter flags.allows).toArray.flatMap fun c =>
          (g.bucket c).map fun k => k.position + offset).toList.foldlM Assigning.put? s := by
  induction cs generalizing s with
  | nil => rfl
  | cons c cs ih =>
      rw [List.foldlM_cons, List.filter_cons]
      simp only [ih]
      cases hc : flags.allows c with
      | true =>
          simp only [if_true, List.flatMap_toArray_cons, Array.toList_append, List.foldlM_append,
            Array.toList_map, List.foldlM_map]
      | false => simp

/-- **Assigning the places one by one never fails and is one write of all places.** -/
theorem emitColliderStepwise_eq (collider : Array (Vec3 α)) (start : Nat) :
    emitColliderStepwise g offset flags collider start
      = some (emitCollider g offset flags collider start) := by
  have hready : (⟨padTo Vec3.zero (start + g.vertexCount flags) collider, start⟩
      : Assigning (Vec3 α))
        = .after Vec3.zero (padTo Vec3.zero (start + g.vertexCount flags) collider) start #[] := by
    have hlen : start ≤ (padTo Vec3.zero (start + g.vertexCount flags) collider).size := by
      rw [size_padTo]
      omega
    rw [Assigning.after, writeAt_empty _ hlen]
    rfl
  have hroom : start + (#[] : Array (Vec3 α)).size + (blockPositions g offset flags).toList.length
      ≤ (padTo Vec3.zero (start + g.vertexCount flags) collider).size := by
    rw [size_padTo, Array.length_toList, size_blockPositions]
    exact Nat.le_max_right ..
  have hfilled : (blockPositions g offset flags).toList.foldlM Assigning.put?
      (.after Vec3.zero (padTo Vec3.zero (start + g.vertexCount flags) collider) start #[])
        = some (.after Vec3.zero (padTo Vec3.zero (start + g.vertexCount flags) collider) start
          (blockPositions g offset flags)) :=
    (Assigning.foldlM_put? _ _ hroom).trans (by simp)
  have hpad : start + g.vertexCount flags ≤ start + (blockPositions g offset flags).size :=
    Nat.le_of_eq (by rw [size_blockPositions])
  simp only [emitColliderStepwise]
  rw [foldlM_buckets, hready]
  change (List.foldlM Assigning.put? _ (blockPositions g offset flags).toList).bind _ = _
  rw [hfilled]
  simp only [Option.bind_some, Assigning.after, writeAt_padTo _ _ hpad, emitCollider]

end Colliders

/-! ### Both at once -/

section Both

variable {α : Type} [Scalar α] [Gamma α]

/-- A window of one array copied over a window of another; nothing if one of them is no window of
its array, or if they differ in length. -/
def copyWindow? {β : Type} (source : Array β) (first stop : Nat) (target : Array β)
    (place placeStop : Nat) : Option (Array β) :=
  if first ≤ stop ∧ stop ≤ source.size ∧ place ≤ placeStop ∧ placeStop ≤ target.size ∧
      stop - first = placeStop - place then
    some (target.extract 0 place ++ source.extract first stop ++
      target.extract placeStop target.size)
  else none

/-- A block drawn vertex by vertex, and the places that were drawn copied into a collider that was
made long enough. -/
def emitWithColliderStepwise (g : Geometry α) (ctx : EmitContext α) (buffer : VertexBuffer α)
    (start : Nat) (collider : Array (Vec3 α)) (place : Nat) :
    Option ((VertexBuffer α × Nat) × (Array (Vec3 α) × Nat)) :=
  let drawn := emitStepwise g ctx buffer start
  let count := drawn.2 - start
  let sized := padTo Vec3.zero (place + count) collider
  (copyWindow? (drawn.1.map Vertex.position) start drawn.2 sized place (place + count)).map
    fun copied => (drawn, (copied, place + count))

variable (fs : List (FaceQuad α)) (ctx : EmitContext α) (buffer : VertexBuffer α) (start : Nat)
  (collider : Array (Vec3 α)) (place : Nat)

omit fs in
/-- What is copied out of the buffer are the places of the vertices that were drawn. -/
theorem emitWithCollider_eq (g : Geometry α) :
    emitWithCollider g ctx buffer start collider place
      = (emit g ctx buffer start,
        (writeAt Vec3.zero collider place ((blockVertices g ctx).map Vertex.position),
          place + (blockVertices g ctx).size)) := by
  have hcopied : (emit g ctx buffer start).1.extract start (emit g ctx buffer start).2
      = blockVertices g ctx := extract_writeAt ..
  simp only [emitWithCollider, hcopied, Array.size_map]

/-- **Copying never fails and is one write of the places that were drawn.** -/
theorem emitWithColliderStepwise_eq :
    emitWithColliderStepwise (.ofFaces fs) ctx buffer start collider place
      = some (emitWithCollider (.ofFaces fs) ctx buffer start collider place) := by
  have hcount : (emit (.ofFaces fs) ctx buffer start).2 - start
      = (blockVertices (.ofFaces fs) ctx).size := Nat.add_sub_cancel_left ..
  have hcopied : ((emit (.ofFaces fs) ctx buffer start).1.map Vertex.position).extract start
      (emit (.ofFaces fs) ctx buffer start).2
        = (blockVertices (.ofFaces fs) ctx).map Vertex.position := by
    rw [← Array.map_extract]
    exact congrArg (Array.map Vertex.position) (extract_writeAt ..)
  have hwindow : start ≤ (emit (.ofFaces fs) ctx buffer start).2 ∧
      (emit (.ofFaces fs) ctx buffer start).2
        ≤ ((emit (.ofFaces fs) ctx buffer start).1.map Vertex.position).size ∧
      place ≤ place + (blockVertices (.ofFaces fs) ctx).size ∧
      place + (blockVertices (.ofFaces fs) ctx).size
        ≤ (padTo Vec3.zero (place + (blockVertices (.ofFaces fs) ctx).size) collider).size ∧
      (blockVertices (.ofFaces fs) ctx).size
        = place + (blockVertices (.ofFaces fs) ctx).size - place := by
    rw [Array.size_map, size_padTo, emit, VertexBuffer.write, size_writeAt]
    omega
  rw [emitWithColliderStepwise, emitStepwise_ofFaces, emitWithCollider_eq]
  simp only [hcount, copyWindow?]
  rw [if_pos hwindow, hcopied, Option.map_some, writeAt, Array.size_map]

/-- The vertices of a block stand at the places of its collider. -/
theorem map_position_blockVertices :
    (blockVertices (.ofFaces fs) ctx).map Vertex.position
      = blockPositions (.ofFaces fs) ctx.offset ctx.sides := by
  have hplace : ∀ (f : FaceQuad α) (k : Corner α),
      (f.shade ctx k).position = k.position + ctx.offset := by
    intro f k
    rw [FaceQuad.shade]
    cases f.cull with
    | none => rfl
    | some d => rfl
  exact map_blockVertices fs ctx hplace

/-- **Collider and mesh coincide.**  Whatever light, neighbours, tint and format a block is drawn
with, the collider of its offset and its sides holds the places of its vertices in their order.
Doing both at once leaves the buffer as drawing does and the collider as the way for colliders does;
all three end behind as many places as are counted for the sides; and the collider keeps its other
places, those that are new holding the origin. -/
theorem collider_follows_mesh (fs : List (FaceQuad α)) (ctx : EmitContext α)
    (buffer : VertexBuffer α) (start : Nat) (collider : Array (Vec3 α)) (place : Nat) :
    let g := Geometry.ofFaces fs
    let drawn := emit g ctx buffer start
    let plain := emitCollider g ctx.offset ctx.sides collider place
    let both := emitWithCollider g ctx buffer start collider place
    emitStepwise g ctx buffer start = drawn ∧
    emitColliderStepwise g ctx.offset ctx.sides collider place = some plain ∧
    emitWithColliderStepwise g ctx buffer start collider place = some both ∧
    plain.1.extract place plain.2 = (drawn.1.extract start drawn.2).map Vertex.position ∧
    both.1 = drawn ∧ both.2 = plain ∧
    drawn.2 = start + g.vertexCount ctx.sides ∧ plain.2 = place + g.vertexCount ctx.sides ∧
    plain.1.size = max collider.size plain.2 ∧
    ∀ i, ¬ (place ≤ i ∧ i < plain.2) →
      plain.1[i]? = if i < collider.size then collider[i]?
        else if i < place then some Vec3.zero else none := by
  intro g drawn plain both
  have hpositions : (blockVertices g ctx).map Vertex.position
      = blockPositions g ctx.offset ctx.sides := map_position_blockVertices fs ctx
  have hsize : (blockVertices g ctx).size = (blockPositions g ctx.offset ctx.sides).size := by
    rw [← hpositions, Array.size_map]
  have hboth : both = (drawn, plain) := by
    change emitWithCollider g ctx buffer start collider place = (drawn, plain)
    rw [emitWithCollider_eq, hpositions, hsize]
    rfl
  have hdrawn : drawn.1.extract start drawn.2 = blockVertices g ctx := extract_writeAt ..
  have hplain : plain.1.extract place plain.2 = blockPositions g ctx.offset ctx.sides :=
    extract_writeAt ..
  refine ⟨emitStepwise_ofFaces fs ctx buffer start, emitColliderStepwise_eq ..,
    emitWithColliderStepwise_eq .., ?_, ?_, ?_, ?_, ?_, size_writeAt .., ?_⟩
  · rw [hplain, hdrawn, hpositions]
  · rw [hboth]
  · rw [hboth]
  · exact congrArg (start + ·) (size_blockVertices fs ctx)
  · exact congrArg (place + ·) (size_blockPositions g ctx.offset ctx.sides)
  · intro i hi
    exact (getElem?_writeAt ..).trans (if_neg hi)

end Both

end VoxelBake
