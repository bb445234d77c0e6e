/-
**Drawings that do not overlap can be made in any order.**

Blocks, whole states, cubes and items are drawn into one buffer, each from a place of its own on.
Whatever is drawn is a list of pieces that are written back to back: one piece for a block, a cube
or an item, and one for each part of a state.  Writes into disjoint windows can be exchanged, also
where the buffer has to grow for them and places between the windows are filled up; so a piece can
be moved past a list of pieces, and one list past another.  A state without parts has no piece at
all, and leaves even a buffer alone that does not reach to its place.

Main definitions:

* `VertexBuffer.writeAll` — pieces written back to back;
* `Drawing`, `Drawing.draw`, `Drawing.range` — something to draw, drawing it, and the places it
  takes;
* `Drawing.drawStepwise` — the same, vertex by vertex.

Main results:

* `writeAt_comm` — writes into disjoint windows can be exchanged;
* `VertexBuffer.getElem?_writeAll` — what pieces leave alone;
* `VertexBuffer.writeAll_comm` — two lists of pieces can be exchanged;
* `VertexBuffer.getElem?_writeAll_append` — a piece stands at its place as if written alone;
* `disjoint_drawings_commute` — **order does not matter**, and a state is its parts back to back.
-/
import Mathlib.Order.CompletePartialOrder
import Mathlib.Order.Interval.Set.Disjoint
import VoxelBake.Blockstate.Assembly
import VoxelBake.Proofs.FlatItems

set_option relaxedAutoImplicit false
set_option autoImplicit false

namespace VoxelBake

/-! ### Writes into disjoint windows -/

/-- **Writes into disjoint windows can be exchanged**, whatever lies between the windows. -/
theorem writeAt_comm {β : Type} (filler : β) (a : Array β) {s t : Nat} {x y : Array β}
    (h : Disjoint (Set.Ico s (s + x.size)) (Set.Ico t (t + y.size))) :
    writeAt filler (writeAt filler a s x) t y = writeAt filler (writeAt filler a t y) s x := by
  refine Array.ext_getElem? fun i => ?_
  simp only [getElem?_writeAt, size_writeAt]
  by_cases hx : s ≤ i ∧ i < s + x.size
  · have hy : ¬ (t ≤ i ∧ i < t + y.size) := fun hy => Set.disjoint_left.1 h hx hy
    have hlt : i < max a.size (s + x.size) := by omega
    rw [if_neg hy, if_pos hlt, if_pos hx, if_pos hx]
  · by_cases hy : t ≤ i ∧ i < t + y.size
    · have hlt : i < max a.size (t + y.size) := by omega
      rw [if_pos hy, if_neg hx, if_pos hlt, if_pos hy]
    · rw [if_neg hy, if_neg hx, if_neg hx, if_neg hy]
      -- what lies in no window is there if it was there before or lies in the gap before a window
      have hs : i < max a.size (s + x.size) ↔ i < a.size ∨ i < s := by omega
      have ht : i < max a.size (t + y.size) ↔ i < a.size ∨ i < t := by omega
      rw [if_congr hs rfl rfl, if_congr ht rfl rfl]
      by_cases hi : i < a.size
      · simp only [hi, true_or, if_true]
      · simp only [hi, false_or, if_false]
        split_ifs <;> rfl

namespace VertexBuffer

variable {α : Type} [Scalar α]

/-! ### Pieces back to back -/

/-- Pieces written back to back: the buffer afterwards, and the number past the last vertex. -/
def writeAll (buffer : VertexBuffer α) (start : Nat) (pieces : List (Array (Vertex α))) :
    VertexBuffer α × Nat :=
  pieces.foldl (fun s vs => (s.1.write s.2 vs, s.2 + vs.size)) (buffer, start)

section Pieces

variable (buffer : VertexBuffer α) (start : Nat) (vs : Array (Vertex α))
  (ps qs : List (Array (Vertex α)))

theorem writeAll_cons :
    buffer.writeAll start (vs :: ps) = (buffer.write start vs).writeAll (start + vs.size) ps := rfl

theorem writeAll_append :
    buffer.writeAll start (ps ++ qs)
      = (buffer.writeAll start ps).1.writeAll (buffer.writeAll start ps).2 qs :=
  List.foldl_append ..

theorem snd_writeAll : (buffer.writeAll start ps).2 = start + (ps.map Array.size).sum := by
  induction ps generalizing buffer start with
  | nil => rfl
  | cons x ps ih =>
      rw [writeAll_cons, ih, List.map_cons, List.sum_cons, Nat.add_assoc]

/-- **What pieces leave alone**: everything outside their places.  If the first of them lies behind
the end of the buffer, the gap is filled up. -/
theorem getElem?_writeAll {i : Nat} (hi : i ∉ Set.Ico start (start + (ps.map Array.size).sum)) :
    (buffer.writeAll start ps).1[i]? =
      if i < buffer.size then buffer[i]?
        else if i < start ∧ ps ≠ [] then some Vertex.blank else none := by
  induction ps generalizing buffer start with
  | nil =>
      by_cases hlt : i < buffer.size
      · rw [if_pos hlt]
        rfl
      · rw [if_neg hlt, if_neg (fun h => h.2 rfl)]
        exact Array.getElem?_eq_none (Nat.le_of_not_lt hlt)
  | cons x ps ih =>
      rw [List.map_cons, List.sum_cons, Set.mem_Ico] at hi
      have hrest : i ∉ Set.Ico (start + x.size) (start + x.size + (ps.map Array.size).sum) := by
        rw [Set.mem_Ico]
        omega
      have hfirst : ¬ (start ≤ i ∧ i < start + x.size) := by omega
      have hsize : (buffer.write start x).size = max buffer.size (start + x.size) :=
        size_writeAt ..
      have hwrite : (buffer.write start x)[i]? = if i < buffer.size then buffer[i]?
          else if i < start then some Vertex.blank else none :=
        (getElem?_writeAt ..).trans (if_neg hfirst)
      rw [writeAll_cons, ih _ _ hrest, hsize, hwrite]
      by_cases hlt : i < buffer.size
      · rw [if_pos hlt, if_pos hlt, if_pos (by omega)]
      · by_cases hgap : i < start
        · rw [if_pos (by omega), if_neg hlt, if_neg hlt, if_pos hgap, if_pos ⟨hgap, by simp⟩]
        · have hbehind : ¬ i < start + x.size := by omega
          rw [if_neg (by omega), if_neg (fun h => hbehind h.1), if_neg hlt,
            if_neg (fun h => hgap h.1)]

/-- A piece among others stands at its place as if it were written alone. -/
theorem getElem?_writeAll_append (other : VertexBuffer α) {place i : Nat}
    (hplace : place = start + (ps.map Array.size).sum)
    (hi : i ∈ Set.Ico place (place + vs.size)) :
    (buffer.writeAll start (ps ++ vs :: qs)).1[i]? = (other.write place vs)[i]? := by
  rw [Set.mem_Ico] at hi
  have hbefore : i ∉ Set.Ico (place + vs.size) (place + vs.size + (qs.map Array.size).sum) := by
    rw [Set.mem_Ico]
    omega
  have hwritten : ∀ b : VertexBuffer α, (b.write place vs)[i]? = vs[i - place]? := by
    intro b
    exact (getElem?_writeAt ..).trans (if_pos hi)
  have hlt : i < ((buffer.writeAll start ps).1.write place vs).size := by
    rw [VertexBuffer.write, size_writeAt]
    omega
  rw [writeAll_append, snd_writeAll, ← hplace, writeAll_cons, getElem?_writeAll _ _ _ hbefore,
    if_pos hlt, hwritten, hwritten]

/-! ### Pieces past pieces -/

variable {start vs ps qs} {t : Nat}

/-- A piece can be moved past pieces that lie elsewhere. -/
theorem write_writeAll
    (h : Disjoint (Set.Ico start (start + (ps.map Array.size).sum)) (Set.Ico t (t + vs.size))) :
    (buffer.writeAll start ps).1.write t vs = ((buffer.write t vs).writeAll start ps).1 := by
  induction ps generalizing buffer start with
  | nil => rfl
  | cons x ps ih =>
      rw [List.map_cons, List.sum_cons] at h
      have hfirst : Disjoint (Set.Ico start (start + x.size)) (Set.Ico t (t + vs.size)) :=
        h.mono_left (Set.Ico_subset_Ico_right (by omega))
      have hrest : Disjoint (Set.Ico (start + x.size) (start + x.size + (ps.map Array.size).sum))
          (Set.Ico t (t + vs.size)) :=
        h.mono_left (Set.Ico_subset_Ico (by omega) (by omega))
      have hswap : (buffer.write start x).write t vs = (buffer.write t vs).write start x :=
        writeAt_comm _ _ hfirst
      rw [writeAll_cons, writeAll_cons, ih _ hrest, hswap]

/-- **Two lists of pieces that lie elsewhere can be exchanged.** -/
theorem writeAll_comm
    (h : Disjoint (Set.Ico start (start + (ps.map Array.size).sum))
      (Set.Ico t (t + (qs.map Array.size).sum))) :
    ((buffer.writeAll start ps).1.writeAll t qs).1
      = ((buffer.writeAll t qs).1.writeAll start ps).1 := by
  induction qs generalizing buffer t with
  | nil => rfl
  | cons y qs ih =>
      rw [List.map_cons, List.sum_cons] at h
      have hfirst : Disjoint (Set.Ico start (start + (ps.map Array.size).sum))
          (Set.Ico t (t + y.size)) :=
        h.mono_right (Set.Ico_subset_Ico_right (by omega))
      have hrest : Disjoint (Set.Ico start (start + (ps.map Array.size).sum))
          (Set.Ico (t + y.size) (t + y.size + (qs.map Array.size).sum)) :=
        h.mono_right (Set.Ico_subset_Ico (by omega) (by omega))
      rw [writeAll_cons, writeAll_cons, write_writeAll buffer hfirst, ih _ hrest]

end Pieces

end VertexBuffer

/-! ### Drawings -/

/-- Something to draw, with everything that drawing it takes. -/
inductive Drawing (α : Type) where
  /-- A block of some faces. -/
  | block (faces : List (FaceQuad α)) (ctx : EmitContext α)
  /-- All parts of a state, each of some faces. -/
  | state (parts : List (List (FaceQuad α))) (weight : Nat) (ctx : EmitContext α)
  /-- A full cube with one texture. -/
  | cube (atlas : Atlas α) (texture : Identifier) (offset : Vec3 α) (sides : SideFlags)
      (colour : Vec3 α)
  /-- An item. -/
  | item (g : ItemGeometry α) (offset : Vec3 α) (palette : Array (Vec3 α))

/-- The way of drawing a state whose parts have the given faces. -/
def StateGeometry.ofFaces {α : Type} (parts : List (List (FaceQuad α))) (weight : Nat) :
    StateGeometry α where
  parts := parts.map Geometry.ofFaces
  weight := weight

namespace Drawing

variable {α : Type}

/-- How many vertices are counted for a drawing beforehand. -/
def count : Drawing α → Nat
  | block faces ctx => (Geometry.ofFaces faces).vertexCount ctx.sides
  | state parts weight ctx => (StateGeometry.ofFaces parts weight).vertexCount ctx.sides
  | cube _ _ _ sides _ => cubeVertexCount sides
  | item g _ _ => g.corners.size

/-- The places that a drawing takes. -/
def range (d : Drawing α) (start : Nat) : Set Nat := Set.Ico start (start + d.count)

variable [Scalar α] [Gamma α]

/-- Draws: the buffer afterwards, and the number past the last vertex written. -/
def draw (d : Drawing α) (buffer : VertexBuffer α) (start : Nat) : VertexBuffer α × Nat :=
  match d with
  | block faces ctx => emit (.ofFaces faces) ctx buffer start
  | state parts weight ctx => (StateGeometry.ofFaces parts weight).emit ctx buffer start
  | cube atlas texture offset sides colour =>
      emitCube atlas texture offset sides colour buffer start
  | item g offset palette => g.emit offset palette buffer start

/-- Draws vertex by vertex; nothing if a row of an item is missing. -/
def drawStepwise (d : Drawing α) (buffer : VertexBuffer α) (start : Nat) :
    Option (VertexBuffer α × Nat) :=
  match d with
  | block faces ctx => some (emitStepwise (.ofFaces faces) ctx buffer start)
  | state parts _ ctx =>
      some (parts.foldl (fun s faces => emitStepwise (.ofFaces faces) ctx s.1 s.2) (buffer, start))
  | cube atlas texture offset sides colour =>
      some (emitCubeStepwise atlas texture offset sides colour buffer start)
  | item g offset palette => (Columns.ofBucket g.corners).draw? offset palette buffer start

/-- The pieces that are written for a drawing. -/
def pieces : Drawing α → List (Array (Vertex α))
  | block faces ctx => [blockVertices (.ofFaces faces) ctx]
  | state parts _ ctx => parts.map fun faces => blockVertices (.ofFaces faces) ctx
  | cube atlas texture offset sides colour => [cubeVertices atlas texture offset sides colour]
  | item g offset palette => [g.vertices offset palette]

/-- A drawing is its pieces, back to back. -/
theorem draw_eq_writeAll (d : Drawing α) (buffer : VertexBuffer α) (start : Nat) :
    d.draw buffer start = buffer.writeAll start d.pieces := by
  cases d with
  | block faces ctx => rfl
  | state parts weight ctx =>
      change (parts.map Geometry.ofFaces).foldl _ _ = (parts.map _).foldl _ _
      rw [List.foldl_map, List.foldl_map]
      rfl
  | cube atlas texture offset sides colour => rfl
  | item g offset palette => rfl

/-- As many vertices are written as are counted. -/
theorem sum_size_pieces (d : Drawing α) : (d.pieces.map Array.size).sum = d.count := by
  cases d with
  | block faces ctx => exact size_blockVertices faces ctx
  | state parts weight ctx =>
      have hsize : Array.size ∘ (fun faces => blockVertices (.ofFaces faces) ctx)
          = fun faces => (Geometry.ofFaces faces).vertexCount ctx.sides := by
        funext faces
        exact size_blockVertices faces ctx
      change ((parts.map _).map _).foldr _ _ = ((parts.map Geometry.ofFaces).map _).foldr _ _
      rw [List.map_map, List.map_map, hsize]
      rfl
  | cube atlas texture offset sides colour =>
      exact size_cubeVertices atlas texture offset sides colour
  | item g offset palette => exact Array.size_map ..

theorem snd_draw (d : Drawing α) (buffer : VertexBuffer α) (start : Nat) :
    (d.draw buffer start).2 = start + d.count := by
  rw [draw_eq_writeAll, VertexBuffer.snd_writeAll, sum_size_pieces]

/-- Drawing vertex by vertex never fails. -/
theorem drawStepwise_eq (d : Drawing α) (buffer : VertexBuffer α) (start : Nat) :
    d.drawStepwise buffer start = some (d.draw buffer start) := by
  cases d with
  | block faces ctx => exact congrArg some (emitStepwise_ofFaces faces ctx buffer start)
  | state parts weight ctx =>
      change some (parts.foldl _ _) = some ((parts.map Geometry.ofFaces).foldl _ _)
      rw [List.foldl_map]
      simp only [emitStepwise_ofFaces]
  | cube atlas texture offset sides colour =>
      exact congrArg some (emitCubeStepwise_eq atlas texture offset sides colour buffer start)
  | item g offset palette =>
      have hsize : (g.vertices offset palette).size = g.corners.size := Array.size_map ..
      change (Columns.ofBucket g.corners).draw? offset palette buffer start
        = some (_, start + (g.vertices offset palette).size)
      rw [Columns.draw?_ofBucket, hsize]
      rfl

end Drawing

section Commuting

variable {α : Type} [Scalar α] [Gamma α]

/-- **Drawings that do not overlap can be exchanged.** -/
theorem Drawing.draw_comm {a b : Drawing α} {s t : Nat} (h : Disjoint (a.range s) (b.range t))
    (buffer : VertexBuffer α) :
    (b.draw (a.draw buffer s).1 t).1 = (a.draw (b.draw buffer t).1 s).1 := by
  rw [Drawing.range, Drawing.range, ← a.sum_size_pieces, ← b.sum_size_pieces] at h
  simp only [Drawing.draw_eq_writeAll]
  exact VertexBuffer.writeAll_comm buffer h

namespace StateGeometry

variable (weight : Nat) (ctx : EmitContext α) (buffer : VertexBuffer α) (start : Nat)

/-- What drawing a state leaves alone. -/
theorem getElem?_emit (parts : List (List (FaceQuad α))) {i : Nat}
    (hi : i ∉ Set.Ico start ((ofFaces parts weight).emit ctx buffer start).2) :
    ((ofFaces parts weight).emit ctx buffer start).1[i]? =
      if i < buffer.size then buffer[i]?
        else if i < start ∧ parts ≠ [] then some Vertex.blank else none := by
  have hdraw : (ofFaces parts weight).emit ctx buffer start
      = buffer.writeAll start (Drawing.state parts weight ctx).pieces :=
    (Drawing.state parts weight ctx).draw_eq_writeAll buffer start
  have hpieces : (Drawing.state parts weight ctx).pieces ≠ [] ↔ parts ≠ [] := by
    rw [Drawing.pieces, ne_eq, ne_eq, List.map_eq_nil_iff]
  rw [hdraw, VertexBuffer.snd_writeAll] at hi
  rw [hdraw, VertexBuffer.getElem?_writeAll buffer start _ hi]
  simp only [hpieces]

/-- **A part of a state is drawn behind those before it, as if it were drawn there alone.** -/
theorem emit_part (before : List (List (FaceQuad α))) (part : List (FaceQuad α))
    (after : List (List (FaceQuad α))) (other : VertexBuffer α) :
    let out := (ofFaces (before ++ part :: after) weight).emit ctx buffer start
    let place := start + (ofFaces before weight).vertexCount ctx.sides
    let alone := VoxelBake.emit (.ofFaces part) ctx other place
    alone.2 ≤ out.2 ∧ ∀ i ∈ Set.Ico place alone.2, out.1[i]? = alone.1[i]? := by
  intro out place alone
  have hbefore : ((Drawing.state before weight ctx).pieces.map Array.size).sum
      = (ofFaces before weight).vertexCount ctx.sides :=
    (Drawing.state before weight ctx).sum_size_pieces
  have hout : out = buffer.writeAll start ((Drawing.state before weight ctx).pieces
      ++ blockVertices (.ofFaces part) ctx :: (Drawing.state after weight ctx).pieces) := by
    refine (Drawing.draw_eq_writeAll (.state (before ++ part :: after) weight ctx) _ _).trans ?_
    rw [Drawing.pieces, List.map_append, List.map_cons]
    rfl
  have hstop : alone.2 = place + (blockVertices (.ofFaces part) ctx).size := rfl
  constructor
  · rw [hstop, hout, VertexBuffer.snd_writeAll, List.map_append, List.sum_append, List.map_cons,
      List.sum_cons, hbefore]
    omega
  · intro i hi
    have hplace : place = start + ((Drawing.state before weight ctx).pieces.map Array.size).sum :=
      congrArg (start + ·) hbefore.symm
    rw [hstop] at hi
    rw [hout]
    exact VertexBuffer.getElem?_writeAll_append _ _ _ _ _ other hplace hi

end StateGeometry

/-- **Drawings that do not overlap can be made in any order.**  Any two drawings that take disjoint
places leave the same buffer in either order, whatever was in it, however long it was and whatever
lies between them, and both end where they end alone.  Vertex by vertex they are drawn in the same
way, and they end behind as many places as were counted for them.  A state ends behind the vertices
of its parts and leaves all other places as they were; its parts stand back to back in order, each
one as it stands at its place if it is drawn alone, into any buffer. -/
theorem disjoint_drawings_commute :
    (∀ (d : Drawing α) (buffer : VertexBuffer α) (start : Nat),
      d.drawStepwise buffer start = some (d.draw buffer start) ∧
      (d.draw buffer start).2 = start + d.count) ∧
    (∀ (a b : Drawing α) (buffer : VertexBuffer α) (s t : Nat),
      Disjoint (a.range s) (b.range t) →
        (b.draw (a.draw buffer s).1 t).1 = (a.draw (b.draw buffer t).1 s).1 ∧
        (b.draw (a.draw buffer s).1 t).2 = (b.draw buffer t).2 ∧
        (a.draw (b.draw buffer t).1 s).2 = (a.draw buffer s).2) ∧
    ∀ (parts : List (List (FaceQuad α))) (weight : Nat) (ctx : EmitContext α)
      (buffer : VertexBuffer α) (start : Nat),
      let out := (StateGeometry.ofFaces parts weight).emit ctx buffer start
      out.2 = start + (StateGeometry.ofFaces parts weight).vertexCount ctx.sides ∧
      (∀ i, i ∉ Set.Ico start out.2 → out.1[i]? = if i < buffer.size then buffer[i]?
        else if i < start ∧ parts ≠ [] then some Vertex.blank else none) ∧
      ∀ (before : List (List (FaceQuad α))) (part : List (FaceQuad α))
        (after : List (List (FaceQuad α))), parts = before ++ part :: after →
        ∀ other : VertexBuffer α,
          let place := start + (StateGeometry.ofFaces before weight).vertexCount ctx.sides
          let alone := emit (.ofFaces part) ctx other place
          alone.2 = place + (Geometry.ofFaces part).vertexCount ctx.sides ∧ alone.2 ≤ out.2 ∧
          ∀ i ∈ Set.Ico place alone.2, out.1[i]? = alone.1[i]? := by
  refine ⟨?_, ?_, ?_⟩
  · intro d buffer start
    exact ⟨d.drawStepwise_eq buffer start, d.snd_draw buffer start⟩
  · intro a b buffer s t h
    refine ⟨Drawing.draw_comm h buffer, ?_, ?_⟩
    · rw [Drawing.snd_draw, Drawing.snd_draw]
    · rw [Drawing.snd_draw, Drawing.snd_draw]
  · intro parts weight ctx buffer start out
    refine ⟨(Drawing.state parts weight ctx).snd_draw buffer start, ?_, ?_⟩
    · intro i hi
      exact StateGeometry.getElem?_emit weight ctx buffer start parts hi
    · intro before part after hparts other place alone
      subst hparts
      exact ⟨(Drawing.block part ctx).snd_draw other place,
        StateGeometry.emit_part weight ctx buffer start before part after other⟩

end Commuting

/-- A state of two parts, each of them the bricks. -/
def brickState : Drawing Float32 :=
  .state [brickModel.faceQuads .identity brickAtlas, brickModel.faceQuads .identity brickAtlas] 1
    { EmitContext.plain with sides := 0b000011 }

/-- Three sides of the bricks. -/
def brickCube : Drawing Float32 :=
  .cube brickAtlas ⟨"minecraft", "block/bricks"⟩ (Vec3.uniform (8 : Nat)) 0b100101 white

/-- The state stands behind the cube, with a gap of three places between them and another before
the cube; the buffer reaches to neither. -/
theorem disjoint_drawings_commute_bricks :
    brickCube.range 5 = Set.Ico 5 17 ∧ brickState.range 20 = Set.Ico 20 36 ∧
    (brickState.draw (brickCube.draw (VertexBuffer.ofLength 3) 5).1 20).1
      = (brickCube.draw (brickState.draw (VertexBuffer.ofLength 3) 20).1 5).1 := by
  have hcube : brickCube.range 5 = Set.Ico 5 17 := by
    have hcount : 5 + brickCube.count = 17 := by decide
    rw [Drawing.range, hcount]
  have hstate : brickState.range 20 = Set.Ico 20 36 := by
    have hcount : 20 + brickState.count = 36 := by decide
    rw [Drawing.range, hcount]
  have hdisjoint : Disjoint (brickCube.range 5) (brickState.range 20) := by
    rw [hcube, hstate, Set.Ico_disjoint_Ico]
    decide
  obtain ⟨-, hcommute, -⟩ := disjoint_drawings_commute (α := Float32)
  exact ⟨hcube, hstate,
    (hcommute brickCube brickState (VertexBuffer.ofLength 3) 5 20 hdisjoint).1⟩

end VoxelBake
