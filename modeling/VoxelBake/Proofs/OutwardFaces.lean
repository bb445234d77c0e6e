/-
**Every compiled face lies on its side of the box and looks outward.**

A face takes its four corners from the box by a table of corner numbers, the turns of the model
carry these corners about the block, and the side that the face looks to is carried separately.  For
a box that is not flat these three agree: the corners are those of the turned box that lie farthest
in the direction of the turned side, and the two triangles of the face are turned so that their
normals point there.  Positions are read as exact rationals.

The proof turns the box one quarter at a time.  A quarter turn moves heights along a direction by
the same amount everywhere (`Direction.height_rotate`) and carries normals along
(`Triangle.looksTo_rotate`), so both statements have to be checked for a box that is not turned
only, once for each of the six tables of corner numbers.

Main definitions:

* `Orientation.ringDirection` — where a direction goes, read off two rings of four sides;
* `Direction.vector`, `Direction.height`, `Direction.side` — a direction as a vector, how far a
  point lies along it, and the points of a solid that lie farthest;
* `Element.solid`, `Element.vertices` — a box, and its eight corners;
* `Triangle`, `Quad.triangles`, `Triangle.normal` — the two triangles of a face, and where they
  point.

Main results:

* `Orientation.ringDirection_eq` — the rings agree with the quarter turns;
* `Direction.side_rotate` — the farthest side of a turned solid is the turned side;
* `Element.mem_winding_iff` — the table of corner numbers takes the corners of the right side;
* `compiled_faces_outward` — **compiled faces lie on their sides and look outward**.
-/
import Mathlib.Algebra.Order.Ring.Rat
import Mathlib.Data.List.Nodup
import Mathlib.Data.Set.Function
import Mathlib.Tactic.Linarith
import VoxelBake.Proofs.LockedTextures

set_option relaxedAutoImplicit false
set_option autoImplicit false

namespace VoxelBake

/-! ### Sides by rings -/

/-- The four upright sides in the order in which a turn about the vertical axis carries them. -/
def levelRing : List Direction := [.north, .east, .south, .west]

/-- A side of a ring replaced by the side that stands in its place in another ring; sides that are
not on the ring stay. -/
def passAlong (ring turned : List Direction) (d : Direction) : Direction :=
  (turned[ring.idxOf d]?).getD d

namespace Orientation

/-- Where a direction goes, read off two rings.  The level ring moves on by the turns about the
vertical axis.  The sides that have come north and south then stand in a ring with the lower and the
upper side, and this ring moves on by the turns about the axis between the other two. -/
def ringDirection (o : Orientation) (d : Direction) : Direction :=
  let level := levelRing.rotate (o.yaw % 4)
  let upright := [level[0]?.getD .north, .down, level[2]?.getD .south, .up]
  passAlong upright (upright.rotate (o.pitch % 4)) (passAlong levelRing level d)

/-- **The rings agree with the quarter turns**, for each of the sixteen orientations. -/
theorem ringDirection_eq (o : Orientation) (d : Direction) :
    o.ringDirection d = o.rotateDirection d := by
  have table : ∀ pitch yaw : Fin 4, ∀ d ∈ Direction.all,
      ringDirection ⟨pitch, yaw, false⟩ d = rotateDirection ⟨pitch, yaw, false⟩ d := by decide
  have hmod : ∀ n, n % 4 % 4 = n % 4 := fun n => Nat.mod_mod n 4
  have hreduced := table ⟨o.pitch % 4, Nat.mod_lt _ (by decide)⟩
    ⟨o.yaw % 4, Nat.mod_lt _ (by decide)⟩ d d.mem_all
  rw [← o.rotateDirection_reduced]
  simp only [ringDirection, hmod] at hreduced
  exact hreduced

/-- **What holds without turns, and is kept by a quarter turn about either axis, holds of every
orientation.** -/
theorem of_quarters {P : (Direction → Direction) → (Vec3 Rat → Vec3 Rat) → Prop} (hid : P id id)
    (hx : ∀ r f, P r f → P (Direction.quarterX ∘ r) (quarterX ∘ f))
    (hy : ∀ r f, P r f → P (Direction.quarterY ∘ r) (quarterY ∘ f)) (o : Orientation) :
    P o.rotateDirection o.rotatePoint := by
  have hpitch : ∀ n, P (Nat.repeat Direction.quarterX n) (Nat.repeat quarterX n) := by
    intro n
    induction n with
    | zero => exact hid
    | succ n ih => exact hx _ _ ih
  have hyaw : ∀ n, P (fun d => Nat.repeat Direction.quarterY n
        (Nat.repeat Direction.quarterX o.pitch d))
      (fun p => Nat.repeat quarterY n (Nat.repeat quarterX o.pitch p)) := by
    intro n
    induction n with
    | zero => exact hpitch o.pitch
    | succ n ih => exact hy _ _ ih
  exact hyaw o.yaw

/-- Turns keep points apart. -/
theorem rotatePoint_injective (o : Orientation) :
    Function.Injective (o.rotatePoint : Vec3 Rat → Vec3 Rat) := by
  refine of_quarters (P := fun _ f => Function.Injective f) Function.injective_id ?_ ?_ o
  · intro _ f hf
    refine Function.Injective.comp ?_ hf
    rintro ⟨x, y, z⟩ ⟨x', y', z'⟩ h
    simp only [quarterX, Vec3.mk.injEq] at h ⊢
    grind
  · intro _ f hf
    refine Function.Injective.comp ?_ hf
    rintro ⟨x, y, z⟩ ⟨x', y', z'⟩ h
    simp only [quarterY, Vec3.mk.injEq] at h ⊢
    grind

end Orientation

/-! ### Heights along a direction -/

namespace Direction

/-- The step to the neighbour on a side. -/
def vector (d : Direction) : Vec3 Rat := ⟨d.offset.1, d.offset.2.1, d.offset.2.2⟩

/-- How far a point lies along a direction. -/
def height (d : Direction) (p : Vec3 Rat) : Rat :=
  d.vector.x * p.x + d.vector.y * p.y + d.vector.z * p.z

theorem height_eq (d : Direction) (p : Vec3 Rat) :
    d.height p = match d with
      | .down => -p.y
      | .up => p.y
      | .north => -p.z
      | .south => p.z
      | .west => -p.x
      | .east => p.x := by
  cases d <;> simp [height, vector, offset]

/-- The points of a solid that lie farthest along a direction. -/
def side (d : Direction) (s : Set (Vec3 Rat)) : Set (Vec3 Rat) :=
  {p | p ∈ s ∧ ∀ q ∈ s, d.height q ≤ d.height p}

/-- **Turns move all heights by the same amount.** -/
theorem height_rotate (o : Orientation) (d : Direction) (p q : Vec3 Rat) :
    (o.rotateDirection d).height (o.rotatePoint p) - (o.rotateDirection d).height (o.rotatePoint q)
      = d.height p - d.height q := by
  have hquarterX : ∀ (d : Direction) (p q : Vec3 Rat),
      d.quarterX.height (Orientation.quarterX p) - d.quarterX.height (Orientation.quarterX q)
        = d.height p - d.height q := by
    intro d p q
    cases d <;> simp only [height_eq, quarterX, Orientation.quarterX] <;> grind
  have hquarterY : ∀ (d : Direction) (p q : Vec3 Rat),
      d.quarterY.height (Orientation.quarterY p) - d.quarterY.height (Orientation.quarterY q)
        = d.height p - d.height q := by
    intro d p q
    cases d <;> simp only [height_eq, quarterY, Orientation.quarterY] <;> grind
  refine Orientation.of_quarters (P := fun r f => ∀ d p q,
    (r d).height (f p) - (r d).height (f q) = d.height p - d.height q) ?_ ?_ ?_ o d p q
  · intro d p q
    rfl
  · intro r f ih d p q
    exact (hquarterX (r d) (f p) (f q)).trans (ih d p q)
  · intro r f ih d p q
    exact (hquarterY (r d) (f p) (f q)).trans (ih d p q)

/-- **The farthest side of a turned solid is the turned side.** -/
theorem side_rotate (o : Orientation) (d : Direction) (s : Set (Vec3 Rat)) :
    (o.rotateDirection d).side (o.rotatePoint '' s) = o.rotatePoint '' d.side s := by
  ext p
  constructor
  · rintro ⟨⟨p, hp, rfl⟩, hfar⟩
    refine ⟨p, ⟨hp, ?_⟩, rfl⟩
    intro q hq
    have hmoved := hfar _ ⟨q, hq, rfl⟩
    have hsame := height_rotate o d p q
    linarith
  · rintro ⟨p, ⟨hp, hfar⟩, rfl⟩
    refine ⟨⟨p, hp, rfl⟩, ?_⟩
    rintro _ ⟨q, hq, rfl⟩
    have hstill := hfar q hq
    have hsame := height_rotate o d p q
    linarith

end Direction

/-! ### Boxes -/

namespace Element

/-- A box with a corner below the opposite one on every axis. -/
structure Thick (e : Element Rat) : Prop where
  x : e.low.x < e.high.x
  y : e.low.y < e.high.y
  z : e.low.z < e.high.z

/-- The points of a box, in blocks. -/
def solid (e : Element Rat) : Set (Vec3 Rat) :=
  {p | (inBlocks e.low.x ≤ p.x ∧ p.x ≤ inBlocks e.high.x) ∧
    (inBlocks e.low.y ≤ p.y ∧ p.y ≤ inBlocks e.high.y) ∧
    (inBlocks e.low.z ≤ p.z ∧ p.z ≤ inBlocks e.high.z)}

/-- The eight corners of a box, in blocks. -/
def vertices (e : Element Rat) : Set (Vec3 Rat) :=
  {p | (p.x = inBlocks e.low.x ∨ p.x = inBlocks e.high.x) ∧
    (p.y = inBlocks e.low.y ∨ p.y = inBlocks e.high.y) ∧
    (p.z = inBlocks e.low.z ∨ p.z = inBlocks e.high.z)}

/-- How far a box reaches in a direction. -/
def reach (e : Element Rat) : Direction → Rat
  | .up => inBlocks e.high.y
  | .down => -inBlocks e.low.y
  | .south => inBlocks e.high.z
  | .north => -inBlocks e.low.z
  | .east => inBlocks e.high.x
  | .west => -inBlocks e.low.x

theorem inBlocks_lt {a b : Rat} (h : a < b) : inBlocks a < inBlocks b := by
  have hsixteen : ((16 : Nat) : Rat) = 16 := rfl
  simp only [inBlocks, hsixteen]
  linarith

/-- The edges of a thick box have a length. -/
theorem Thick.edges {e : Element Rat} (h : e.Thick) :
    inBlocks e.low.x < inBlocks e.high.x ∧ inBlocks e.low.y < inBlocks e.high.y ∧
      inBlocks e.low.z < inBlocks e.high.z :=
  ⟨inBlocks_lt h.x, inBlocks_lt h.y, inBlocks_lt h.z⟩

theorem vertices_subset_solid {e : Element Rat} (h : e.Thick) : e.vertices ⊆ e.solid := by
  obtain ⟨hx, hy, hz⟩ := h.edges
  rintro p ⟨px, py, pz⟩
  refine ⟨?_, ?_, ?_⟩
  · rcases px with px | px <;> rw [px] <;> exact ⟨by linarith, by linarith⟩
  · rcases py with py | py <;> rw [py] <;> exact ⟨by linarith, by linarith⟩
  · rcases pz with pz | pz <;> rw [pz] <;> exact ⟨by linarith, by linarith⟩

/-- No point of a box lies farther than the box reaches. -/
theorem height_le_reach {e : Element Rat} {p : Vec3 Rat} (hp : p ∈ e.solid) (d : Direction) :
    d.height p ≤ e.reach d := by
  obtain ⟨⟨hx, hx'⟩, ⟨hy, hy'⟩, hz, hz'⟩ := hp
  cases d <;> simp only [Direction.height_eq, reach] <;> linarith

/-- Some corner of a box lies as far as the box reaches. -/
theorem exists_height_eq_reach (e : Element Rat) (d : Direction) :
    ∃ p ∈ e.vertices, d.height p = e.reach d := by
  simp only [Direction.height_eq]
  cases d
  case down | north | west => exact ⟨e.low.map inBlocks, ⟨.inl rfl, .inl rfl, .inl rfl⟩, rfl⟩
  case up | south | east => exact ⟨e.high.map inBlocks, ⟨.inr rfl, .inr rfl, .inr rfl⟩, rfl⟩

/-- The farthest points of a box are those that lie as far as it reaches. -/
theorem mem_side_iff {e : Element Rat} (h : e.Thick) (d : Direction) (p : Vec3 Rat) :
    p ∈ d.side e.solid ↔ p ∈ e.solid ∧ d.height p = e.reach d := by
  constructor
  · rintro ⟨hp, hfar⟩
    obtain ⟨q, hq, hreach⟩ := e.exists_height_eq_reach d
    refine ⟨hp, le_antisymm (height_le_reach hp d) ?_⟩
    rw [← hreach]
    exact hfar q (vertices_subset_solid h hq)
  · rintro ⟨hp, hreach⟩
    refine ⟨hp, ?_⟩
    intro q hq
    rw [hreach]
    exact height_le_reach hq d

/-- **The table of corner numbers takes the corners of the right side.** -/
theorem mem_winding_iff {e : Element Rat} (h : e.Thick) (d : Direction) (p : Vec3 Rat) :
    p ∈ ((winding d).map (boxCorners e.low e.high).get).toList
      ↔ p ∈ e.vertices ∧ p ∈ d.side e.solid := by
  have hside : (p ∈ e.vertices ∧ p ∈ d.side e.solid) ↔ p ∈ e.vertices ∧ d.height p = e.reach d := by
    rw [mem_side_iff h]
    constructor
    · rintro ⟨hp, -, hreach⟩
      exact ⟨hp, hreach⟩
    · rintro ⟨hp, hreach⟩
      exact ⟨hp, vertices_subset_solid h hp, hreach⟩
  obtain ⟨x, y, z⟩ := p
  obtain ⟨hx, hy, hz⟩ := h.edges
  rw [hside, winding_boxCorners]
  cases d <;>
    simp only [Quad.toList, Vec3.map, vertices, Direction.height_eq, reach, List.mem_cons,
      List.not_mem_nil, or_false, Vec3.mk.injEq, Set.mem_ofPred_eq] <;>
    grind

/-- The turns carry these corners to the corners of the turned side. -/
theorem mem_turned_winding_iff {e : Element Rat} (h : e.Thick) (o : Orientation) (d : Direction)
    (p : Vec3 Rat) :
    p ∈ ((winding d).map (boxCorners e.low e.high).get).toList.map o.rotatePoint
      ↔ p ∈ o.rotatePoint '' e.vertices ∧
        p ∈ (o.rotateDirection d).side (o.rotatePoint '' e.solid) := by
  calc p ∈ ((winding d).map (boxCorners e.low e.high).get).toList.map o.rotatePoint
      ↔ p ∈ o.rotatePoint '' (e.vertices ∩ d.side e.solid) := by
        simp only [List.mem_map, mem_winding_iff h, Set.mem_image, Set.mem_inter_iff]
    _ ↔ p ∈ o.rotatePoint '' e.vertices ∧ p ∈ o.rotatePoint '' d.side e.solid := by
        rw [Set.image_inter o.rotatePoint_injective, Set.mem_inter_iff]
    _ ↔ p ∈ o.rotatePoint '' e.vertices ∧
        p ∈ (o.rotateDirection d).side (o.rotatePoint '' e.solid) := by
        rw [Direction.side_rotate]

/-- The corners of a side are four different points. -/
theorem nodup_winding {e : Element Rat} (h : e.Thick) (d : Direction) :
    ((winding d).map (boxCorners e.low e.high).get).toList.Nodup := by
  obtain ⟨hx, hy, hz⟩ := h.edges
  rw [winding_boxCorners]
  cases d <;>
    simp only [Quad.toList, Vec3.map, List.nodup_cons, List.mem_cons, List.not_mem_nil, or_false,
      Vec3.mk.injEq] <;>
    grind

end Element

/-! ### Triangles -/

/-- A triangle of space, seen from the side from which its corners run counterclockwise. -/
structure Triangle where
  /-- The first corner. -/
  first : Vec3 Rat
  /-- The second corner. -/
  second : Vec3 Rat
  /-- The third corner. -/
  third : Vec3 Rat

/-- The two triangles of which a face is drawn. -/
def Quad.triangles (q : Quad (Vec3 Rat)) : List Triangle :=
  [⟨q.topLeft, q.bottomLeft, q.topRight⟩, ⟨q.topRight, q.bottomLeft, q.bottomRight⟩]

namespace Triangle

/-- A triangle with each corner moved. -/
def map (f : Vec3 Rat → Vec3 Rat) (t : Triangle) : Triangle := ⟨f t.first, f t.second, f t.third⟩

/-- The normal of a triangle: the cross product of its first two edges, as long as twice its
area. -/
def normal (t : Triangle) : Vec3 Rat :=
  let u := t.second - t.first
  let v := t.third - t.first
  ⟨u.y * v.z - u.z * v.y, u.z * v.x - u.x * v.z, u.x * v.y - u.y * v.x⟩

/-- The normal of a triangle points in a direction. -/
def LooksTo (t : Triangle) (d : Direction) : Prop :=
  ∃ k : Rat, 0 < k ∧ t.normal = d.vector.map (k * ·)

theorem looksTo_quarterX {t : Triangle} {d : Direction} (h : t.LooksTo d) :
    (t.map Orientation.quarterX).LooksTo d.quarterX := by
  obtain ⟨k, hk, hn⟩ := h
  have hnormal : (t.map Orientation.quarterX).normal
      = ⟨t.normal.x, t.normal.z, -t.normal.y⟩ := by
    simp only [normal, map, Orientation.quarterX, Vec3.mk.injEq, Vec3.sub_x, Vec3.sub_y,
      Vec3.sub_z]
    grind
  have hvector : d.quarterX.vector = ⟨d.vector.x, d.vector.z, -d.vector.y⟩ := by
    cases d <;> rfl
  refine ⟨k, hk, ?_⟩
  rw [hnormal, hvector, hn]
  simp [Vec3.map]

theorem looksTo_quarterY {t : Triangle} {d : Direction} (h : t.LooksTo d) :
    (t.map Orientation.quarterY).LooksTo d.quarterY := by
  obtain ⟨k, hk, hn⟩ := h
  have hnormal : (t.map Orientation.quarterY).normal
      = ⟨-t.normal.z, t.normal.y, t.normal.x⟩ := by
    simp only [normal, map, Orientation.quarterY, Vec3.mk.injEq, Vec3.sub_x, Vec3.sub_y,
      Vec3.sub_z]
    grind
  have hvector : d.quarterY.vector = ⟨-d.vector.z, d.vector.y, d.vector.x⟩ := by
    cases d <;> rfl
  refine ⟨k, hk, ?_⟩
  rw [hnormal, hvector, hn]
  simp [Vec3.map]

/-- **Turns carry normals along.** -/
theorem looksTo_rotate (o : Orientation) {t : Triangle} {d : Direction} (h : t.LooksTo d) :
    (t.map o.rotatePoint).LooksTo (o.rotateDirection d) := by
  refine Orientation.of_quarters (P := fun r f => ∀ t d, Triangle.LooksTo t d →
    (t.map f).LooksTo (r d)) ?_ ?_ ?_ o t d h
  · intro t d h
    exact h
  · intro r f ih t d h
    exact looksTo_quarterX (ih t d h)
  · intro r f ih t d h
    exact looksTo_quarterY (ih t d h)

end Triangle

theorem Quad.triangles_map (f : Vec3 Rat → Vec3 Rat) (q : Quad (Vec3 Rat)) :
    (q.map f).triangles = q.triangles.map (Triangle.map f) := rfl

namespace Element

/-- The area of a side of a box. -/
def sideArea (e : Element Rat) (d : Direction) : Rat :=
  let edge (low high : Rat) : Rat := inBlocks high - inBlocks low
  match d with
  | .up | .down => edge e.low.x e.high.x * edge e.low.z e.high.z
  | .north | .south => edge e.low.x e.high.x * edge e.low.y e.high.y
  | .west | .east => edge e.low.y e.high.y * edge e.low.z e.high.z

theorem sideArea_pos {e : Element Rat} (h : e.Thick) (d : Direction) : 0 < e.sideArea d := by
  obtain ⟨hx, hy, hz⟩ := h.edges
  cases d <;> exact mul_pos (by linarith) (by linarith)

/-- **Both triangles of a side have the area of the side as their normal.** -/
theorem normal_winding (e : Element Rat) (d : Direction) :
    ∀ t ∈ ((winding d).map (boxCorners e.low e.high).get).triangles,
      t.normal = d.vector.map (e.sideArea d * ·) := by
  intro t ht
  rw [winding_boxCorners] at ht
  simp only [Quad.triangles, List.mem_cons, List.not_mem_nil, or_false] at ht
  cases d <;> rcases ht with rfl | rfl <;>
    simp only [Triangle.normal, Vec3.sub_x, Vec3.sub_y, Vec3.sub_z, Vec3.map, sideArea,
      Direction.vector, Direction.offset, Vec3.mk.injEq] <;>
    grind

end Element

/-! ### Compiled faces -/

section Compiled

variable [Trig Rat]

/-- A face of a box without turns of its own takes its corners by the table, and the model turns
them. -/
theorem Model.positions_unturned (m : Model Rat) (o : Orientation) (atlas : Atlas Rat)
    {e : Element Rat} (hr : e.rotation = none) (f : Direction × Face Rat) :
    (m.faceQuad o atlas (e.corners o) f).positions
      = ((winding f.1).map (boxCorners e.low e.high).get).map o.rotatePoint := by
  simp only [Model.faceQuad, Quad.map, Element.get_corners_of_unturned hr]

/-- **Compiled faces lie on their sides and look outward.**  Take a box that is not flat and has no
turns of its own, and a face of it.  The four corners of the face stand together in the compiled
model.  The face looks to the turned side, whether this is found by quarter turns or by rings; its
corners are four different points, and they are those corners of the turned box that lie on its
farthest side in this direction; and the normals of both triangles are positive multiples of the
step to the neighbour on this side. -/
theorem compiled_faces_outward (m : Model Rat) (atlas : Atlas Rat) (o : Orientation)
    {e : Element Rat} (he : e ∈ m.elements) (hr : e.rotation = none) (hthick : e.Thick)
    {d : Direction} {f : Face Rat} (hf : (d, f) ∈ e.faces) :
    let quad := m.faceQuad o atlas (e.corners o) (d, f)
    quad.corners <:+: ((compile m o atlas).bucket (o.remap f.cull)).toList ∧
    ∃ w, o.remap (some d) = some w ∧ o.ringDirection d = w ∧ quad.facing = some w ∧
      quad.positions.toList.Nodup ∧
      (∀ p, p ∈ quad.positions.toList ↔
        p ∈ o.rotatePoint '' e.vertices ∧ p ∈ w.side (o.rotatePoint '' e.solid)) ∧
      ∀ t ∈ quad.positions.triangles, ∃ k : Rat, 0 < k ∧ t.normal = w.vector.map (k * ·) := by
  intro quad
  have hquad : quad = m.siteQuad o atlas (e, d, f) := rfl
  have hpositions : quad.positions = ((winding d).map (boxCorners e.low e.high).get).map
      o.rotatePoint := m.positions_unturned o atlas hr (d, f)
  have hlist : quad.positions.toList
      = (((winding d).map (boxCorners e.low e.high).get).toList).map o.rotatePoint := by
    rw [hpositions]
    rfl
  refine ⟨?_, o.rotateDirection d, o.remap_some d, o.ringDirection_eq d, o.remap_some d, ?_, ?_, ?_⟩
  · have hsite : (e, d, f) ∈ m.sites :=
      List.mem_flatMap.2 ⟨e, he, List.mem_map.2 ⟨(d, f), hf, rfl⟩⟩
    rw [hquad]
    exact m.corners_siteQuad_infix o atlas hsite
  · rw [hlist]
    exact (Element.nodup_winding hthick d).map o.rotatePoint_injective
  · intro p
    rw [hlist]
    exact Element.mem_turned_winding_iff hthick o d p
  · intro t ht
    rw [hpositions, Quad.triangles_map] at ht
    obtain ⟨t, hstill, rfl⟩ := List.mem_map.1 ht
    exact Triangle.looksTo_rotate o
      ⟨e.sideArea d, Element.sideArea_pos hthick d, e.normal_winding d t hstill⟩

end Compiled

/-- The lid of a trunk that is wider than high. -/
def trunkLid : Face Rat := ⟨⟨0, 0, 16, 16⟩, .slot "lid", none, 0, -1⟩

/-- A trunk that is not centred. -/
def trunk : Element Rat := ⟨⟨1, 3, 6⟩, ⟨10, 5, 15⟩, none, true, [(.up, trunkLid)]⟩

/-- Tipped to the north and then turned three quarters, the lid of the trunk looks west. -/
theorem compiled_faces_outward_trunk :
    letI := noTurn
    let o : Orientation := ⟨1, 3, false⟩
    let m : Model Rat := ⟨∅, [trunk], ∅⟩
    let quad := m.faceQuad o crateAtlas (trunk.corners o) (.up, trunkLid)
    trunk.rotation = none ∧ trunk.Thick ∧ quad.facing = some .west ∧
    (∀ p, p ∈ quad.positions.toList ↔ p ∈ o.rotatePoint '' trunk.vertices ∧
      p ∈ Direction.west.side (o.rotatePoint '' trunk.solid)) ∧
    ∀ t ∈ quad.positions.triangles, ∃ k : Rat, 0 < k ∧ t.normal = ⟨-k, 0, 0⟩ := by
  let _ := noTurn
  intro o m quad
  have hthick : trunk.Thick := ⟨by decide, by decide, by decide⟩
  obtain ⟨-, w, hremap, -, hfacing, -, hcorners, hnormals⟩ := compiled_faces_outward m crateAtlas o
    (List.mem_singleton.2 rfl) rfl hthick (List.mem_singleton.2 rfl)
  have hwest : w = .west := (Option.some.inj hremap).symm
  subst hwest
  refine ⟨rfl, hthick, hfacing, hcorners, ?_⟩
  intro t ht
  obtain ⟨k, hk, hnormal⟩ := hnormals t ht
  refine ⟨k, hk, hnormal.trans ?_⟩
  simp [Direction.vector, Direction.offset, Vec3.map]

end VoxelBake
