/-
**Each corner of a face is darkened by the three cells around it and by no others.**

The cells around a face are listed in tables, one for each side, and which value belongs to which
corner of the block follows from a second table, the coordinates within the plane of the face.  Both
tables agree with the geometry: at a corner of a side, the cells that count are the two beside the
corner and the one across, in the layer in front of the side or in that of the block.  The value is
one less the intensity for each of them that is occupied, but never below zero.  Numbers are read as
exact rationals.

Main definitions:

* `unitCorners` — the eight corners of the block;
* `Axis.stepTowards`, `Direction.cellsAround` — **the three cells around a corner of a side**;
* `Quad.at`, `Ring.around` — the value of one corner, and the cells that it is computed from.

Main results:

* `Ring.at_corners` — the value of a corner, by counting cells;
* `Direction.around_perm_cellsAround` — the tables list the cells around each corner;
* `corner_occlusion` — **what a corner keeps**.
-/
import VoxelBake.Proofs.OcclusionOrder
import VoxelBake.Proofs.OutwardFaces

set_option relaxedAutoImplicit false
set_option autoImplicit false

namespace VoxelBake

/-! ### Cells around a corner -/

/-- The eight corners of the block. -/
def unitCorners : Set (Vec3 Rat) :=
  {p | (p.x = 0 ∨ p.x = 1) ∧ (p.y = 0 ∨ p.y = 1) ∧ (p.z = 0 ∨ p.z = 1)}

namespace Axis

/-- The two other axes. -/
def others : Axis → Axis × Axis
  | x => (y, z)
  | y => (x, z)
  | z => (x, y)

/-- The step to the next cell along an axis, from the middle of the block towards a point. -/
def stepTowards (a : Axis) (p : Vec3 Rat) : Vec3 Int :=
  let step (c : Rat) : Int := if c < 1 / 2 then -1 else 1
  match a with
  | x => ⟨step p.x, 0, 0⟩
  | y => ⟨0, step p.y, 0⟩
  | z => ⟨0, 0, step p.z⟩

end Axis

namespace Direction

/-- The step to the layer in front of a side. -/
def step (d : Direction) : Vec3 Int := ⟨d.offset.1, d.offset.2.1, d.offset.2.2⟩

/-- The three cells of a layer around a point of a side: one step towards the point along either
axis of the side, and both steps. -/
def cellsAround (d : Direction) (layer : Vec3 Int) (p : Vec3 Rat) : List Nat :=
  let u := d.axis.others.1.stepTowards p
  let v := d.axis.others.2.stepTowards p
  [layer + u, layer + v, layer + u + v].map fun c => cellIndex c.x c.y c.z

end Direction

/-! ### Values of corners -/

/-- The value of one of the corners. -/
def Quad.at {β : Type} (q : Quad β) : (right upper : Bool) → β
  | false, false => q.bottomLeft
  | false, true => q.topLeft
  | true, false => q.bottomRight
  | true, true => q.topRight

/-- At a corner the mean is the value of that corner. -/
theorem Quad.blend_corner (q : Quad Rat) {h v : Rat} (hh : h = 0 ∨ h = 1) (hv : v = 0 ∨ v = 1) :
    q.blend h v = q.at (h = 1) (v = 1) := by
  rcases hh with rfl | rfl <;> rcases hv with rfl | rfl <;> simp [blend, Quad.at]

/-- What a corner keeps, by the number of occupied cells. -/
theorem cornerLight_eq_countP (m : NeighbourMask) (i : Rat) (side across side' : Nat) :
    cornerLight m i side across side'
      = max (1 - i * ([side, across, side'].countP m.getLsbD : Nat)) 0 := by
  have hshade : ∀ (cell : Nat) (cells : List Nat),
      shade m i cell + i * (cells.countP m.getLsbD : Nat)
        = i * ((cell :: cells).countP m.getLsbD : Nat) := by
    intro cell cells
    rw [shade, List.countP_cons]
    split
    · push_cast
      ring
    · exact zero_add _
  have hsum : shade m i side + shade m i across + shade m i side'
      = i * ([side, across, side'].countP m.getLsbD : Nat) := by
    rw [← hshade, ← hshade, ← hshade, List.countP_nil, Nat.cast_zero, mul_zero, add_zero,
      add_assoc]
  rw [cornerLight_eq, hsum]

namespace Ring

/-- The cells that the value of a corner is computed from. -/
def around (r : Ring) : (right upper : Bool) → List Nat
  | false, false => [r.bottom, r.bottomLeft, r.left]
  | false, true => [r.left, r.topLeft, r.top]
  | true, false => [r.right, r.bottomRight, r.bottom]
  | true, true => [r.top, r.topRight, r.right]

/-- **The value of a corner**, by the number of occupied cells around it. -/
theorem at_corners (r : Ring) (m : NeighbourMask) (i : Rat) (right upper : Bool) :
    (r.corners m i).at right upper
      = max (1 - i * ((r.around right upper).countP m.getLsbD : Nat)) 0 := by
  cases right <;> cases upper <;> exact cornerLight_eq_countP m i ..

end Ring

/-! ### Corners of the block -/

/-- The corner of the block with the given coordinates, true being one. -/
def unitPoint (x y z : Bool) : Vec3 Rat :=
  ⟨if x then 1 else 0, if y then 1 else 0, if z then 1 else 0⟩

theorem unitPoint_mem (x y z : Bool) : unitPoint x y z ∈ unitCorners := by
  cases x <;> cases y <;> cases z <;> simp [unitPoint, unitCorners]

theorem exists_eq_unitPoint {p : Vec3 Rat} (hp : p ∈ unitCorners) :
    ∃ x y z, p = unitPoint x y z := by
  obtain ⟨a, b, c⟩ := p
  obtain ⟨ha, hb, hc⟩ := hp
  have hbit : ∀ {t : Rat}, t = 0 ∨ t = 1 → ∃ bit : Bool, t = if bit then 1 else 0 := by
    rintro t (rfl | rfl)
    · exact ⟨false, rfl⟩
    · exact ⟨true, rfl⟩
  obtain ⟨x, hx⟩ := hbit ha
  obtain ⟨y, hy⟩ := hbit hb
  obtain ⟨z, hz⟩ := hbit hc
  exact ⟨x, y, z, by rw [unitPoint, ← hx, ← hy, ← hz]⟩

namespace Direction

/-- The cells around the corner of a ring at which a point of a side lies. -/
def around (d : Direction) (r : Ring) (p : Vec3 Rat) : List Nat :=
  r.around ((facePlane (some d) p).1 = 1) ((facePlane (some d) p).2 = 1)

/-- **The tables list the cells around each corner**, in the layer in front of the side and in that
of the block. -/
theorem around_perm_cellsAround {d : Direction} {p : Vec3 Rat} (hp : p ∈ d.side unitCorners) :
    (d.around (outerRing d) p).Perm (d.cellsAround d.step p) ∧
      (d.around (innerRing d) p).Perm (d.cellsAround ⟨0, 0, 0⟩ p) := by
  have table : ∀ d ∈ all, ∀ x y z : Bool,
      (∀ x' y' z' : Bool, d.height (unitPoint x' y' z') ≤ d.height (unitPoint x y z)) →
      (d.around (outerRing d) (unitPoint x y z)).Perm (d.cellsAround d.step (unitPoint x y z)) ∧
        (d.around (innerRing d) (unitPoint x y z)).Perm
          (d.cellsAround ⟨0, 0, 0⟩ (unitPoint x y z)) := by
    decide +kernel
  obtain ⟨hcorner, hfar⟩ := hp
  obtain ⟨x, y, z, rfl⟩ := exists_eq_unitPoint hcorner
  exact table d d.mem_all x y z fun x' y' z' => hfar _ (unitPoint_mem x' y' z')

/-- What a corner keeps among the cells of a ring. -/
theorem occlusionAt_corner (d : Direction) (r : Ring) (m : NeighbourMask) (i : Rat)
    {p : Vec3 Rat} (hp : p ∈ unitCorners) :
    occlusionAt (some d) (r.corners m i) p 0
      = max (1 - i * ((d.around r p).countP m.getLsbD : Nat)) 0 := by
  obtain ⟨hx, hy, hz⟩ := hp
  obtain ⟨hh, hv⟩ := facePlane_of_coordinates (P := fun a => a = 0 ∨ a = 1) (Or.inl rfl) hx hy hz
    (some d)
  rw [around, ← Ring.at_corners, ← Quad.blend_corner _ hh hv, occlusionAt_eq]
  ring

end Direction

/-- **What a corner keeps**: one less the intensity for each occupied cell of the three around it,
but no less than zero.  On a face on the boundary of the block these cells lie in the layer in
front, on a face inside it in the layer of the block; no other cell matters. -/
theorem corner_occlusion (d : Direction) {p : Vec3 Rat} (hp : p ∈ d.side unitCorners)
    (m : NeighbourMask) (i : Rat) :
    (occlusionAt (some d) (outerCorners (some d) m i) p 0
        = max (1 - i * ((d.cellsAround d.step p).countP m.getLsbD : Nat)) 0 ∧
      ∀ m' : NeighbourMask,
        (∀ cell ∈ d.cellsAround d.step p, m'.getLsbD cell = m.getLsbD cell) →
        occlusionAt (some d) (outerCorners (some d) m' i) p 0
          = occlusionAt (some d) (outerCorners (some d) m i) p 0) ∧
    (occlusionAt (some d) (innerCorners (some d) m i) p 0
        = max (1 - i * ((d.cellsAround ⟨0, 0, 0⟩ p).countP m.getLsbD : Nat)) 0 ∧
      ∀ m' : NeighbourMask,
        (∀ cell ∈ d.cellsAround ⟨0, 0, 0⟩ p, m'.getLsbD cell = m.getLsbD cell) →
        occlusionAt (some d) (innerCorners (some d) m' i) p 0
          = occlusionAt (some d) (innerCorners (some d) m i) p 0) := by
  have hring : ∀ (r : Ring) (cells : List Nat), (d.around r p).Perm cells →
      occlusionAt (some d) (r.corners m i) p 0
          = max (1 - i * (cells.countP m.getLsbD : Nat)) 0 ∧
        ∀ m' : NeighbourMask, (∀ cell ∈ cells, m'.getLsbD cell = m.getLsbD cell) →
          occlusionAt (some d) (r.corners m' i) p 0
            = occlusionAt (some d) (r.corners m i) p 0 := by
    intro r cells hperm
    simp only [Direction.occlusionAt_corner d r _ i hp.1, hperm.countP_eq]
    refine ⟨trivial, fun m' hm => ?_⟩
    rw [List.countP_congr fun cell hcell => by rw [hm cell hcell]]
  obtain ⟨houter, hinner⟩ := Direction.around_perm_cellsAround hp
  exact ⟨hring _ _ houter, hring _ _ hinner⟩

/-- The upper corner in the south-east: two of the three cells above it are occupied. -/
theorem corner_occlusion_up :
    (⟨1, 1, 1⟩ : Vec3 Rat) ∈ Direction.up.side unitCorners ∧
      occlusionAt (some .up) (outerCorners (some .up) 0x6000001 (1 / 5 : Rat)) ⟨1, 1, 1⟩ 0
        = 3 / 5 := by
  have hp : (⟨1, 1, 1⟩ : Vec3 Rat) ∈ Direction.up.side unitCorners := by
    refine ⟨unitPoint_mem true true true, ?_⟩
    rintro q ⟨-, hy, -⟩
    rw [Direction.height_eq, Direction.height_eq]
    rcases hy with hy | hy <;> simp [hy]
  refine ⟨hp, ?_⟩
  rw [(corner_occlusion .up hp 0x6000001 (1 / 5)).1.1]
  decide +kernel

end VoxelBake
