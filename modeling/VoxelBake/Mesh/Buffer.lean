/-
Vertex buffers.

A buffer is an array of vertices that grows when something is written past its end; places that
were never written hold a filler.  Everything that draws computes the vertices it draws and writes
them in one piece.

* `writeAt` — one array written over a part of another, which grows if needed;
* `Vertex`, `VertexBuffer` — a vertex, and an array of them;
* `size_writeAt`, `getElem?_writeAt` — how long the array is afterwards, and what it holds;
* `writeAt_writeAt`, `writeAt_padTo` — writes one behind the other, and into an array filled up.
-/
import VoxelBake.Atlas.Basic

set_option relaxedAutoImplicit false
set_option autoImplicit false

namespace VoxelBake

/-! ### Writing into arrays that grow -/

section WriteAt

variable {β : Type}

/-- The array, filled up to a length. -/
def padTo (filler : β) (length : Nat) (a : Array β) : Array β :=
  a ++ Array.replicate (length - a.size) filler

/-- The array with other elements written from `start` on; it grows as far as needed, places that
are not written then holding the filler. -/
def writeAt (filler : β) (a : Array β) (start : Nat) (new : Array β) : Array β :=
  let stop := start + new.size
  let padded := padTo filler stop a
  padded.extract 0 start ++ new ++ padded.extract stop padded.size

@[simp] theorem size_padTo (filler : β) (length : Nat) (a : Array β) :
    (padTo filler length a).size = max a.size length := by
  simp [padTo]
  omega

theorem getElem?_padTo (filler : β) (length : Nat) (a : Array β) (i : Nat) :
    (padTo filler length a)[i]? =
      if i < a.size then a[i]? else if i < length then some filler else none := by
  unfold padTo
  by_cases h : i < a.size
  · simp [h, Array.getElem?_append_left h]
  · rw [Array.getElem?_append_right (by omega), Array.getElem?_replicate]
    simp only [h, if_false]
    congr 1
    simp only [eq_iff_iff]
    omega

@[simp] theorem size_writeAt (filler : β) (a : Array β) (start : Nat) (new : Array β) :
    (writeAt filler a start new).size = max a.size (start + new.size) := by
  simp only [writeAt, Array.size_append, Array.size_extract, size_padTo]
  omega

/-- What an array holds after a write: the new elements where they were written, elsewhere what it
held before, and the filler where it held nothing. -/
theorem getElem?_writeAt (filler : β) (a : Array β) (start : Nat) (new : Array β) (i : Nat) :
    (writeAt filler a start new)[i]? =
      if start ≤ i ∧ i < start + new.size then new[i - start]?
      else if i < a.size then a[i]? else if i < start then some filler else none := by
  have hpad := getElem?_padTo filler (start + new.size) a
  simp only [writeAt]
  by_cases h1 : i < start
  · have hs : ((padTo filler (start + new.size) a).extract 0 start).size = start := by
      rw [Array.size_extract, size_padTo]; omega
    rw [Array.append_assoc, Array.getElem?_append_left (by omega)]
    simp only [Array.getElem?_extract]
    have hcond : ¬ (start ≤ i ∧ i < start + new.size) := by omega
    rw [if_neg hcond]
    have hmin : i < min start (max a.size (start + new.size)) - 0 := by omega
    simp only [size_padTo, hmin, if_true, Nat.zero_add]
    rw [hpad]
    by_cases h2 : i < a.size
    · simp [h2]
    · have : i < start + new.size := by omega
      simp [h2, this, h1]
  · have hs : ((padTo filler (start + new.size) a).extract 0 start).size = start := by
      rw [Array.size_extract, size_padTo]; omega
    by_cases h3 : i < start + new.size
    · rw [Array.getElem?_append_left (by rw [Array.size_append, hs]; omega),
        Array.getElem?_append_right (by omega), hs, if_pos ⟨by omega, h3⟩]
    · rw [Array.getElem?_append_right (by rw [Array.size_append, hs]; omega), Array.size_append, hs]
      have hcond : ¬ (start ≤ i ∧ i < start + new.size) := by omega
      rw [if_neg hcond]
      simp only [Array.getElem?_extract, size_padTo]
      by_cases h2 : i < a.size
      · have hlt : i - (start + new.size)
            < min (max a.size (start + new.size)) (max a.size (start + new.size))
              - (start + new.size) := by omega
        have he : start + new.size + (i - (start + new.size)) = i := by omega
        simp only [hlt, if_true, he]
        rw [hpad]
        simp [h2]
      · have hlt : ¬ i - (start + new.size)
            < min (max a.size (start + new.size)) (max a.size (start + new.size))
              - (start + new.size) := by omega
        simp only [hlt, if_false, h2, h1]

/-- The window that was written holds the new elements. -/
theorem extract_writeAt (filler : β) (a : Array β) (start : Nat) (new : Array β) :
    (writeAt filler a start new).extract start (start + new.size) = new := by
  refine Array.ext_getElem? fun i => ?_
  rw [Array.getElem?_extract, size_writeAt, getElem?_writeAt]
  by_cases hi : i < new.size
  · have hin : i < min (start + new.size) (max a.size (start + new.size)) - start := by omega
    have hwindow : start ≤ start + i ∧ start + i < start + new.size := by omega
    rw [if_pos hin, if_pos hwindow, Nat.add_sub_cancel_left]
  · have hout : ¬ i < min (start + new.size) (max a.size (start + new.size)) - start := by omega
    rw [if_neg hout, Array.getElem?_eq_none (Nat.le_of_not_lt hi)]

/-- Two writes, one behind the other, are one. -/
theorem writeAt_writeAt (filler : β) (a : Array β) (start : Nat) (x y : Array β) :
    writeAt filler (writeAt filler a start x) (start + x.size) y
      = writeAt filler a start (x ++ y) := by
  refine Array.ext_getElem? fun i => ?_
  simp only [getElem?_writeAt, size_writeAt, Array.size_append]
  by_cases hx : start ≤ i ∧ i < start + x.size
  · have hy : ¬ (start + x.size ≤ i ∧ i < start + x.size + y.size) := by omega
    have hboth : start ≤ i ∧ i < start + (x.size + y.size) := by omega
    have hlt : i < max a.size (start + x.size) := by omega
    rw [if_neg hy, if_pos hlt, if_pos hx, if_pos hboth, Array.getElem?_append_left (by omega)]
  · by_cases hy : start + x.size ≤ i ∧ i < start + x.size + y.size
    · have hboth : start ≤ i ∧ i < start + (x.size + y.size) := by omega
      rw [if_pos hy, if_pos hboth, Array.getElem?_append_right (by omega)]
      congr 1
      omega
    · have hboth : ¬ (start ≤ i ∧ i < start + (x.size + y.size)) := by omega
      rw [if_neg hy, if_neg hboth, if_neg hx]
      by_cases hi : i < a.size
      · rw [if_pos (by omega), if_pos hi]
      · by_cases hs : i < start
        · rw [if_pos (by omega)]
        · rw [if_neg (by omega), if_neg (by omega), if_neg hi, if_neg hs]

/-- What is written reaches at least as far as the array was filled up. -/
theorem writeAt_padTo (filler : β) (a : Array β) {length start : Nat} {new : Array β}
    (h : length ≤ start + new.size) :
    writeAt filler (padTo filler length a) start new = writeAt filler a start new := by
  refine Array.ext_getElem? fun i => ?_
  simp only [getElem?_writeAt, size_padTo, getElem?_padTo]
  by_cases hin : start ≤ i ∧ i < start + new.size
  · rw [if_pos hin, if_pos hin]
  · rw [if_neg hin, if_neg hin]
    by_cases hi : i < a.size
    · rw [if_pos (by omega), if_pos hi, if_pos hi]
    · by_cases hs : i < start
      · by_cases hl : i < length
        · rw [if_pos (by omega), if_neg hi, if_pos hl, if_neg hi, if_pos hs]
        · rw [if_neg (by omega), if_pos hs, if_neg hi]
      · rw [if_neg (by omega), if_neg hs, if_neg hi]

theorem writeAt_empty (filler : β) {a : Array β} {start : Nat} (h : start ≤ a.size) :
    writeAt filler a start #[] = a := by
  refine Array.ext_getElem? fun i => ?_
  rw [getElem?_writeAt, if_neg (by simp)]
  by_cases hi : i < a.size
  · rw [if_pos hi]
  · rw [if_neg hi, if_neg (by omega), Array.getElem?_eq_none (Nat.le_of_not_lt hi)]

end WriteAt

/-! ### Vertices -/

/-- A vertex as it is drawn. -/
structure Vertex (α : Type) where
  /-- The place in the world. -/
  position : Vec3 α
  /-- The texture coordinates and the page. -/
  uv : Vec3 α
  /-- How the texture is played. -/
  playback : Playback α
  /-- The colour. -/
  colour : Vec3 α
  /-- What the vertex carries beside its colour. -/
  extra : α
deriving BEq, DecidableEq

/-- A growing array of vertices. -/
abbrev VertexBuffer (α : Type) := Array (Vertex α)

section Buffers

variable {α : Type} [Scalar α]

/-- The origin. -/
def Vec3.zero : Vec3 α := Vec3.uniform (0 : Nat)

/-- The vertex that stands where nothing was written. -/
def Vertex.blank : Vertex α := ⟨Vec3.zero, Vec3.zero, Playback.still, Vec3.zero, (0 : Nat)⟩

namespace VertexBuffer

/-- A buffer of some vertices, none of them written. -/
def ofLength (n : Nat) : VertexBuffer α := Array.replicate n Vertex.blank

/-- The buffer with at least some number of vertices. -/
def ensure (b : VertexBuffer α) (length : Nat) : VertexBuffer α := padTo Vertex.blank length b

/-- The buffer with vertices written from `start` on. -/
def write (b : VertexBuffer α) (start : Nat) (vs : Array (Vertex α)) : VertexBuffer α :=
  writeAt Vertex.blank b start vs

end VertexBuffer

end Buffers

end VoxelBake
