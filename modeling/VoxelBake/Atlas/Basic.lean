/-
Atlases: textures packed on pages.

An atlas has pages, all squares of one size, and remembers for each texture on which page it lies
and where.  Texture coordinates handed out for a texture carry the number of the page as their
third component, so that nothing else is needed to sample it.

* `Rect`, `Rect.locate` — a rectangle of a page, and a point of it;
* `Entry`, `Entry.firstFrame`, `Entry.playback` — where a texture lies and how it is played;
* `Page`, `Atlas` — pages with their smaller copies, and the atlas;
* `Atlas.entry` — the place of a texture, or that of the missing texture;
* `Quad` — one thing for each corner of a face;
* `rotateArea`, `Atlas.uvs` — the texture coordinates of a part of a texture.
-/
import VoxelBake.Identifier
import VoxelBake.Model.Basic
import VoxelBake.Texture.Basic

set_option relaxedAutoImplicit false
set_option autoImplicit false

namespace VoxelBake

/-! ### Corners of a face -/

/-- One thing for each corner of a face, as seen from outside. -/
structure Quad (β : Type) where
  /-- The top left corner. -/
  topLeft : β
  /-- The top right corner. -/
  topRight : β
  /-- The bottom left corner. -/
  bottomLeft : β
  /-- The bottom right corner. -/
  bottomRight : β
deriving BEq, DecidableEq

namespace Quad

variable {β γ δ : Type}

/-- The corners in order. -/
def toList (q : Quad β) : List β := [q.topLeft, q.topRight, q.bottomLeft, q.bottomRight]

/-- A function applied at each corner. -/
def map (f : β → γ) (q : Quad β) : Quad γ :=
  ⟨f q.topLeft, f q.topRight, f q.bottomLeft, f q.bottomRight⟩

/-- A function applied to two things at each corner. -/
def zipWith (f : β → γ → δ) (p : Quad β) (q : Quad γ) : Quad δ :=
  ⟨f p.topLeft q.topLeft, f p.topRight q.topRight, f p.bottomLeft q.bottomLeft,
    f p.bottomRight q.bottomRight⟩

/-- What stood at the corners, carried on by quarter turns of the face. -/
def turned (q : Quad β) (turns : Nat) : Quad β :=
  match turns % 4 with
  | 1 => ⟨q.bottomLeft, q.topLeft, q.bottomRight, q.topRight⟩
  | 2 => ⟨q.bottomRight, q.bottomLeft, q.topRight, q.topLeft⟩
  | 3 => ⟨q.topRight, q.bottomRight, q.topLeft, q.bottomLeft⟩
  | _ => q

@[simp] theorem turned_zero (q : Quad β) : q.turned 0 = q := rfl

@[simp] theorem length_toList (q : Quad β) : q.toList.length = 4 := rfl

end Quad

/-! ### Places on a page -/

/-- A rectangle of a page; the whole page has width and height one, and `y` counts downwards. -/
structure Rect (α : Type) where
  /-- Left edge. -/
  x : α
  /-- Top edge. -/
  y : α
  /-- Width. -/
  width : α
  /-- Height. -/
  height : α
deriving BEq, DecidableEq

/-- How the vertices of an animated face are played; all zero for a face that is not. -/
structure Playback (α : Type) where
  /-- The number of frames. -/
  count : α
  /-- How long each frame is shown, in seconds. -/
  interval : α
  /-- The width of a frame on the page. -/
  frameWidth : α
  /-- How many frames stand in a row. -/
  perRow : α
deriving BEq, DecidableEq

/-- The numbers in order. -/
def Playback.toList {α : Type} (p : Playback α) : List α :=
  [p.count, p.interval, p.frameWidth, p.perRow]

/-- Where a texture lies. -/
structure Entry (α : Type) where
  /-- The number of the page. -/
  page : Nat
  /-- The rectangle of the page, for an animation that of all frames. -/
  bounds : Rect α
  /-- How the texture is played. -/
  animation : Option (Animation α)

section Entries

variable {α : Type} [Scalar α]

/-- The point of a rectangle at the given fractions of its width and height. -/
def Rect.locate (r : Rect α) (u v : α) : α × α := (r.x + u * r.width, r.y + v * r.height)

/-- The whole page. -/
def Rect.unit : Rect α := ⟨(0 : Nat), (0 : Nat), (1 : Nat), (1 : Nat)⟩

/-- What an unanimated face plays. -/
def Playback.still : Playback α := ⟨(0 : Nat), (0 : Nat), (0 : Nat), (0 : Nat)⟩

namespace Entry

/-- The rectangle of the first frame, or the whole texture if it is not animated. -/
def firstFrame (e : Entry α) : Rect α :=
  match e.animation with
  | some a =>
      { e.bounds with
        width := e.bounds.width / (a.perRow : α)
        height := e.bounds.height / (a.rows : α) }
  | none => e.bounds

/-- How the vertices of a face with this texture are played. -/
def playback (e : Entry α) : Playback α :=
  match e.animation with
  | some a =>
      ⟨(a.count : α), a.interval, e.bounds.width / (a.perRow : α), (a.perRow : α)⟩
  | none => Playback.still

/-- The place of any texture in an atlas that does not even know the missing one. -/
def fallback : Entry α := ⟨0, Rect.unit, none⟩

end Entry

end Entries

/-! ### Atlases -/

/-- A page and its smaller copies. -/
structure Page where
  /-- The page itself. -/
  image : Raster
  /-- The copies, each half the size of the one before. -/
  mips : List Raster

/-- Textures packed on pages. -/
structure Atlas (α : Type) where
  /-- Edge of the pages in texels. -/
  size : Nat
  /-- The pages in order. -/
  pages : List Page
  /-- Where each texture lies. -/
  entries : Table Identifier (Entry α)

/-- Why an atlas has not what was asked of it. -/
inductive AtlasFault
  /-- A texture does not fit on a page of the given size. -/
  | noRoom (texture : Identifier) (size : Nat)
  /-- There is no page of this number. -/
  | noPage (page : Nat)
deriving DecidableEq

/-- The wording of a fault. -/
def AtlasFault.message : AtlasFault → String
  | noRoom texture size =>
      "Texture " ++ texture.text ++ " does not fit a " ++ toString size ++ "x" ++ toString size
        ++ " page"
  | noPage page => "No atlas page " ++ toString page

/-- A coordinate pair after quarter turns of the unit square. -/
def rotateArea {α : Type} [Scalar α] (u v : α) (turns : Nat) : α × α :=
  Nat.repeat (fun p => (p.2, (1 : Nat) - p.1)) (turns % 4) (u, v)

namespace Atlas

variable {α : Type}

/-- The atlas without pages. -/
def empty : Atlas α := ⟨0, [], ∅⟩

/-- Whether a texture has a place of its own. -/
def contains (a : Atlas α) (id : Identifier) : Bool := a.entries.contains id

/-- The page of a given number. -/
def page (a : Atlas α) (n : Nat) : Except AtlasFault Page :=
  match a.pages[n]? with
  | some p => .ok p
  | none => .error (.noPage n)

variable [Scalar α]

/-- Where a texture lies; a texture without a place takes that of the missing texture. -/
def entry (a : Atlas α) (id : Identifier) : Entry α :=
  match a.entries.get? id with
  | some e => e
  | none => (a.entries.get? Identifier.missing).getD Entry.fallback

/-- The texture coordinates, one for each corner, of a part of a texture whose area is turned by
quarter turns, and how they are played.  The part is measured on one frame. -/
def uvs (a : Atlas α) (id : Identifier) (part : UvRect α) (areaTurns : Nat) :
    Quad (Vec3 α) × Playback α :=
  let e := a.entry id
  let frame := e.firstFrame
  let u1 := inBlocks part.u1
  let v1 := inBlocks part.v1
  let u2 := inBlocks part.u2
  let v2 := inBlocks part.v2
  let corners : Quad (α × α) := ⟨(u1, v1), (u2, v1), (u1, v2), (u2, v2)⟩
  (corners.map fun c =>
    let turned := rotateArea c.1 c.2 areaTurns
    let placed := frame.locate turned.1 turned.2
    ⟨placed.1, placed.2, (e.page : α)⟩,
   e.playback)

end Atlas

end VoxelBake
