/-
# `RemoteFramebuffer.Geometry` — points, rectangles and the tiles of a rectangle

Positions are signed and extents are not.  The right and bottom edges read an
extent as a signed 32-bit word, so an extent of `2^31` or more puts the edge to
the left of the position, as on the wire.

A rectangle is cut into tiles in raster order; tiles on the right and bottom
edges are clipped.  `Rect.tileAt` names the tile at an index, `Rect.tiles` lists
them all, and `Rect.foldTiles` walks them one at a time without the list.  A
`Rect.Walk` finds them without their indices: it keeps the place where the next
tile starts, and steps from it to the one behind.
-/

namespace RemoteFramebuffer

/-- The value of `n` read as a signed 32-bit word. -/
def signed32 (n : Nat) : Int := Int.bmod n 0x100000000

structure Point where
  x : Int
  y : Int
deriving DecidableEq, Repr, Inhabited

structure Rect where
  x : Int
  y : Int
  width : Nat
  height : Nat
deriving DecidableEq, Repr, Inhabited

namespace Rect

def right (r : Rect) : Int := r.x + signed32 r.width

def bottom (r : Rect) : Int := r.y + signed32 r.height

def area (r : Rect) : Nat := r.width * r.height

def isEmpty (r : Rect) : Bool := r.width == 0 || r.height == 0

def contains (r : Rect) (p : Point) : Bool :=
  r.x ≤ p.x && p.x < r.right && r.y ≤ p.y && p.y < r.bottom

/-- The common part of two rectangles, unless it covers no pixel. -/
def intersect (a b : Rect) : Option Rect :=
  let left := max a.x b.x
  let top := max a.y b.y
  let right := min a.right b.right
  let bottom := min a.bottom b.bottom
  if right ≤ left ∨ bottom ≤ top then none
  else some ⟨left, top, (right - left).toNat, (bottom - top).toNat⟩

/-! ## Tiles -/

/-- How many tiles of side `step` an extent needs; a side of 0 counts as 1. -/
def tilesAcross (extent step : Nat) : Nat := (extent + max step 1 - 1) / max step 1

def tileCount (r : Rect) (tileWidth tileHeight : Nat) : Nat :=
  tilesAcross r.width tileWidth * tilesAcross r.height tileHeight

/-- The tile at `index` in raster order, clipped to the rectangle. -/
def tileAt (r : Rect) (tileWidth tileHeight index : Nat) : Rect :=
  let columns := tilesAcross r.width tileWidth
  let dx := index % columns * max tileWidth 1
  let dy := index / columns * max tileHeight 1
  { x := r.x + signed32 dx
    y := r.y + signed32 dy
    width := min (max tileWidth 1) (r.width - dx)
    height := min (max tileHeight 1) (r.height - dy) }

/-- All tiles, left to right and then top to bottom. -/
def tiles (r : Rect) (tileWidth tileHeight : Nat) : List Rect :=
  (List.range (r.tileCount tileWidth tileHeight)).map (r.tileAt tileWidth tileHeight)

/-- How far a walk over the tiles of a rectangle has come: `dx` and `dy` are the way from the
corner of the rectangle to that of the next tile. -/
structure Walk where
  area : Rect
  tileWidth : Nat
  tileHeight : Nat
  dx : Nat
  dy : Nat
deriving DecidableEq, Repr

def walk (r : Rect) (tileWidth tileHeight : Nat) : Walk :=
  ⟨r, max tileWidth 1, max tileHeight 1, 0, 0⟩

/-- The tile that starts where the walk has come to. -/
def Walk.tile (w : Walk) : Rect where
  x := w.area.x + signed32 w.dx
  y := w.area.y + signed32 w.dy
  width := min w.tileWidth (w.area.width - w.dx)
  height := min w.tileHeight (w.area.height - w.dy)

/-- The walk behind this tile, which goes on in the row or begins the next. -/
def Walk.moveOn (w : Walk) : Walk :=
  let right := w.dx + w.tileWidth
  if w.area.width ≤ right then { w with dx := 0, dy := w.dy + w.tileHeight }
  else { w with dx := right }

/-- The next tile, if there is one, and the walk behind it. -/
def Walk.next (w : Walk) : Option (Rect × Walk) :=
  if w.area.isEmpty || w.area.height ≤ w.dy then none else some (w.tile, w.moveOn)

variable {m : Type → Type} [Monad m] {σ : Type}

/-- Runs `body` on the `count` tiles that start at `index`. -/
def foldTilesFrom (r : Rect) (tileWidth tileHeight : Nat) (body : σ → Rect → m σ) :
    (count index : Nat) → σ → m σ
  | 0, _, s => pure s
  | count + 1, index, s => do
    let s ← body s (r.tileAt tileWidth tileHeight index)
    foldTilesFrom r tileWidth tileHeight body count (index + 1) s

/-- Runs `body` on every tile in raster order, handing a state along. -/
def foldTiles (r : Rect) (tileWidth tileHeight : Nat) (body : σ → Rect → m σ) (s : σ) : m σ :=
  r.foldTilesFrom tileWidth tileHeight body (r.tileCount tileWidth tileHeight) 0 s

end Rect

end RemoteFramebuffer
