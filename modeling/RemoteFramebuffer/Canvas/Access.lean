/-
# `RemoteFramebuffer.Canvas.Access` — what the operations of a canvas touch

Before an operation changes anything it may be asked what it is going to touch: the rows of a
block among the stored pixels, the rows of the pixels that it draws, the entries of blocks in
the record of changes.  Each `touch` goes through these in the operation's order and fails at the
first that is not there.  What an operation touches depends on sizes alone, and hiding the cursor,
which comes first, keeps them.
-/
import RemoteFramebuffer.Canvas
import RemoteFramebuffer.Fault

namespace RemoteFramebuffer

namespace Raster

/-- The rows of a block among the stored pixels. -/
def touchBlock (r : Raster) (rect : Rect) : Guarded Unit :=
  (List.range rect.height).forM fun j =>
    let start := r.index rect.x.toNat (rect.y.toNat + j)
    Guarded.slice start (start + rect.width) r.pixels.size

/-- Rows that start `stride` pixels apart among so many pixels. -/
def touchRows (size width height stride : Nat) : Guarded Unit :=
  (List.range height).forM fun j => Guarded.slice (j * stride) (j * stride + width) size

def touchFill (r : Raster) (rect : Rect) : Guarded Unit :=
  if r.holds rect then r.touchBlock rect else return ()

def touchCopy (r : Raster) (dest : Rect) (offset : Point) : Guarded Unit :=
  if r.holds dest && r.holds (sourceOf dest offset) then do
    r.touchBlock (sourceOf dest offset)
    r.touchBlock dest
  else return ()

/-- Drawing a block from `size` pixels.  How many it needs is known only of a block with rows. -/
def touchImage (r : Raster) (dest : Rect) (size stride : Nat) : Guarded Unit :=
  if r.holds dest && !dest.isEmpty then do
    let above ← Guarded.sub dest.height 1
    if strideOf dest stride * above + dest.width ≤ size then
      r.touchBlock dest
      touchRows size dest.width dest.height (strideOf dest stride)
  else return ()

/-- The pixels of a block that is not empty: all from the first to the last, then row by row. -/
def touchSlice (r : Raster) (rect : Rect) : Guarded Unit := do
  let above ← Guarded.sub rect.height 1
  let start := r.index rect.x.toNat rect.y.toNat
  let length := above * r.width + rect.width
  Guarded.slice start (start + length) r.pixels.size
  touchRows length rect.width rect.height r.width

end Raster

namespace Canvas

/-- The entries of the blocks that a rectangle's part inside the canvas touches. -/
def touchDirty (c : Canvas) (rect : Rect) : Guarded Unit :=
  match c.bounds.intersect rect with
  | none => return ()
  | some visible => do
    let firstX := visible.x.toNat / blockSize
    let firstY := visible.y.toNat / blockSize
    let lastX := (← Guarded.sub visible.right.toNat 1) / blockSize
    let lastY := (← Guarded.sub visible.bottom.toNat 1) / blockSize
    let across := blocksAcross c.raster.width
    (List.range' firstY (lastY + 1 - firstY)).forM fun y =>
      (List.range' firstX (lastX + 1 - firstX)).forM fun x =>
        Guarded.index (y * across + x) c.dirty.size

def touchHide (c : Canvas) : Guarded Unit :=
  match c.saved with
  | none => return ()
  | some saved => do
    c.raster.touchImage saved.rect saved.pixels.size 0
    c.touchDirty saved.rect

/-! ## Drawing -/

/-- A drawing operation that touches of the raster what `touch` says. -/
def touchDraw (c : Canvas) (area : Rect) (touch : Raster → Guarded Unit) : Guarded Unit := do
  c.touchHide
  touch c.raster
  c.touchDirty area

def touchFill (c : Canvas) (rect : Rect) : Guarded Unit := c.touchDraw rect (·.touchFill rect)

def touchCopy (c : Canvas) (dest : Rect) (offset : Point) : Guarded Unit :=
  c.touchDraw dest (·.touchCopy dest offset)

def touchImage (c : Canvas) (dest : Rect) (size stride : Nat) : Guarded Unit :=
  c.touchDraw dest (·.touchImage dest size stride)

/-! ## Cursor -/

/-- The places of a shape that lie on `visible`, and where it is drawn those of its pixels. -/
def touchCompose (shape : CursorShape) (area visible : Rect) : Guarded Unit :=
  (List.range visible.height).forM fun j =>
    (List.range visible.width).forM fun i => do
      let x := (visible.x - area.x).toNat + i
      let y := (visible.y - area.y).toNat + j
      let place := shape.place x y
      if ← Guarded.get shape.mask place then
        Guarded.index (j * visible.width + i) visible.area
        Guarded.index place shape.pixels.size

/-- Drawing a shape with its hotspot at a position. -/
def touchShape (c : Canvas) (shape : CursorShape) (position : Point) : Guarded Unit :=
  let area := cursorArea { c with position } shape
  match c.bounds.intersect area with
  | none => return ()
  | some visible => do
    c.raster.touchSlice visible
    touchCompose shape area visible
    c.raster.touchImage visible visible.area 0
    c.touchDirty visible

def touchSetCursor (c : Canvas) (shape : Option CursorShape) : Guarded Unit := do
  c.touchHide
  match shape with
  | none => return ()
  | some shape => c.touchShape shape c.position

def touchMoveCursor (c : Canvas) (position : Point) : Guarded Unit := do
  c.touchHide
  match c.cursor with
  | none => return ()
  | some shape => c.touchShape shape position

end Canvas

end RemoteFramebuffer
