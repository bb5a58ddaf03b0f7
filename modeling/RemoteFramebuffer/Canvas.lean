/-
# `RemoteFramebuffer.Canvas` — a raster with a cursor drawn over it and a record of changes

The cursor is part of the visible raster only while `saved` holds the pixels that
it covers.  Every drawing operation first puts those pixels back, so what it draws
on is the plain picture; `showCursor` draws the cursor again.

Changes are recorded per block of 16 × 16 pixels and drained by `takeDirty`.
-/
import RemoteFramebuffer.Raster

namespace RemoteFramebuffer

/-- A cursor picture; only pixels whose mask entry is set are drawn. -/
structure CursorShape where
  width : Nat
  height : Nat
  hotspot : Point
  pixels : Array Rgba
  mask : Array Bool
  size_pixels : pixels.size = width * height
  size_mask : mask.size = width * height

namespace CursorShape

/-- A shape with one pixel and one mask entry for each of its places.  `pixelBytes` is the
length in bytes of the data that `pixels` was unpacked from. -/
def make (width height : Nat) (hotspot : Point) (pixels : Array Rgba) (mask : Array Bool)
    (pixelBytes : Nat := 4 * pixels.size) : Except DrawError CursorShape :=
  if h : pixels.size = width * height ∧ mask.size = width * height ∧ pixelBytes = 4 * pixels.size
  then .ok ⟨width, height, hotspot, pixels, mask, h.1, h.2.1⟩
  else .error (.cursorShape width height pixelBytes mask.size)

/-- The place of column `x` and row `y` among the pixels, a word of 32 bits. -/
def place (shape : CursorShape) (x y : Nat) : Nat := (y * shape.width + x) % 0x100000000

end CursorShape

/-- The pixels under a drawn cursor, clipped to the raster. -/
structure SavedArea where
  rect : Rect
  pixels : Array Rgba

structure Canvas where
  raster : Raster
  dirty : Array Bool
  cursor : Option CursorShape
  position : Point
  saved : Option SavedArea

namespace Canvas

/-- Side of a dirty-tracking block in pixels. -/
def blockSize : Nat := 16

/-- Dirty-tracking blocks that cover an extent. -/
def blocksAcross (extent : Nat) : Nat := Rect.tilesAcross extent blockSize

def make (width height : Nat) : Canvas :=
  { raster := Raster.black width height
    dirty := Array.replicate (blocksAcross width * blocksAcross height) false
    cursor := none
    position := ⟨0, 0⟩
    saved := none }

def bounds (c : Canvas) : Rect := c.raster.bounds

/-- A black canvas of a new size, all of it dirty; the cursor keeps its shape and place. -/
def resize (c : Canvas) (width height : Nat) : Canvas :=
  { c with
    raster := Raster.black width height
    dirty := Array.replicate (blocksAcross width * blocksAcross height) true
    saved := none }

/-! ## Changed blocks -/

/-- Marks the blocks that the rectangle's part inside the canvas touches. -/
def markDirty (c : Canvas) (rect : Rect) : Canvas :=
  match c.bounds.intersect rect with
  | none => c
  | some visible =>
    let firstX := visible.x.toNat / blockSize
    let firstY := visible.y.toNat / blockSize
    let lastX := (visible.right.toNat - 1) / blockSize
    let lastY := (visible.bottom.toNat - 1) / blockSize
    let across := blocksAcross c.raster.width
    let columns := List.range' firstX (lastX + 1 - firstX)
    let mark (dirty : Array Bool) (y : Nat) : Array Bool :=
      columns.foldl (fun dirty x => dirty.setIfInBounds (y * across + x) true) dirty
    { c with dirty := (List.range' firstY (lastY + 1 - firstY)).foldl mark c.dirty }

/-- Whether the block of column `x` and row `y` changed since the last drain. -/
def isDirty (c : Canvas) (x y : Nat) : Bool :=
  let column := x / blockSize
  let row := y / blockSize
  column < blocksAcross c.raster.width && row < blocksAcross c.raster.height
    && c.dirty[row * blocksAcross c.raster.width + column]?.getD false

/-- The changed blocks in raster order, and the canvas with none. -/
def takeDirty (c : Canvas) : List Rect × Canvas :=
  let blocks := (c.bounds.tiles blockSize blockSize).zip c.dirty.toList
  (blocks.filterMap fun (block, dirty) => if dirty then some block else none,
    { c with dirty := Array.replicate c.dirty.size false })

/-! ## Cursor -/

/-- Puts back the pixels under the cursor, if it is drawn. -/
def hideCursor (c : Canvas) : Canvas :=
  match c.saved with
  | none => c
  | some saved =>
    if (c.raster.checkImage saved.rect 0 (4 * saved.pixels.size)).isOk then
      markDirty { c with raster := c.raster.overlay saved.rect saved.pixels 0, saved := none } saved.rect
    else { c with saved := none }

/-- Where the cursor's picture lies when its hotspot is at the cursor's position. -/
def cursorArea (c : Canvas) (shape : CursorShape) : Rect :=
  ⟨c.position.x - shape.hotspot.x, c.position.y - shape.hotspot.y, shape.width, shape.height⟩

/-- The colors of `visible`, a part of the shape's `area`, with the shape drawn over `under`. -/
def compose (shape : CursorShape) (area visible : Rect) (under : Array Rgba) : Array Rgba :=
  under.mapIdx fun i old =>
    let x := (visible.x - area.x).toNat + i % visible.width
    let y := (visible.y - area.y).toNat + i / visible.width
    let place := shape.place x y
    if shape.mask[place]?.getD false then shape.pixels[place]?.getD old else old

/-- Draws the cursor, keeping what it covers; does nothing while it is drawn already. -/
def showCursor (c : Canvas) : Canvas :=
  match c.saved, c.cursor with
  | none, some shape =>
    let area := c.cursorArea shape
    match c.bounds.intersect area with
    | none => c
    | some visible =>
      let under := c.raster.block visible
      let drawn := compose shape area visible under
      markDirty { c with raster := c.raster.overlay visible drawn 0, saved := some ⟨visible, under⟩ } visible
  | _, _ => c

def setCursor (c : Canvas) (shape : Option CursorShape) : Canvas :=
  showCursor { c.hideCursor with cursor := shape }

def moveCursor (c : Canvas) (position : Point) : Canvas :=
  showCursor { c.hideCursor with position := position }

/-! ## Drawing -/

/-- A drawing operation, if it passes its check; a refused one leaves the raster alone, and the
cursor is hidden either way. -/
def draw (c : Canvas) (area : Rect) (check : Raster → Except DrawError Unit)
    (op : Raster → Raster) : Except DrawError Unit × Canvas :=
  let c := c.hideCursor
  match check c.raster with
  | .ok () => (.ok (), markDirty { c with raster := op c.raster } area)
  | .error e => (.error e, c)

def fill (c : Canvas) (rect : Rect) (color : Rgba) : Except DrawError Unit × Canvas :=
  c.draw rect (·.check rect) (·.paint rect color)

def copy (c : Canvas) (dest : Rect) (offset : Point) : Except DrawError Unit × Canvas :=
  c.draw dest (·.checkCopy dest offset) (·.copyBlock dest offset)

def image (c : Canvas) (dest : Rect) (source : Array Rgba) (stride : Nat)
    (sourceLength : Nat := 4 * source.size) : Except DrawError Unit × Canvas :=
  c.draw dest (·.checkImage dest stride sourceLength) (·.overlay dest source stride)

/-- Recolors a place; one outside the canvas is ignored. -/
def paintPlace (c : Canvas) (place : Rect) (color : Rgba) : Canvas :=
  match c.bounds.intersect place with
  | none => c
  | some _ =>
    let c := c.hideCursor
    markDirty { c with raster := c.raster.paint place color } place

/-- Recolors one pixel, unless it lies outside the canvas. -/
def setPixel (c : Canvas) (x y : Nat) (color : Rgba) : Canvas :=
  c.paintPlace ⟨signed32 x, signed32 y, 1, 1⟩ color

end Canvas

end RemoteFramebuffer
