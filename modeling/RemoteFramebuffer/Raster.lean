/-
# `RemoteFramebuffer.Raster` — a rectangle of stored colors

Rows are stored top to bottom.  Every drawing operation first checks that its
rectangle lies inside the raster and changes nothing if it does not.  All of them
are `recolor`, which visits the pixels of one block; `copy` alone goes row by row,
from the bottom when the source lies above, so that an overlapping source row is
read before it is overwritten.
-/
import RemoteFramebuffer.Geometry
import RemoteFramebuffer.Pixel.Color

namespace RemoteFramebuffer

/-- Why a drawing operation is refused; sizes of pixel data are in bytes. -/
inductive DrawError
  | outOfBounds (rect : Rect) (width height : Nat)
  | shortSource (got need : Nat)
  | cursorShape (width height pixelBytes maskEntries : Nat)
deriving DecidableEq, Repr

def DrawError.message : DrawError → String
  | .outOfBounds r width height =>
    s!"Rectangle out of bounds: Rect \x7b x: {r.x}, y: {r.y}, width: {r.width}, height: {r.height} \x7d "
      ++ s!"(buffer size: {width}x{height})"
  | .shortSource got need => s!"Insufficient source data: got {got} bytes, need at least {need}"
  | .cursorShape width height pixelBytes maskEntries =>
    s!"cursor {width}x{height} needs {width * height * 4} pixel bytes and {width * height} "
      ++ s!"mask entries, got {pixelBytes} and {maskEntries}"

structure Raster where
  width : Nat
  height : Nat
  pixels : Array Rgba
  size_pixels : pixels.size = width * height

namespace Raster

def black (width height : Nat) : Raster :=
  ⟨width, height, Array.replicate (width * height) Rgba.black, by simp⟩

instance : Inhabited Raster := ⟨black 0 0⟩

def bounds (r : Raster) : Rect := ⟨0, 0, r.width, r.height⟩

/-- Index of the pixel at column `x` of row `y`. -/
def index (r : Raster) (x y : Nat) : Nat := y * r.width + x

/-- The pixel at column `x` of row `y`, if there is one. -/
def pixel? (r : Raster) (x y : Nat) : Option Rgba :=
  if x < r.width ∧ y < r.height then r.pixels[r.index x y]? else none

/-- The whole rectangle lies inside; an empty one may touch the far edges. -/
def holds (r : Raster) (rect : Rect) : Bool :=
  0 ≤ rect.x && 0 ≤ rect.y && rect.x + rect.width ≤ r.width && rect.y + rect.height ≤ r.height

/-- Fails unless the whole rectangle lies inside. -/
def check (r : Raster) (rect : Rect) : Except DrawError Unit :=
  if r.holds rect then .ok () else .error (.outOfBounds rect r.width r.height)

/-! ## Recoloring a block -/

/-- Recolors `count` pixels from index `start` on, telling `f` the number of each. -/
def recolorRun (pixels : Array Rgba) (start count : Nat) (f : Nat → Rgba → Rgba) : Array Rgba :=
  (List.range count).foldl (fun pixels i => pixels.modify (start + i) (f i)) pixels

theorem size_recolorRun (pixels : Array Rgba) (start count : Nat) (f : Nat → Rgba → Rgba) :
    (recolorRun pixels start count f).size = pixels.size := by
  unfold recolorRun
  induction List.range count generalizing pixels with
  | nil => rfl
  | cons i is ih => rw [List.foldl_cons, ih, Array.size_modify]

/-- Recolors part of one row, telling `f` the column within that part. -/
def recolorRow (r : Raster) (left y count : Nat) (f : Nat → Rgba → Rgba) : Raster :=
  { r with
    pixels := recolorRun r.pixels (r.index left y) count f
    size_pixels := by rw [size_recolorRun, r.size_pixels] }

/-- Recolors the block of a rectangle, telling `f` column and row within it. -/
def recolor (r : Raster) (rect : Rect) (f : Nat → Nat → Rgba → Rgba) : Raster :=
  (List.range rect.height).foldl
    (fun r j => r.recolorRow rect.x.toNat (rect.y.toNat + j) rect.width (fun i => f i j)) r

/-! ## Drawing -/

def paint (r : Raster) (rect : Rect) (color : Rgba) : Raster := r.recolor rect fun _ _ _ => color

def fill (r : Raster) (rect : Rect) (color : Rgba) : Except DrawError Raster := do
  r.check rect
  return r.paint rect color

/-- The block of the size of `dest` that lies at `offset` from it. -/
def sourceOf (dest : Rect) (offset : Point) : Rect :=
  { dest with x := dest.x + offset.x, y := dest.y + offset.y }

/-- Fails unless a block and its source lie inside. -/
def checkCopy (r : Raster) (dest : Rect) (offset : Point) : Except DrawError Unit := do
  r.check dest
  r.check (sourceOf dest offset)

/-- Copies a row of `count` pixels within the raster. -/
def copyRow (r : Raster) (fromX fromY toX toY count : Nat) : Raster :=
  let row := r.pixels.extract (r.index fromX fromY) (r.index fromX fromY + count)
  r.recolorRow toX toY count fun i old => row[i]?.getD old

def copyBlock (r : Raster) (dest : Rect) (offset : Point) : Raster :=
  let source := sourceOf dest offset
  let rows := List.range dest.height
  let rows := if offset.y < 0 then rows.reverse else rows
  rows.foldl
    (fun r j => r.copyRow source.x.toNat (source.y.toNat + j) dest.x.toNat (dest.y.toNat + j)
      dest.width) r

def copy (r : Raster) (dest : Rect) (offset : Point) : Except DrawError Raster := do
  r.checkCopy dest offset
  return r.copyBlock dest offset

/-- How many pixels lie between the starts of two rows; 0 stands for the width of `dest`. -/
def strideOf (dest : Rect) (stride : Nat) : Nat := if stride = 0 then dest.width else stride

/-- Bytes of the pixels that a block of this size reads from rows `stride` pixels apart. -/
def sourceBytes (width height stride : Nat) : Nat := (stride * (height - 1) + width) * 4

/-- Fails unless a block lies inside and so many bytes of pixels are enough for it. -/
def checkImage (r : Raster) (dest : Rect) (stride sourceLength : Nat) : Except DrawError Unit := do
  r.check dest
  if !dest.isEmpty then
    let need := sourceBytes dest.width dest.height (strideOf dest stride)
    if sourceLength < need then throw (.shortSource sourceLength need)

/-- Gives a block the colors of `source`; where it has none, the old ones stay. -/
def overlay (r : Raster) (dest : Rect) (source : Array Rgba) (stride : Nat) : Raster :=
  let stride := strideOf dest stride
  r.recolor dest fun i j old => source[j * stride + i]?.getD old

/-- Draws `source`, whose rows are `stride` pixels apart.  `sourceLength` is the length in bytes
of the data that `source` was unpacked from. -/
def image (r : Raster) (dest : Rect) (source : Array Rgba) (stride : Nat)
    (sourceLength : Nat := 4 * source.size) : Except DrawError Raster := do
  r.checkImage dest stride sourceLength
  return r.overlay dest source stride

/-! ## Direct access -/

/-- The stored pixels from the first of `rect` to its last, whole rows in between. -/
def slice? (r : Raster) (rect : Rect) : Option (Array Rgba) :=
  if r.holds rect && !rect.isEmpty then
    let start := r.index rect.x.toNat rect.y.toNat
    some (r.pixels.extract start (start + (rect.height - 1) * r.width + rect.width))
  else none

def recolorSlice? (r : Raster) (rect : Rect) (f : Nat → Rgba → Rgba) : Option Raster :=
  if r.holds rect && !rect.isEmpty then
    some (r.recolorRow rect.x.toNat rect.y.toNat ((rect.height - 1) * r.width + rect.width) f)
  else none

def block (r : Raster) (rect : Rect) : Array Rgba :=
  (List.range rect.height).foldl (fun out j =>
    let start := r.index rect.x.toNat (rect.y.toNat + j)
    out ++ r.pixels.extract start (start + rect.width)) #[]

end Raster

end RemoteFramebuffer
