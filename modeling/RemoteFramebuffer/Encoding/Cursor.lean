/-
# `RemoteFramebuffer.Encoding.Cursor` — rectangles that set the shape of the cursor

The place of such a rectangle is the hotspot.  A Cursor is pixels and a mask, an XCursor
two colors, a bitmap that chooses between them and a mask, and a CursorWithAlpha is
packed colors that show where alpha is not 0.  The rows of a bitmap are padded to whole
bytes.  A rectangle without pixels takes the cursor away.
-/
import RemoteFramebuffer.Encoding.Payload
import RemoteFramebuffer.Encoding.Render

namespace RemoteFramebuffer
namespace Cursor

variable [StreamDecoder]

def bitmapSize (area : Area) : Nat := (area.width.toNat + 7) / 8 * area.height.toNat

/-- The bit of a column and row of a bitmap whose rows have `rowSize` bytes. -/
def bitAt (bytes : Array UInt8) (rowSize x y : Nat) : Guarded Bool := do
  let byte ← Guarded.get bytes (y * rowSize + x / 8)
  Guarded.shift (x % 8) 8
  return byte.toNat.testBit (7 - x % 8)

/-- The bits of a bitmap, row by row, without the padding. -/
def unpackBits (width height : Nat) (bitmap : Bytes) : Guarded (Array Bool) := do
  let bytes := bitmap.toArray
  let bits ← (List.range (width * height)).mapM fun i =>
    bitAt bytes ((width + 7) / 8) (i % width) (i / width)
  return bits.toArray

def bitmap (area : Area) : Payload (Array Bool) := do
  let bytes ← Payload.take (bitmapSize area)
  Payload.guarded (unpackBits area.width.toNat area.height.toNat bytes)

def remove : Draw Unit := Draw.setCursor none

/-- Gives the cursor a shape with its hotspot at the place of the rectangle. -/
def setShape (area : Area) (pixels : Array Rgba) (mask : Array Bool) : Draw Unit :=
  match CursorShape.make area.width.toNat area.height.toNat ⟨area.x.toNat, area.y.toNat⟩
      pixels mask with
  | .ok shape => Draw.setCursor (some shape)
  | .error cause => Draw.fail (.draw cause)

/-! ## Pixels and mask -/

def capture (area : Area) (format : PixelFormat) : Capture Unit :=
  Capture.skip (area.pixels * format.bytesPerPixel + bitmapSize area)

def render (style : Style) (area : Area) : Render Unit := do
  if area.pixels = 0 then Render.draw remove
  else
    let pixels ← Render.read (Payload.take (area.pixels * style.bytesPerPixel))
    let mask ← Render.read (bitmap area)
    Render.draw (setShape area (style.unpack pixels) mask)

/-! ## Two colors -/

def captureTwoColor (area : Area) : Capture Unit := do
  if area.pixels = 0 then return () else Capture.skip (6 + 2 * bitmapSize area)

def twoColors : Payload (Rgba × Rgba) := do
  let bytes := (← Payload.take 6).toArray
  let color (i : Nat) : Guarded Rgba := do
    return ⟨← Guarded.get bytes i, ← Guarded.get bytes (i + 1), ← Guarded.get bytes (i + 2), 255⟩
  Payload.guarded do
    let foreground ← color 0
    let background ← color 3
    return (foreground, background)

def renderTwoColor (area : Area) : Render Unit := do
  if area.pixels = 0 then Render.draw remove
  else
    let (foreground, background) ← Render.read twoColors
    let picture ← Render.read (bitmap area)
    let mask ← Render.read (bitmap area)
    Render.draw (setShape area (picture.map fun set => if set then foreground else background) mask)

/-! ## Alpha -/

def captureAlpha (area : Area) : Capture Unit := do
  let inner ← Capture.i32
  if inner ≠ 0 then Capture.fail (.cursorEncoding inner) else Capture.skip (area.pixels * 4)

def renderAlpha (area : Area) : Render Unit := do
  let _ ← Render.read Payload.u32
  if area.pixels = 0 then Render.draw remove
  else
    let colors := (Rgba.unpack (← Render.read (Payload.take (area.pixels * 4)))).toArray
    Render.draw (setShape area colors (colors.map (·.alpha != 0)))

end Cursor
end RemoteFramebuffer
