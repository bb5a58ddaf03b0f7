/-
# `RemoteFramebuffer.Encoding.Hextile` — tiles of 16 × 16 with colors carried over

Each tile begins with a byte of flags.  A raw tile is its pixels.  Any other is a
background with sub-rectangles over it, all in the foreground color or each in its
own.  A tile that states no background or foreground uses the one last stated in the
same rectangle.
-/
import RemoteFramebuffer.Encoding.Payload
import RemoteFramebuffer.Encoding.Render

namespace RemoteFramebuffer
namespace Hextile

variable [StreamDecoder]

/-- Side of a tile; tiles at the right and bottom edge may be smaller. -/
def tileSize : Nat := 16

structure Flags where
  raw : Bool
  background : Bool
  foreground : Bool
  subrects : Bool
  colored : Bool

def Flags.ofByte (b : UInt8) : Flags :=
  let bit := b.toNat.testBit
  ⟨bit 0, bit 1, bit 2, bit 3, bit 4⟩

/-! ## Capture -/

/-- Passes over a pixel that a tile may state. -/
def captureStated (format : PixelFormat) (stated : Bool) : Capture Unit :=
  if stated then Capture.skip format.bytesPerPixel else pure ()

/-- Passes over the sub-rectangles that a tile may have. -/
def captureSubrects (format : PixelFormat) (flags : Flags) : Capture Unit :=
  if flags.subrects then do
    let count ← Capture.u8
    Capture.skip (count.toNat * ((if flags.colored then format.bytesPerPixel else 0) + 2))
  else pure ()

def captureTile (format : PixelFormat) (tile : Rect) : Capture Unit := do
  let flags := Flags.ofByte (← Capture.u8)
  if flags.raw then Capture.skip (tile.area * format.bytesPerPixel)
  else
    captureStated format flags.background
    captureStated format flags.foreground
    captureSubrects format flags

def capture (area : Area) (format : PixelFormat) : Capture Unit :=
  area.rect.foldTiles tileSize tileSize (fun _ tile => captureTile format tile) ()

/-! ## Rendering -/

structure Carried where
  background : Option Rgba
  foreground : Option Rgba

/-- A place within a tile: four bits each for the corner and, one less, for the extent. -/
def place : Payload Rect := do
  let corner ← Payload.u8
  let extent ← Payload.u8
  return ⟨corner.toNat / 16, corner.toNat % 16, extent.toNat / 16 + 1, extent.toNat % 16 + 1⟩

/-- The color of the next pixel of the payload. -/
def color (style : Style) : Payload Rgba := style.color <$> Payload.take style.bytesPerPixel

def subrectColor (style : Style) (tile : Rect) (colored : Bool) (foreground : Option Rgba) :
    Payload Rgba :=
  if colored then color style
  else match foreground with
    | some color => pure color
    | none => Payload.fail (.noForeground tile)

def renderSubrect (style : Style) (tile : Rect) (colored : Bool) (foreground : Option Rgba)
    (index : Nat) : Render Unit := do
  let color ← Render.read (subrectColor style tile colored foreground)
  let sub ← Render.read place
  if tile.width < sub.x + sub.width ∨ tile.height < sub.y + sub.height then
    Render.draw (Draw.fail (.outsideTile index sub tile))
  else
    let target : Rect := { sub with x := tile.x + sub.x, y := tile.y + sub.y }
    Render.draw (Draw.within (.subrect index tile) (Draw.fill target color))

/-- Draws `left` sub-rectangles from an index on. -/
def renderSubrects (style : Style) (tile : Rect) (colored : Bool) (foreground : Option Rgba) :
    (left index : Nat) → Render Unit
  | 0, _ => pure ()
  | left + 1, index => do
    renderSubrect style tile colored foreground index
    renderSubrects style tile colored foreground left (index + 1)

/-- A color that a tile states, or the one carried over. -/
def statedOr (style : Style) (stated : Bool) (carried : Option Rgba) : Payload (Option Rgba) :=
  if stated then some <$> color style else pure carried

def renderTile (style : Style) (carried : Carried) (tile : Rect) : Render Carried := do
  let flags := Flags.ofByte (← Render.read Payload.u8)
  if flags.raw then
    let pixels ← Render.read (Payload.take (tile.area * style.bytesPerPixel))
    Render.draw (Draw.image tile (style.unpack pixels))
    return carried
  else
    match ← Render.read (statedOr style flags.background carried.background) with
    | none => Render.draw (Draw.fail (.noBackground tile))
    | some background =>
      Render.draw (Draw.fill tile background)
      let foreground ← Render.read (statedOr style flags.foreground carried.foreground)
      if flags.subrects then
        let count ← Render.read Payload.u8
        renderSubrects style tile flags.colored foreground count.toNat 0
      return ⟨some background, foreground⟩

def render (style : Style) (area : Area) : Render Unit := do
  let _ ← Render.foldTiles area.rect tileSize (renderTile style) ⟨none, none⟩

end Hextile
end RemoteFramebuffer
