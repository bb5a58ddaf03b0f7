/-
# `RemoteFramebuffer.Encoding.Subrects` — a background and colored rectangles over it

RRE and CoRRE data is a count, a background pixel and so many sub-rectangles, each a
pixel and its place within the rectangle.  The two differ in the width of the four
numbers of a place.  Later sub-rectangles cover earlier ones.
-/
import RemoteFramebuffer.Encoding.Payload
import RemoteFramebuffer.Encoding.Render

namespace RemoteFramebuffer

variable [StreamDecoder]

inductive Subrects
  | words
  | bytes
deriving DecidableEq, Repr

namespace Subrects

def placeSize : Subrects → Nat
  | .words => 8
  | .bytes => 4

def capture (kind : Subrects) (format : PixelFormat) : Capture Unit := do
  let count ← Capture.u32
  Capture.skip format.bytesPerPixel
  Capture.skip (count.toNat * (format.bytesPerPixel + kind.placeSize))

def coordinate : Subrects → Payload Nat
  | .words => Payload.u16
  | .bytes => UInt8.toNat <$> Payload.u8

def place (kind : Subrects) : Payload Rect := do
  let x ← kind.coordinate
  let y ← kind.coordinate
  let width ← kind.coordinate
  let height ← kind.coordinate
  return ⟨x, y, width, height⟩

def renderOne (kind : Subrects) (style : Style) (area : Area) (index : Nat) : Render Unit := do
  let pixel ← Render.read (Payload.take style.bytesPerPixel)
  let sub ← Render.read kind.place
  if area.width.toNat < sub.x + sub.width ∨ area.height.toNat < sub.y + sub.height then
    Render.draw (Draw.fail (.outsideRect index sub area.width.toNat area.height.toNat))
  else
    let target : Rect := { sub with x := area.x.toNat + sub.x, y := area.y.toNat + sub.y }
    Render.draw (Draw.fill target (style.color pixel))

/-- Draws `left` sub-rectangles from an index on. -/
def renderFrom (kind : Subrects) (style : Style) (area : Area) :
    (left index : Nat) → Render Unit
  | 0, _ => pure ()
  | left + 1, index => do
    renderOne kind style area index
    renderFrom kind style area left (index + 1)

def render (kind : Subrects) (style : Style) (area : Area) : Render Unit := do
  let count ← Render.read Payload.u32
  let background ← Render.read (Payload.take style.bytesPerPixel)
  Render.draw (Draw.fill area.rect (style.color background))
  renderFrom kind style area count 0

end Subrects

end RemoteFramebuffer
