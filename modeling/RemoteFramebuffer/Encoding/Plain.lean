/-
# `RemoteFramebuffer.Encoding.Plain` — rectangles that are pixels and nothing else

A Raw rectangle is its pixels, row by row.  A Zlib rectangle is a length and as many
bytes that inflate to its pixels.  A CopyRect rectangle is the place on the canvas
where its pixels are already.
-/
import RemoteFramebuffer.Encoding.Payload
import RemoteFramebuffer.Encoding.Render

namespace RemoteFramebuffer

variable [StreamDecoder]

/-! ## Raw -/

namespace Raw

def capture (area : Area) (format : PixelFormat) : Capture Unit :=
  Capture.skip (area.pixels * format.bytesPerPixel)

/-- Draws the payload, which has to be pixels and no more. -/
def render (style : Style) (area : Area) : Render Unit := do
  let payload ← get
  let expected := area.pixels * style.bytesPerPixel
  if payload.length ≠ expected then Render.draw (Draw.fail (.rawLength expected payload.length))
  else if area.pixels = 0 then return ()
  else Render.draw (Draw.image area.rect (style.unpack payload))

end Raw

/-! ## Zlib -/

namespace Zlib

/-- A length and as many bytes; also the form of ZRLE data and of a desktop name. -/
def capture : Capture Unit := do
  let length ← Capture.u32
  Capture.skip length.toNat

def body : Payload Bytes := do
  let length ← Payload.u32
  Payload.take length

def render (style : Style) (area : Area) : Render Unit := do
  let compressed ← Render.read body
  let expected := area.pixels * style.bytesPerPixel
  let pixels ← Render.draw (Draw.inflate (·.inflateZlib compressed expected))
  if expected = 0 then return ()
  else
    Render.guarded (Guarded.slice 0 expected pixels.length)
    Render.draw (Draw.image area.rect (style.unpack (pixels.take expected)))

end Zlib

/-! ## CopyRect -/

namespace CopyRect

def capture : Capture Unit := do
  let _ ← Capture.u16
  let _ ← Capture.u16

def render (area : Area) : Render Unit := do
  let x ← Render.read Payload.u16
  let y ← Render.read Payload.u16
  if area.pixels = 0 then return ()
  else
    let offset : Point := ⟨x - area.x.toNat, y - area.y.toNat⟩
    Render.draw (Draw.copy area.rect offset)

end CopyRect

end RemoteFramebuffer
