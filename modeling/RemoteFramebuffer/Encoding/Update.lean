/-
# `RemoteFramebuffer.Encoding.Update` — a framebuffer update, rectangle by rectangle

An update announces how many rectangles follow; a LastRect rectangle ends it early.
Written out, it is the bytes that were read.
-/
import RemoteFramebuffer.Encoding.Codec
import RemoteFramebuffer.Encoding.Set

namespace RemoteFramebuffer

variable [StreamDecoder]

structure EncodedRect where
  header : RectHeader
  codec : Codec
deriving DecidableEq, Repr

namespace EncodedRect

def encode (r : EncodedRect) : Bytes := r.header.encode ++ r.codec.payload

def clone (r : EncodedRect) : EncodedRect := { r with codec := r.codec.clone true }

def read (format : PixelFormat) (accepted : EncodingSet) (index : Nat) :
    Reader DecodeError EncodedRect := do
  let header ← RectHeader.read.mapError fun cause => ⟨[.header index], .wire cause⟩
  match accepted.codecFor? header.encoding with
  | none => Reader.fail (DecodeError.of (.unsupported header.encoding))
  | some encoding =>
    let codec ← Codec.read encoding header.area format
    return { header, codec }

end EncodedRect

structure FramebufferUpdate where
  /-- The number of rectangles announced. -/
  count : UInt16
  rects : List EncodedRect
deriving DecidableEq, Repr

namespace FramebufferUpdate

def clone (u : FramebufferUpdate) : FramebufferUpdate :=
  { u with rects := u.rects.map EncodedRect.clone }

def encodeBody (u : FramebufferUpdate) : Bytes :=
  Bytes.zeros 1 ++ Bytes.ofUInt16 u.count ++ u.rects.flatMap EncodedRect.encode

/-- `left` rectangles at most from an index on, after those of `seen`, last first. -/
def readRects (format : PixelFormat) (accepted : EncodingSet) (seen : List EncodedRect) :
    (left index : Nat) → Reader DecodeError (List EncodedRect)
  | 0, _ => pure seen.reverse
  | left + 1, index => do
    let rect ← EncodedRect.read format accepted index
    if rect.codec.encoding = .lastRect then return (rect :: seen).reverse
    else readRects format accepted (rect :: seen) left (index + 1)

def readBody (format : PixelFormat) (accepted : EncodingSet) : Reader DecodeError FramebufferUpdate := do
  let count ← (do Reader.skip 1; Reader.u16).mapError fun cause => DecodeError.of (.wire cause)
  let rects ← readRects format accepted [] count.toNat 0
  return { count, rects }

def render (u : FramebufferUpdate) (style : Style) : Draw Unit :=
  u.rects.forM fun rect => rect.codec.render style rect.header.area

/-- The name of the first DesktopName rectangle. -/
def desktopName? (u : FramebufferUpdate) : Option String := u.rects.findSome? (·.codec.desktopName?)

/-- Whether the rectangle's extent is the desktop's new one. -/
def resizesDesktop (rect : EncodedRect) : Bool :=
  rect.codec.encoding = .desktopSize || rect.codec.encoding = .extendedDesktopSize

/-- The extent of the last rectangle that resizes the desktop. -/
def desktopSize? (u : FramebufferUpdate) : Option (UInt16 × UInt16) :=
  (u.rects.reverse.find? resizesDesktop).map fun rect =>
    (rect.header.area.width, rect.header.area.height)

end FramebufferUpdate

end RemoteFramebuffer
