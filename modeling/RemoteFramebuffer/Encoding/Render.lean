/-
# `RemoteFramebuffer.Encoding.Render` — drawing what a payload says

A `Draw` changes a scene, the canvas and the streams; what it did before it failed
stays done.  A `Render` is a `Draw` that reads a payload as it goes.  `Style` says
what colors the pixels of a payload stand for.
-/
import RemoteFramebuffer.Canvas.Access
import RemoteFramebuffer.Encoding.Payload
import RemoteFramebuffer.Encoding.Streams

namespace RemoteFramebuffer

variable [StreamDecoder]

structure Scene where
  canvas : Canvas
  streams : Streams

structure Style where
  format : PixelFormat
  colors : ColorMap

namespace Style

def bytesPerPixel (s : Style) : Nat := s.format.bytesPerPixel

def color (s : Style) (pixel : Bytes) : Rgba := s.format.color pixel s.colors

def unpack (s : Style) (pixels : Bytes) : Array Rgba :=
  ((chunks s.bytesPerPixel pixels).map s.color).toArray

end Style

abbrev Draw := ExceptT DecodeError (StateM Scene)

namespace Draw

def fail {α : Type} (cause : DecodeCause) : Draw α := throw (DecodeError.of cause)

/-- A result that does not depend on the scene. -/
def ofExcept {α : Type} (result : Except DecodeError α) : Draw α := fun scene => (result, scene)

/-- A value whose steps may not all be possible. -/
def guarded {α : Type} (g : Guarded α) : Draw α := ofExcept g.orFault

/-- A change of the canvas that may be refused, once what it touches is known to be there. -/
def paint (touch : Canvas → Guarded Unit) (change : Canvas → Except DrawError Unit × Canvas) :
    Draw Unit := fun ⟨canvas, streams⟩ =>
  match touch canvas with
  | .error fault => (.error (DecodeError.of (.fault fault)), ⟨canvas, streams⟩)
  | .ok () =>
    let (result, canvas) := change canvas
    (result.mapError fun cause => DecodeError.of (.draw cause), ⟨canvas, streams⟩)

/-- A change of the canvas that always succeeds. -/
def change (touch : Canvas → Guarded Unit) (f : Canvas → Canvas) : Draw Unit :=
  paint touch fun canvas => (.ok (), f canvas)

def fill (rect : Rect) (color : Rgba) : Draw Unit := paint (·.touchFill rect) (·.fill rect color)

def image (rect : Rect) (pixels : Array Rgba) : Draw Unit :=
  paint (·.touchImage rect pixels.size 0) (·.image rect pixels 0)

def copy (dest : Rect) (offset : Point) : Draw Unit :=
  paint (·.touchCopy dest offset) (·.copy dest offset)

def resize (width height : Nat) : Draw Unit := change (fun _ => .ok ()) (·.resize width height)

def setCursor (shape : Option CursorShape) : Draw Unit :=
  change (·.touchSetCursor shape) (·.setCursor shape)

def moveCursor (position : Point) : Draw Unit :=
  change (·.touchMoveCursor position) (·.moveCursor position)

def inflate (use : Streams → Except DecodeError Bytes × Streams) : Draw Bytes :=
  fun ⟨canvas, streams⟩ =>
    let (result, streams) := use streams
    (result, ⟨canvas, streams⟩)

def changeStreams (f : Streams → Streams) : Draw Unit := fun ⟨canvas, streams⟩ =>
  (.ok (), ⟨canvas, f streams⟩)

def within {α : Type} (context : DecodeContext) (d : Draw α) : Draw α := fun scene =>
  let (result, scene) := d scene
  (result.mapError (DecodeError.within context), scene)

end Draw

abbrev Render := StateT Bytes Draw

namespace Render

variable {α : Type}

def read (p : Payload α) : Render α := fun data scene =>
  (p data, scene)

def draw (d : Draw α) : Render α := StateT.lift d

/-- A value whose steps may not all be possible. -/
def guarded (g : Guarded α) : Render α := draw (Draw.guarded g)

def within (context : DecodeContext) (r : Render α) : Render α := fun data =>
  Draw.within context (r data)

/-- How far a rectangle extends beyond the corner of one of its tiles. -/
def room (rect tile : Rect) : Guarded (Nat × Nat) := do
  let right ← Guarded.sub rect.width (tile.x - rect.x).toNat
  let below ← Guarded.sub rect.height (tile.y - rect.y).toNat
  return (right, below)

/-- Runs `body` on every tile of a rectangle, each of which starts within it. -/
def foldTiles {σ : Type} (rect : Rect) (side : Nat) (body : σ → Rect → Render σ) (s : σ) :
    Render σ :=
  rect.foldTiles side side (fun s tile => do
    let _ ← guarded (room rect tile)
    body s tile) s

/-- Renders a payload; what is left of it at the end is ignored. -/
def whole (r : Render α) (payload : Bytes) : Draw α := r.run' payload

end Render

end RemoteFramebuffer
