/-
# `RemoteFramebuffer.Encoding.Codec` — a rectangle's data, captured, passed on and drawn

A `Codec` is an encoding and the data of one rectangle in it, exactly as it came.
Capturing reads no further than the end of the data; drawing decodes it.
-/
import RemoteFramebuffer.Encoding.Cursor
import RemoteFramebuffer.Encoding.Hextile
import RemoteFramebuffer.Encoding.Subrects
import RemoteFramebuffer.Encoding.Tight
import RemoteFramebuffer.Encoding.Zrle

namespace RemoteFramebuffer

variable [StreamDecoder]

structure Codec where
  encoding : Encoding
  payload : Bytes
deriving DecidableEq, Repr

namespace Codec

/-- Whether pixels of a format can be drawn: those of files are always true color. -/
def supports (encoding : Encoding) (format : PixelFormat) : Bool :=
  match encoding with
  | .tightPng | .h264 => format.isTrueColor
  | _ => true

/-! ## Capture -/

def capturePayload (encoding : Encoding) (area : Area) (format : PixelFormat) : Capture Unit :=
  match encoding with
  | .raw => Raw.capture area format
  | .copyRect => CopyRect.capture
  | .rre => Subrects.words.capture format
  | .coRre => Subrects.bytes.capture format
  | .hextile => Hextile.capture area format
  | .zlib | .zrle | .desktopName => Zlib.capture
  | .tight => Tight.capture area format false
  | .tightPng => Tight.capture area format true
  | .h264 => do
    let length ← Capture.u32
    let _ ← Capture.u32
    Capture.skip length.toNat
  | .cursor => Cursor.capture area format
  | .xCursor => Cursor.captureTwoColor area
  | .cursorWithAlpha => Cursor.captureAlpha area
  | .extendedDesktopSize => do
    let screens ← Capture.u8
    Capture.skip (3 + 16 * screens.toNat)
  | .ledState => do
    let _ ← Capture.u8
  | .desktopSize | .lastRect | .pointerPos => pure ()
  | .qemuExtendedKeyEvent | .fence | .continuousUpdates | .compressLevel _ | .qualityLevel _ =>
    Capture.fail (.unsupported encoding.wire)

/-- Captures the data of a rectangle.  An error comes with what was captured before it. -/
def capture (encoding : Encoding) (area : Area) (format : PixelFormat) :
    Reader (DecodeError × Bytes) Codec :=
  let joined (pieces : List Bytes) : Bytes := pieces.reverse.flatten
  (fun ((), pieces) => ⟨encoding, joined pieces⟩) <$>
    ((capturePayload encoding area format).recorded []).mapError fun (cause, pieces) =>
      (DecodeError.within (.reading encoding area) (DecodeError.of cause), joined pieces)

def read (encoding : Encoding) (area : Area) (format : PixelFormat) : Reader DecodeError Codec :=
  (capture encoding area format).mapError Prod.fst

/-- Captures the data of a rectangle into a codec that may hold another's, which is dropped
first.  Gives the codec as it is afterwards, also after an error, and the bytes left. -/
def refill (c : Codec) (area : Area) (format : PixelFormat) (input : Bytes) :
    Except DecodeError Unit × Codec × Bytes :=
  match (capture c.encoding area format).run input with
  | (.ok filled, rest) => (.ok (), filled, rest)
  | (.error (e, captured), rest) => (.error e, { c with payload := captured }, rest)

/-- A codec of the same encoding, with its own copy of the data or with none. -/
def clone (c : Codec) (withPayload : Bool) : Codec :=
  { c with payload := if withPayload then c.payload else [] }

/-! ## Rendering -/

def renderPayload (encoding : Encoding) (style : Style) (area : Area) : Render Unit :=
  match encoding with
  | .raw => Raw.render style area
  | .copyRect => CopyRect.render area
  | .rre => Subrects.words.render style area
  | .coRre => Subrects.bytes.render style area
  | .hextile => Hextile.render style area
  | .zlib => Zlib.render style area
  | .zrle => Zrle.render style area
  | .tight | .tightPng => Tight.render style area
  | .cursor => Cursor.render style area
  | .xCursor => Cursor.renderTwoColor area
  | .cursorWithAlpha => Cursor.renderAlpha area
  | .pointerPos => Render.draw (Draw.moveCursor ⟨area.x.toNat, area.y.toNat⟩)
  | .desktopSize | .extendedDesktopSize =>
    Render.draw (Draw.resize area.width.toNat area.height.toNat)
  | _ => pure ()

def render (c : Codec) (style : Style) (area : Area) : Draw Unit :=
  Draw.within (.rendering c.encoding area)
    ((renderPayload c.encoding style area).whole c.payload)

/-! ## Contents -/

/-- The name that a DesktopName rectangle carries. -/
def desktopName? (c : Codec) : Option String :=
  if c.encoding = .desktopName then
    match Zlib.body c.payload with
    | .ok (name, _) => some (Text.decode name)
    | .error _ => none
  else none

end Codec

end RemoteFramebuffer
