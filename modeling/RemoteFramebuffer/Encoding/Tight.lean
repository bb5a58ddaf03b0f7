/-
# `RemoteFramebuffer.Encoding.Tight` — filled, filtered and foreign rectangles

The low half of the first byte restarts zlib streams and the high half is the kind of
the rectangle: one color, a JPEG or PNG file, or filtered data on one of four streams.
Data under twelve bytes is sent as it is, longer data compressed behind its length.
Files are passed on and never drawn.  TightPNG has no filtered data and no JPEG.

A length takes one, two or three bytes: seven bits a byte, lowest first, the top bit telling
that more follow; the third byte gives all of its eight.
-/
import RemoteFramebuffer.Encoding.Tight.Filter

namespace RemoteFramebuffer

/-! ## Lengths -/

namespace CompactLength

def max : Nat := 4194303

def encode (length : Nat) : Bytes :=
  let low := length % 128
  let middle := length / 128 % 128
  if length < 128 then [UInt8.ofNat low]
  else if length < 16384 then [UInt8.ofNat (low + 128), UInt8.ofNat middle]
  else [UInt8.ofNat (low + 128), UInt8.ofNat (middle + 128), UInt8.ofNat (length / 16384)]

variable {m : Type → Type} [Monad m]

def read (byte : m UInt8) : m Nat := do
  let first ← byte
  if first < 128 then return first.toNat
  else
    let second ← byte
    let low := first.toNat % 128 + second.toNat % 128 * 128
    if second < 128 then return low
    else
      let third ← byte
      return low + third.toNat * 16384

def capture : Capture Nat := read Capture.u8

def parse : Payload Nat := read Payload.u8

end CompactLength

namespace Tight

variable [StreamDecoder]

/-- Widest rectangle of filtered data. -/
def maxWidth : Nat := 2048

/-- Data shorter than this is not compressed. -/
def minToCompress : Nat := 12

/-- What the first byte of a rectangle says.  Data of a `reserved` kind is not captured; drawn, it
is taken for filtered data. -/
inductive Control
  | fill
  | jpeg
  | png
  | basic (stream : Fin 4) (explicitFilter : Bool)
  | reserved (stream : Fin 4) (explicitFilter : Bool)

/-- The kind of a rectangle by the high half of its first byte. -/
def Control.ofByte (b : UInt8) : Control :=
  match b.toNat / 16 with
  | 8 => .fill
  | 9 => .jpeg
  | 10 => .png
  | code =>
    let kind := if code < 8 then Control.basic else Control.reserved
    kind (Fin.ofNat 4 code) (code.testBit 2)

/-! ## Capture -/

def captureFile : Capture Unit := do
  let length ← CompactLength.capture
  Capture.skip length

def captureFilter (explicit : Bool) : Capture Filter := do
  if explicit then return Filter.ofCode (← Capture.u8) else return .copy

/-- Passes over a palette, if the filter has one; gives its size. -/
def capturePalette (pixelSize : Nat) (filter : Filter) : Capture Nat := do
  if filter = .palette then
    let size := (← Capture.u8).toNat + 1
    Capture.skip (size * pixelSize)
    return size
  else return 0

/-- Passes over data of a size, which is compressed unless it is short. -/
def captureData (size : Nat) : Capture Unit :=
  if size < minToCompress then Capture.skip size else captureFile

def captureFiltered (area : Area) (pixelSize : Nat) (filter : Filter) : Capture Unit := do
  let paletteSize ← capturePalette pixelSize filter
  captureData (dataSize area filter paletteSize pixelSize)

def captureBasic (area : Area) (pixelSize : Nat) (explicit : Bool) : Capture Unit := do
  if maxWidth < area.width.toNat then Capture.fail (.tooWide area.width.toNat maxWidth)
  else match ← captureFilter explicit with
    | .unknown code => Capture.fail (.filter code)
    | filter => captureFiltered area pixelSize filter

/-- Passes over the data behind the first byte. -/
def captureKind (area : Area) (format : PixelFormat) (isPng : Bool) (control : UInt8) :
    Capture Unit :=
  match Control.ofByte control, isPng with
  | .fill, _ => Capture.skip (pixelSize format)
  | .jpeg, false =>
    if format.bitsPerPixel = 8 then Capture.fail .jpegIndexed else captureFile
  | .png, true => captureFile
  | .basic _ explicit, false => captureBasic area (pixelSize format) explicit
  | _, _ => Capture.fail (.compression (control.toNat / 16))

def capture (area : Area) (format : PixelFormat) (isPng : Bool) : Capture Unit := do
  captureKind area format isPng (← Capture.u8)

/-! ## Rendering -/

def readFilter (explicit : Bool) : Payload Filter := do
  if explicit then return Filter.ofCode (← Payload.u8) else return .copy

def readPalette (style : Style) (pixelSize : Nat) (filter : Filter) : Payload (Array Rgba) := do
  if filter = .palette then
    let size := (← Payload.u8).toNat + 1
    let colors ← Payload.values (color style <$> Payload.take pixelSize) size
    return colors.toArray
  else return #[]

/-- The data of a size, inflated if it was compressed. -/
def readData (stream : Fin 4) (size : Nat) : Render Bytes := do
  if size < minToCompress then Render.read (Payload.take size)
  else
    let length ← Render.read CompactLength.parse
    let compressed ← Render.read (Payload.take length)
    let inflated ← Render.draw (Draw.inflate (·.inflateTight stream compressed size))
    Render.guarded (Guarded.slice 0 size inflated.length)
    return inflated.take size

/-- The colors that data stands for under a filter.  It is only here that an unknown filter is
noticed. -/
def colors (style : Style) (area : Area) (pixelSize : Nat) (palette : Array Rgba) (data : Bytes) :
    Filter → Except DecodeError (Array Rgba)
  | .copy => do
    (Guarded.pieces pixelSize).orFault
    return ((chunks pixelSize data).map (color style)).toArray
  | .palette => expandPalette palette area data
  | .gradient => undoGradient style area pixelSize data
  | .unknown code => .error (DecodeError.of (.filter code))

def renderFiltered (style : Style) (area : Area) (stream : Fin 4) (filter : Filter) :
    Render Unit := do
  let pixelSize := pixelSize style.format
  let palette ← Render.read (readPalette style pixelSize filter)
  let data ← readData stream (dataSize area filter palette.size pixelSize)
  if area.pixels = 0 then return ()
  else Render.draw do
    let colors ← Draw.ofExcept (colors style area pixelSize palette data filter)
    Draw.image area.rect colors

def renderBasic (style : Style) (area : Area) (stream : Fin 4) (explicit : Bool) : Render Unit := do
  renderFiltered style area stream (← Render.read (readFilter explicit))

def renderFill (style : Style) (area : Area) : Render Unit := do
  let pixel ← Render.read (Payload.take (pixelSize style.format))
  if area.pixels = 0 then return ()
  else Render.draw (Draw.fill area.rect (color style pixel))

/-- A file is not drawn; its length alone is read. -/
def renderFile : Render Unit := do
  let _ ← Render.read CompactLength.parse

/-- Draws a rectangle of a kind from the data behind the first byte. -/
def renderKind (style : Style) (area : Area) : Control → Render Unit
  | .fill => renderFill style area
  | .jpeg | .png => renderFile
  | .basic stream explicit | .reserved stream explicit => renderBasic style area stream explicit

def render (style : Style) (area : Area) : Render Unit := do
  let control ← Render.read Payload.u8
  Render.draw (Draw.changeStreams (·.resetTight (control.toNat % 16)))
  renderKind style area (Control.ofByte control)

end Tight
end RemoteFramebuffer
