/-
# `RemoteFramebuffer.Encoding.Zrle` — compressed tiles of 64 × 64 with runs and palettes

The data inflates to the tiles of the rectangle.  The first byte of a tile says how its
pixels come: one by one, one for all, as packed indices into a palette, or in runs with
or without a palette.  Pixels are compact: of four bytes, one that is always 0 is left out.
-/
import RemoteFramebuffer.Encoding.Plain

namespace RemoteFramebuffer

variable [StreamDecoder]

/-! ## Compact pixels -/

/-- Which bytes of a pixel are sent: all, the first three, or the last three. -/
inductive CompactPixel
  | full
  | first
  | last
deriving DecidableEq, Repr

namespace CompactPixel

/-- The bits that a channel can set in a pixel value of 32 bits; all of them if its shift is
past the last bit. -/
def channelBits (c : Channel) : Nat :=
  if c.shift < 32 then c.max.toNat <<< c.shift.toNat % 0x100000000 else 0xFFFFFFFF

/-- The bits that a format can set in a pixel value. -/
def usedBits (pf : PixelFormat) : Nat :=
  channelBits pf.red ||| channelBits pf.green ||| channelBits pf.blue

def ofFormat (pf : PixelFormat) : CompactPixel :=
  if pf.bytesPerPixel ≠ 4 ∨ 24 < pf.depth ∨ ¬ pf.isTrueColor then .full
  else
    let low := usedBits pf < 0x1000000
    let high := usedBits pf % 256 = 0
    if (low ∧ ¬ pf.isBigEndian) ∨ (high ∧ pf.isBigEndian) then .first
    else if (low ∧ pf.isBigEndian) ∨ (high ∧ ¬ pf.isBigEndian) then .last
    else .full

def read (form : CompactPixel) (style : Style) : Payload Rgba :=
  match form with
  | .full => style.color <$> Payload.take style.bytesPerPixel
  | .first => (fun sent => style.color (sent ++ [0])) <$> three
  | .last => (fun sent => style.color (0 :: sent)) <$> three
where
  three : Payload Bytes := do
    let sent ← Payload.take 3
    Payload.guarded (Guarded.first 3 sent)

end CompactPixel

namespace Zrle

/-- Side of a tile; tiles at the right and bottom edge may be smaller. -/
def tileSize : Nat := 64

/-! ## Tile data -/

/-- What a tile shows: one color all over, or its pixels row by row. -/
inductive Tile
  | solid (color : Rgba)
  | pixels (colors : Array Rgba)

def entry (palette : Array Rgba) (index : Nat) : Payload Rgba :=
  match palette[index]? with
  | some color => pure color
  | none => Payload.fail (.paletteIndex index palette.size)

def readPalette (pixel : Payload Rgba) (size : Nat) : Payload (Array Rgba) :=
  List.toArray <$> Payload.values pixel size

/-- Bits of an index into a palette of a size. -/
def indexBits (size : Nat) : Nat := if size = 2 then 1 else if size ≤ 4 then 2 else 4

/-- The index in a byte that `i` others of so many bits stand before, highest bits first. -/
def indexAt (bits i : Nat) (byte : UInt8) : Guarded Nat := do
  let available ← Guarded.sub 8 (bits * (i + 1))
  Guarded.shift available 8
  Guarded.shift bits 8
  return byte.toNat >>> available % 1 <<< bits

/-- The colors of the first `count` indices in a byte. -/
def unpackByte (palette : Array Rgba) (bits count : Nat) (byte : UInt8) : Payload (List Rgba) :=
  (List.range count).mapM fun i => do
    entry palette (← Payload.guarded (indexAt bits i byte))

/-- The colors of a row of packed indices; a row starts with a fresh byte. -/
def readPackedRow (palette : Array Rgba) (bits width : Nat) : Payload (List Rgba) := do
  let perByte := 8 / bits
  let pieces ← (List.range ((width + perByte - 1) / perByte)).mapM fun i => do
    let byte ← Payload.u8
    unpackByte palette bits (min perByte (width - i * perByte)) byte
  return pieces.flatten

/-- The length of a run, less one: a sum of bytes of which all but the last are 255. -/
def runLengthFrom (sum : Nat) : Payload Nat
  | [] => .error (DecodeError.within .runLength (DecodeError.of (.payloadEnd 1 0)))
  | byte :: rest =>
    if byte = 255 then runLengthFrom (sum + 255) rest else .ok (sum + byte.toNat, rest)

def runLength : Payload Nat := runLengthFrom 0

/-- A color and the length of its run, less one. -/
def plainRun (pixel : Payload Rgba) : Payload (Rgba × Nat) := do
  let color ← pixel
  return (color, ← runLength)

/-- A run of a palette color; without the top bit it is a single pixel. -/
def paletteRun (palette : Array Rgba) : Payload (Rgba × Nat) := do
  let byte ← Payload.u8
  let color ← entry palette (byte.toNat % 128)
  return (color, ← if byte < 128 then pure 0 else runLength)

/-- Runs that fill up to `count` pixels after those of `seen`; what a run has too much is
dropped. -/
def runsOnto (run : Payload (Rgba × Nat)) (count : Nat) (seen : Array Rgba) :
    Payload (Array Rgba) :=
  if seen.size < count then do
    let (color, more) ← run
    Payload.guarded (Guarded.require (seen.size ≤ count) .underflow)
    runsOnto run count (seen ++ Array.replicate (min (more + 1) (count - seen.size)) color)
  else pure seen
termination_by count - seen.size
decreasing_by
  rw [Array.size_append, Array.size_replicate]
  omega

/-- The tile at the front of the inflated data. -/
def readTile (pixel : Payload Rgba) (tile : Rect) : Payload Tile := do
  let code ← Payload.u8
  if code = 0 then
    return .pixels (← Payload.values pixel tile.area).toArray
  else if code = 1 then
    return .solid (← pixel)
  else if code ≤ 16 then
    let palette ← readPalette pixel code.toNat
    let rows ← Payload.values (readPackedRow palette (indexBits palette.size) tile.width) tile.height
    return .pixels rows.flatten.toArray
  else if code = 128 then
    return .pixels (← runsOnto (plainRun pixel) tile.area #[])
  else if 130 ≤ code then
    let size ← Payload.guarded (Guarded.sub code.toNat 128)
    let palette ← readPalette pixel size
    return .pixels (← runsOnto (paletteRun palette) tile.area #[])
  else Payload.fail (.subencoding code)

/-! ## Rendering -/

def drawTile (rect : Rect) : Tile → Draw Unit
  | .solid color => Draw.fill rect color
  | .pixels colors => Draw.image rect colors

def renderTile (pixel : Payload Rgba) (rect : Rect) : Render Unit :=
  Render.within (.tile rect) do
    let tile ← Render.read (readTile pixel rect)
    Render.draw (drawTile rect tile)

/-- Draws the tiles that inflated data holds; nothing may be left of it. -/
def renderTiles (style : Style) (area : Area) : Render Unit := do
  let pixel := (CompactPixel.ofFormat style.format).read style
  Render.foldTiles area.rect tileSize (fun _ tile => renderTile pixel tile) ()
  let rest ← get
  if rest.isEmpty then return () else Render.draw (Draw.fail (.trailing rest.length))

def render (style : Style) (area : Area) : Render Unit := do
  let compressed ← Render.read Zlib.body
  Render.draw do
    let inflated ← Draw.inflate (·.inflateZrle compressed)
    (renderTiles style area).whole inflated

end Zrle

end RemoteFramebuffer
