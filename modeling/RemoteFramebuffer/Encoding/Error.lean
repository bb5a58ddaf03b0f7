/-
# `RemoteFramebuffer.Encoding.Error` — why a rectangle cannot be read or drawn

A `DecodeError` is a cause and the places it was met at, outermost first.
-/
import RemoteFramebuffer.Encoding.Basic
import RemoteFramebuffer.Fault
import RemoteFramebuffer.Message.Field
import RemoteFramebuffer.Raster

namespace RemoteFramebuffer

/-- What is wrong with the data of a rectangle; see `DecodeCause.message`. -/
inductive DecodeCause
  | wire (cause : WireError)
  | draw (cause : DrawError)
  | unsupported (encoding : Int32)
  | payloadEnd (need left : Nat)
  | rawLength (expected got : Nat)
  | outsideRect (index : Nat) (sub : Rect) (width height : Nat)
  | outsideTile (index : Nat) (sub : Rect) (tile : Rect)
  | noBackground (tile : Rect)
  | noForeground (tile : Rect)
  | trailing (count : Nat)
  | subencoding (code : UInt8)
  | paletteIndex (index size : Nat)
  | jpegIndexed
  | tooWide (width limit : Nat)
  | filter (code : UInt8)
  | compression (code : Nat)
  | gradientFormat
  | cursorEncoding (value : Int32)
  | corrupt
  | inflatedShort (got expected : Nat)
  | fault (kind : Fault)
deriving DecidableEq, Repr

def DecodeCause.message : DecodeCause → String
  | .wire cause => cause.message
  | .draw cause => cause.message
  | .unsupported encoding => s!"unsupported encoding {encoding}"
  | .payloadEnd need left => s!"payload EOF: need {need} bytes, have {left}"
  | .rawLength expected got => s!"expected {expected} pixel bytes, have {got}"
  | .outsideRect index sub width height =>
    s!"sub-rectangle {index} ({sub.width}x{sub.height} at {sub.x},{sub.y}) exceeds {width}x{height}"
  | .outsideTile index sub tile =>
    s!"subrect {index} ({sub.width}x{sub.height} at {sub.x},{sub.y}) "
      ++ s!"exceeds {tile.width}x{tile.height} tile at ({tile.x}, {tile.y})"
  | .noBackground tile =>
    s!"tile at ({tile.x}, {tile.y}) has no background and none was carried over"
  | .noForeground tile =>
    s!"tile at ({tile.x}, {tile.y}) has monochrome subrects but no foreground"
  | .trailing count => s!"{count} trailing bytes after the last tile"
  | .subencoding code => s!"invalid subencoding {code}"
  | .paletteIndex index size => s!"palette index {index} out of range ({size} entries)"
  | .jpegIndexed => "JPEG compression is not available at 8bpp"
  | .tooWide width limit => s!"rectangle too wide ({width} > {limit})"
  | .filter code => s!"unknown filter {code}"
  | .compression code => s!"invalid compression type 0x{String.ofList (Nat.toDigits 16 code)}"
  | .gradientFormat => "gradient filter needs a 16 or 32bpp true-color format"
  | .cursorEncoding value => s!"cursor payload encoding {value} is not supported"
  | .corrupt => "deflate decompression error"
  | .inflatedShort got expected => s!"inflated {got} bytes, expected {expected}"
  | .fault kind => kind.message

/-- Where a cause was met; see `DecodeContext.message`. -/
inductive DecodeContext
  | reading (encoding : Encoding) (area : Area)
  | rendering (encoding : Encoding) (area : Area)
  | header (index : Nat)
  | tile (tile : Rect)
  | subrect (index : Nat) (tile : Rect)
  | runLength
  | stream (name : String)
  | inflating (length offset : Nat)
deriving DecidableEq, Repr

def DecodeContext.message : DecodeContext → String
  | .reading encoding a =>
    s!"{encoding.label}: failed to read rectangle {a.width}x{a.height} at ({a.x}, {a.y})"
  | .rendering encoding a =>
    s!"{encoding.label}: failed to render rectangle {a.width}x{a.height} at ({a.x}, {a.y})"
  | .header index => s!"rectangle {index} header"
  | .tile t => s!"tile {t.width}x{t.height} at ({t.x}, {t.y})"
  | .subrect index t => s!"subrect {index} in tile at ({t.x}, {t.y})"
  | .runLength => "failed to read RLE length byte"
  | .stream name => name
  | .inflating length offset => s!"zlib decompression failed ({length} bytes at offset {offset})"

structure DecodeError where
  contexts : List DecodeContext
  cause : DecodeCause
deriving DecidableEq, Repr

namespace DecodeError

def of (cause : DecodeCause) : DecodeError := ⟨[], cause⟩

def within (context : DecodeContext) (e : DecodeError) : DecodeError :=
  { e with contexts := context :: e.contexts }

def message (e : DecodeError) : String :=
  ": ".intercalate (e.contexts.map DecodeContext.message ++ [e.cause.message])

end DecodeError

/-- The value, or the error that a step could not be taken. -/
def Guarded.orFault {α : Type} (g : Guarded α) : Except DecodeError α :=
  g.mapError fun kind => DecodeError.of (.fault kind)

end RemoteFramebuffer
