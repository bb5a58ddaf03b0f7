/-
# `RemoteFramebuffer.Message.Field` — the parts that messages are made of

Each part has an `encode`, which writes it, and a `read`, which reads it back.
Padding is written as zeros and ignored when read; a flag is written as 0 or 1 and
any value but 0 counts as set.  Counts and lengths are cut to the width of their field.
-/
import RemoteFramebuffer.Geometry
import RemoteFramebuffer.Text.Utf8
import RemoteFramebuffer.Wire.Reader

namespace RemoteFramebuffer

/-- Sixteen bytes, three of them padding; the format has to be valid. -/
def PixelFormat.read : Reader WireError PixelFormat := do
  let bitsPerPixel ← Reader.u8
  let depth ← Reader.u8
  let bigEndian ← Reader.flag
  let trueColor ← Reader.flag
  let redMax ← Reader.u16
  let greenMax ← Reader.u16
  let blueMax ← Reader.u16
  let redShift ← Reader.u8
  let greenShift ← Reader.u8
  let blueShift ← Reader.u8
  Reader.skip 3
  let pf : PixelFormat :=
    { bitsPerPixel, depth
      bigEndian := if bigEndian then 1 else 0
      trueColor := if trueColor then 1 else 0
      red := ⟨redMax, redShift⟩
      green := ⟨greenMax, greenShift⟩
      blue := ⟨blueMax, blueShift⟩ }
  match pf.validate with
  | .ok () => return pf
  | .error cause => Reader.fail (.pixelFormat cause)

namespace Color

def encode (c : Color) : Bytes :=
  Bytes.ofUInt16 c.red ++ Bytes.ofUInt16 c.green ++ Bytes.ofUInt16 c.blue

def read : Reader WireError Color := do
  let red ← Reader.u16
  let green ← Reader.u16
  let blue ← Reader.u16
  return { red, green, blue }

end Color

structure Area where
  x : UInt16
  y : UInt16
  width : UInt16
  height : UInt16
deriving DecidableEq, Repr, Inhabited

namespace Area

def encode (a : Area) : Bytes :=
  Bytes.ofUInt16 a.x ++ Bytes.ofUInt16 a.y ++ Bytes.ofUInt16 a.width ++ Bytes.ofUInt16 a.height

def read : Reader WireError Area := do
  let x ← Reader.u16
  let y ← Reader.u16
  let width ← Reader.u16
  let height ← Reader.u16
  return { x, y, width, height }

def pixels (a : Area) : Nat := a.width.toNat * a.height.toNat

def rect (a : Area) : Rect := ⟨a.x.toNat, a.y.toNat, a.width.toNat, a.height.toNat⟩

end Area

/-- What stands before the data of a rectangle. -/
structure RectHeader where
  area : Area
  encoding : Int32
deriving DecidableEq, Repr

namespace RectHeader

def encode (h : RectHeader) : Bytes := h.area.encode ++ Bytes.ofInt32 h.encoding

def read : Reader WireError RectHeader := do
  let area ← Area.read
  let encoding ← Reader.i32
  return { area, encoding }

end RectHeader

structure Screen where
  id : UInt32
  area : Area
  flags : UInt32
deriving DecidableEq, Repr

namespace Screen

def encode (s : Screen) : Bytes := Bytes.ofUInt32 s.id ++ s.area.encode ++ Bytes.ofUInt32 s.flags

def read : Reader WireError Screen := do
  let id ← Reader.u32
  let area ← Area.read
  let flags ← Reader.u32
  return { id, area, flags }

end Screen

/-- The body of a fence, the same in both directions. -/
structure Fence where
  flags : UInt32
  payload : Bytes
deriving DecidableEq, Repr

namespace Fence

def maxPayload : Nat := 64

def encode (f : Fence) : Bytes :=
  Bytes.zeros 3 ++ Bytes.ofUInt32 f.flags ++ Bytes.ofNat 1 f.payload.length ++ f.payload

def read : Reader WireError Fence := do
  Reader.skip 3
  let flags ← Reader.u32
  let length ← Reader.u8
  if maxPayload < length.toNat then Reader.fail (.fencePayload length.toNat)
  else
    let payload ← Reader.vec length.toNat
    return { flags, payload }

end Fence

/-! ## Text -/

/-- Cut text: padding, a length and the bytes of the text. -/
def CutText.encode (text : Bytes) : Bytes := Bytes.zeros 3 ++ Bytes.ofNat 4 text.length ++ text

def CutText.read : Reader WireError Bytes := do
  Reader.skip 3
  let length ← Reader.u32
  Reader.vecLimited length.toNat maxCutTextLength

/-- A name or a reason: a length and the bytes of the text. -/
def Name.encode (name : String) : Bytes :=
  Bytes.ofNat 4 (Bytes.ofString name).length ++ Bytes.ofString name

def Name.read : Reader WireError String := do
  let length ← Reader.u32
  let bytes ← Reader.vecLimited length.toNat maxStringLength
  return Text.decode bytes

end RemoteFramebuffer
