/-
# `RemoteFramebuffer.Pixel.Color` — stored colors and the session's color map

A raster stores one `Rgba` per pixel.  A `ColorMap` holds 256 colors of 16 bits
per channel; it is consulted only while the pixel format has no true color.
-/
import RemoteFramebuffer.Bytes

namespace RemoteFramebuffer

structure Rgba where
  red : UInt8
  green : UInt8
  blue : UInt8
  alpha : UInt8
deriving DecidableEq, Repr, Inhabited

namespace Rgba

def black : Rgba := ⟨0, 0, 0, 255⟩

def bytes (c : Rgba) : Bytes := [c.red, c.green, c.blue, c.alpha]

/-- The colors that packed bytes hold; up to three bytes left over are dropped. -/
def unpack : Bytes → List Rgba
  | r :: g :: b :: a :: rest => ⟨r, g, b, a⟩ :: unpack rest
  | _ => []

end Rgba

structure Color where
  red : UInt16
  green : UInt16
  blue : UInt16
deriving DecidableEq, Repr, Inhabited

namespace Color

def black : Color := ⟨0, 0, 0⟩

def toRgba (c : Color) : Rgba :=
  ⟨UInt8.ofNat (c.red.toNat / 256), UInt8.ofNat (c.green.toNat / 256),
    UInt8.ofNat (c.blue.toNat / 256), 255⟩

end Color

structure ColorMap where
  entries : Vector Color 256
deriving DecidableEq

namespace ColorMap

def black : ColorMap := ⟨Vector.replicate 256 Color.black⟩

instance : Inhabited ColorMap := ⟨black⟩

def get (m : ColorMap) (index : UInt8) : Color :=
  m.entries.get ⟨index.toNat, index.toNat_lt⟩

/-- Writes `colors` from index `first` on; what would lie past 255 is ignored. -/
def setEntries (m : ColorMap) (first : Nat) : List Color → ColorMap
  | [] => m
  | c :: colors =>
    if h : first < 256 then setEntries ⟨m.entries.set first c⟩ (first + 1) colors else m

end ColorMap

end RemoteFramebuffer
