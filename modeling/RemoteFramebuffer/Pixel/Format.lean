/-
# `RemoteFramebuffer.Pixel.Format` — how a wire pixel stands for a color

A pixel is one, two or four bytes.  Their value, assembled in the format's byte
order, is either an index into the color map or three bit fields.  A channel of
maximum `max` at `shift` is the field `(value >>> shift) &&& max`, scaled to eight
bits by rounding down.

The flag bytes are kept as they came; any value but 0 counts as set.
-/
import RemoteFramebuffer.Pixel.Color

namespace RemoteFramebuffer

/-- A bit field of a pixel value. -/
structure Channel where
  max : UInt16
  shift : UInt8
deriving DecidableEq, Repr, Inhabited

namespace Channel

/-- The whole field lies in the lowest `bits` bits and its shift does too. -/
def fits (c : Channel) (bits : UInt8) : Bool :=
  c.shift < bits && c.max.toNat <<< c.shift.toNat < 1 <<< bits.toNat

def component (c : Channel) (value : Nat) : Nat := value >>> c.shift.toNat &&& c.max.toNat

/-- The field's component scaled to eight bits; a field of maximum 0 is black. -/
def scale (c : Channel) (value : Nat) : UInt8 :=
  if c.max = 0 then 0 else UInt8.ofNat (c.component value * 255 / c.max.toNat)

/-- Eight bits scaled down into the field of a 32-bit value. -/
def place (c : Channel) (level : UInt8) : Nat :=
  (level.toNat * c.max.toNat / 255) <<< c.shift.toNat % 0x100000000

end Channel

structure PixelFormat where
  bitsPerPixel : UInt8
  depth : UInt8
  bigEndian : UInt8
  trueColor : UInt8
  red : Channel
  green : Channel
  blue : Channel
deriving DecidableEq, Repr

namespace PixelFormat

/-- 32 bits per pixel, eight per channel, red highest. -/
def rgb888 : PixelFormat := ⟨32, 24, 0, 1, ⟨255, 16⟩, ⟨255, 8⟩, ⟨255, 0⟩⟩

/-- 16 bits per pixel, four per channel, red lowest. -/
def rgb444 : PixelFormat := ⟨16, 16, 0, 1, ⟨15, 0⟩, ⟨15, 4⟩, ⟨15, 8⟩⟩

def indexed8 : PixelFormat := ⟨8, 8, 0, 0, ⟨0, 0⟩, ⟨0, 0⟩, ⟨0, 0⟩⟩

/-- The fixed format of Aten remote-management boards. -/
def aten : PixelFormat := ⟨16, 15, 0, 1, ⟨31, 10⟩, ⟨31, 5⟩, ⟨31, 0⟩⟩

instance : Inhabited PixelFormat := ⟨rgb888⟩

def bytesPerPixel (pf : PixelFormat) : Nat := (pf.bitsPerPixel.toNat + 7) / 8

def isTrueColor (pf : PixelFormat) : Bool := pf.trueColor != 0

def isBigEndian (pf : PixelFormat) : Bool := pf.bigEndian != 0

/-! ## Validity -/

inductive Invalid
  | bitsPerPixel (bits : UInt8)
  | depth (depth bits : UInt8)
  | channel (name : String) (channel : Channel) (bits : UInt8)
deriving DecidableEq, Repr

def Invalid.message : Invalid → String
  | .bitsPerPixel bits => s!"bits_per_pixel must be 8, 16 or 32, got {bits}"
  | .depth d bits => s!"depth {d} exceeds bits_per_pixel {bits}"
  | .channel name c bits =>
    s!"{name} channel (max {c.max}, shift {c.shift}) does not fit in {bits} bits"

/-- The first rule that a format breaks: pixel width, then depth, then red, green and blue. -/
def validate (pf : PixelFormat) : Except Invalid Unit := do
  unless pf.bitsPerPixel ∈ [8, 16, 32] do throw (.bitsPerPixel pf.bitsPerPixel)
  unless pf.depth ≤ pf.bitsPerPixel do throw (.depth pf.depth pf.bitsPerPixel)
  if pf.isTrueColor then
    unless pf.red.fits pf.bitsPerPixel do throw (.channel "red" pf.red pf.bitsPerPixel)
    unless pf.green.fits pf.bitsPerPixel do throw (.channel "green" pf.green pf.bitsPerPixel)
    unless pf.blue.fits pf.bitsPerPixel do throw (.channel "blue" pf.blue pf.bitsPerPixel)

/-! ## Conversion -/

/-- The number that up to four bytes of a pixel spell in the format's byte order. -/
def value (pf : PixelFormat) (bytes : Bytes) : Nat :=
  let word := bytes.take 4
  Bytes.toNat (if pf.isBigEndian then word else word.reverse)

/-- The bytes of a pixel value, as many as a pixel has. -/
def valueBytes (pf : PixelFormat) (value : Nat) : Bytes :=
  let word := Bytes.ofNat pf.bytesPerPixel value
  if pf.isBigEndian then word else word.reverse

def valueColor (pf : PixelFormat) (value : Nat) (colors : ColorMap) : Rgba :=
  if pf.isTrueColor then
    ⟨pf.red.scale value, pf.green.scale value, pf.blue.scale value, 255⟩
  else (colors.get (UInt8.ofNat value)).toRgba

def color (pf : PixelFormat) (bytes : Bytes) (colors : ColorMap) : Rgba :=
  pf.valueColor (pf.value bytes) colors

/-- The pixel of a true-color format nearest below a color. -/
def encodeColor (pf : PixelFormat) (c : Rgba) : Bytes :=
  pf.valueBytes
    (pf.red.place c.red ||| pf.green.place c.green ||| pf.blue.place c.blue)

/-! ## Wire form -/

/-- The 16 bytes of a format; the last three are padding. -/
def encode (pf : PixelFormat) : Bytes :=
  [pf.bitsPerPixel, pf.depth, pf.bigEndian, pf.trueColor]
    ++ Bytes.ofUInt16 pf.red.max ++ Bytes.ofUInt16 pf.green.max ++ Bytes.ofUInt16 pf.blue.max
    ++ [pf.red.shift, pf.green.shift, pf.blue.shift] ++ Bytes.zeros 3

end PixelFormat

end RemoteFramebuffer
