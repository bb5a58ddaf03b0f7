/-
# `RemoteFramebuffer.Encoding.Tight.Filter` — how Tight data stands for pixels

Under the copy filter the data is the pixels.  Under the palette filter it is indices,
one bit each for at most two colors and one byte each for more.  Under the gradient
filter it is, for each channel, the difference from a prediction out of the three
neighbours above and to the left.
-/
import RemoteFramebuffer.Encoding.Render

namespace RemoteFramebuffer
namespace Tight

inductive Filter
  | copy
  | palette
  | gradient
  | unknown (code : UInt8)
deriving DecidableEq, Repr

def Filter.ofCode : UInt8 → Filter
  | 0 => .copy
  | 1 => .palette
  | 2 => .gradient
  | code => .unknown code

/-- Bytes of a pixel: three for true color of depth 24 in 32 bits. -/
def pixelSize (pf : PixelFormat) : Nat :=
  if pf.isTrueColor && pf.bitsPerPixel == 32 && pf.depth == 24 then 3 else pf.bytesPerPixel

/-- The color of a pixel; three bytes are red, green and blue. -/
def color (style : Style) : Bytes → Rgba
  | [r, g, b] => ⟨r, g, b, 255⟩
  | pixel => style.color pixel

def dataSize (area : Area) (filter : Filter) (paletteSize pixelSize : Nat) : Nat :=
  match filter with
  | .palette =>
    if paletteSize ≤ 2 then area.height.toNat * ((area.width.toNat + 7) / 8) else area.pixels
  | _ => area.pixels * pixelSize

/-! ## Palette -/

def entry (palette : Array Rgba) (index : Nat) : Except DecodeError Rgba :=
  match palette[index]? with
  | some color => .ok color
  | none => .error (DecodeError.of (.paletteIndex index palette.size))

/-- The bit of a column in a row of bits, highest first. -/
def bitAt (row : Array UInt8) (x : Nat) : Guarded Nat := do
  let byte ← Guarded.get row (x / 8)
  let amount ← Guarded.sub 7 (x % 8)
  Guarded.shift amount 8
  return byte.toNat >>> amount % 2

/-- The colors of a row of single-bit indices. -/
def expandRow (palette : Array Rgba) (width : Nat) (row : Array UInt8) :
    Except DecodeError (List Rgba) :=
  (List.range width).mapM fun x => do
    let bit ← (bitAt row x).orFault
    entry palette bit

def expandPalette (palette : Array Rgba) (area : Area) (indices : Bytes) :
    Except DecodeError (Array Rgba) :=
  if palette.size ≤ 2 then do
    let bytes := indices.toArray
    let rowSize := (area.width.toNat + 7) / 8
    let rows ← (List.range area.height.toNat).mapM fun y => do
      let row ← (Guarded.extract bytes (y * rowSize) ((y + 1) * rowSize)).orFault
      expandRow palette area.width.toNat row
    return rows.flatten.toArray
  else List.toArray <$> indices.mapM fun index => entry palette index.toNat

/-! ## Gradient -/

structure Sample where
  red : Nat
  green : Nat
  blue : Nat
deriving DecidableEq, Repr

namespace Sample

def zero : Sample := ⟨0, 0, 0⟩

def combine (f : Nat → Nat → Nat → Nat → Nat → Nat) (a b c d e : Sample) : Sample :=
  { red := f a.red b.red c.red d.red e.red
    green := f a.green b.green c.green d.green e.green
    blue := f a.blue b.blue c.blue d.blue e.blue }

end Sample

/-- The prediction of a channel: left and above less the corner between them, kept in range. -/
def predict (max left above corner : Nat) : Nat := min max (left + above - corner)

/-- The value of a channel from its prediction and the difference sent, modulo the range. -/
def restore (max predicted difference : Nat) : Nat := (predicted + difference) % 0x100000000 &&& max

/-- The samples of a row right of `left`, under a row whose samples right of `corner` are
`above`. -/
def restoreRow (maxes left corner : Sample) :
    (above differences : List Sample) → Guarded (List Sample)
  | _, [] => return []
  | [], _ :: _ => .error .index
  | up :: above, difference :: differences => do
    let value := Sample.combine
      (fun max left up corner difference => restore max (predict max left up corner) difference)
      maxes left up corner difference
    return value :: (← restoreRow maxes value up above differences)

/-- The samples of a row under another; the first has no left neighbour and takes the one
above for its prediction. -/
def restoreFirst (maxes : Sample) : (above differences : List Sample) → Guarded (List Sample)
  | _, [] => return []
  | [], _ :: _ => .error .index
  | up :: above, difference :: differences => do
    let value := Sample.combine (fun max up difference _ _ => restore max up difference)
      maxes up difference Sample.zero Sample.zero
    return value :: (← restoreRow maxes value up above differences)

/-- The rows of an image from the differences of each, under the row `above`. -/
def restoreRows (maxes : Sample) (above : List Sample) :
    List (List Sample) → Guarded (List (List Sample))
  | [] => return []
  | differences :: rows => do
    let row ← restoreFirst maxes above differences
    return row :: (← restoreRows maxes row rows)

structure SampleForm where
  maxes : Sample
  ofPixel : Bytes → Guarded Sample
  color : Sample → Guarded Rgba

/-- The component of a pixel value of 32 bits. -/
def component (c : Channel) (value : Nat) : Guarded Nat := do
  Guarded.shift c.shift.toNat 32
  return c.component value

/-- A component at its place in a pixel value of 32 bits. -/
def placed (c : Channel) (component : Nat) : Guarded Nat := do
  Guarded.shift c.shift.toNat 32
  return component <<< c.shift.toNat % 0x100000000

/-- Three bytes are a sample as they stand; other pixels hold it in their channels. -/
def SampleForm.ofStyle (style : Style) (pixelSize : Nat) : SampleForm :=
  if pixelSize = 3 then
    { maxes := ⟨255, 255, 255⟩
      ofPixel := fun pixel => do
        let red ← Guarded.get pixel.toArray 0
        let green ← Guarded.get pixel.toArray 1
        let blue ← Guarded.get pixel.toArray 2
        return ⟨red.toNat, green.toNat, blue.toNat⟩
      color := fun s => return ⟨UInt8.ofNat s.red, UInt8.ofNat s.green, UInt8.ofNat s.blue, 255⟩ }
  else
    let pf := style.format
    { maxes := ⟨pf.red.max.toNat, pf.green.max.toNat, pf.blue.max.toNat⟩
      ofPixel := fun pixel => do
        let value := pf.value pixel
        let red ← component pf.red value
        let green ← component pf.green value
        let blue ← component pf.blue value
        return ⟨red, green, blue⟩
      color := fun s => do
        let red ← placed pf.red s.red
        let green ← placed pf.green s.green
        let blue ← placed pf.blue s.blue
        return pf.valueColor (red ||| green ||| blue) style.colors }

def differences (form : SampleForm) (pixelSize : Nat) (row : Bytes) : Guarded (List Sample) := do
  Guarded.pieces pixelSize
  (chunks pixelSize row).mapM form.ofPixel

/-- The colors of an image of a width from its differences. -/
def undoDifferences (form : SampleForm) (width pixelSize : Nat) (data : Bytes) :
    Guarded (Array Rgba) := do
  Guarded.pieces (width * pixelSize)
  let rows ← (chunks (width * pixelSize) data).mapM (differences form pixelSize)
  let rows ← restoreRows form.maxes (List.replicate width Sample.zero) rows
  let colors ← rows.flatten.mapM form.color
  return colors.toArray

def undoGradient (style : Style) (area : Area) (pixelSize : Nat) (data : Bytes) :
    Except DecodeError (Array Rgba) :=
  if ¬ style.format.isTrueColor ∨ style.format.bitsPerPixel = 8 then
    .error (DecodeError.of .gradientFormat)
  else (undoDifferences (SampleForm.ofStyle style pixelSize) area.width.toNat pixelSize data).orFault

end Tight
end RemoteFramebuffer
