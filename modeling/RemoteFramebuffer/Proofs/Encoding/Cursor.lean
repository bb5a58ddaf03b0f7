/-
# `RemoteFramebuffer.Proofs.Encoding.Cursor` — the cursor becomes what was sent

## What is proved

Of every valid format, rectangle and image, in each of the three forms in which one is sent
(`decode_installs`):

    reading the bytes of the image        takes just these, whatever follows
    drawing them                          succeeds, and leaves the picture as it is
    the cursor afterwards                 none, if the rectangle has no pixels
                                          the image's shape, its hotspot at the rectangle's place

## The forms

    Cursor            pixels, then a mask
    XCursor           two colors, a picture that chooses between them, then a mask
    CursorWithAlpha   the number of the encoding within, which is 0, then packed colors

A mask or picture is a bitmap: bits of eight columns to a byte, the leftmost highest, and every row
from a fresh byte, so that the last byte of a row may hold bits of columns that are not there.
These may be any.  A rectangle without pixels has no colors and no bits, and takes the cursor away.

`Installs` says of a reader that draws which bytes it takes and what becomes of the cursor.  The
cursor lies over the picture, which stays as it is.
-/
import RemoteFramebuffer.Deflate.Decoder
import RemoteFramebuffer.Proofs.Encoding.Capture
import RemoteFramebuffer.Proofs.Encoding.Painting
import RemoteFramebuffer.Proofs.Encoding.Walks
import RemoteFramebuffer.Proofs.Encoding.Zrle.Coding

namespace RemoteFramebuffer

theorem Rgba.unpack_flatMap_bytes (colors : List Rgba) : unpack (colors.flatMap bytes) = colors := by
  induction colors with
  | nil => rfl
  | cons color colors ih =>
      show color :: unpack (colors.flatMap bytes) = color :: colors
      rw [ih]

namespace Cursor

open Payload (takes_guarded takes_take takes_u32)
open Raster (rowMajor)
open Zrle (packByte packRow)

variable {area : Area}

/-! ## Bitmaps -/

/-- A bitmap whose rows go on behind the last column as `bit` does. -/
def bitmapBytes (area : Area) (bit : Nat → Nat → Bool) : Bytes :=
  (List.range area.height.toNat).flatMap fun y =>
    packRow 1 area.width.toNat fun x => (bit x y).toNat

theorem bitmapBytes_eq (area : Area) (bit : Nat → Nat → Bool) :
    bitmapBytes area bit = rowMajor ((area.width.toNat + 7) / 8) area.height.toNat fun i y =>
      packByte 1 fun k => (bit (i * 8 + k) y).toNat := rfl

theorem length_bitmapBytes (area : Area) (bit : Nat → Nat → Bool) :
    (bitmapBytes area bit).length = bitmapSize area := by
  rw [bitmapBytes_eq, Raster.length_rowMajor]
  rfl

theorem testBit_packByte (bit : Nat → Bool) {i : Nat} (lt : i < 8) :
    (packByte 1 fun k => (bit k).toNat).toNat.testBit (7 - i) = bit i := by
  have cut : (packByte 1 fun k => (bit k).toNat).toNat >>> (8 - 1 * (i + 1)) % 1 <<< 1 =
      (bit i).toNat := Zrle.shiftRight_packByte (fun k => (bit k).toNat_lt) rfl lt
  rw [show 8 - 1 * (i + 1) = 7 - i by omega, show 1 <<< 1 = 2 from rfl] at cut
  rw [Nat.testBit_eq_decide_div_mod_eq, ← Nat.shiftRight_eq_div_pow, cut]
  cases bit i <;> rfl

theorem bitAt_bitmapBytes (bit : Nat → Nat → Bool) {x y : Nat} (hx : x < area.width.toNat)
    (hy : y < area.height.toNat) :
    bitAt (bitmapBytes area bit).toArray ((area.width.toNat + 7) / 8) x y = .ok (bit x y) := by
  have column : x / 8 < (area.width.toNat + 7) / 8 := by omega
  have inside : y * ((area.width.toNat + 7) / 8) + x / 8 < (bitmapBytes area bit).toArray.size := by
    rw [List.size_toArray, length_bitmapBytes, bitmapSize]
    exact place_lt column hy
  have here : (bitmapBytes area bit).toArray[y * ((area.width.toNat + 7) / 8) + x / 8] =
      packByte 1 fun k => (bit (x / 8 * 8 + k) y).toNat := by
    refine Option.some.inj ((Array.getElem?_eq_getElem inside).symm.trans ?_)
    rw [List.getElem?_toArray, bitmapBytes_eq, Raster.getElem?_rowMajor _ column hy]
  obtain ⟨_, byte, rfl⟩ := (Guarded.safe_get inside).eq_ok
  obtain ⟨⟨⟩, shift, -⟩ := (Guarded.safe_shift (show x % 8 < 8 by omega)).eq_ok
  simp only [bitAt, byte, shift, here, bind, Except.bind, pure, Except.pure]
  rw [testBit_packByte (fun k => bit (x / 8 * 8 + k) y) (by omega), Nat.div_add_mod']

theorem unpackBits_bitmapBytes (area : Area) (bit : Nat → Nat → Bool) :
    unpackBits area.width.toNat area.height.toNat (bitmapBytes area bit) =
      .ok (rowMajor area.width.toNat area.height.toNat bit).toArray := by
  have bits : (List.range (area.width.toNat * area.height.toNat)).mapM (fun i =>
      bitAt (bitmapBytes area bit).toArray ((area.width.toNat + 7) / 8) (i % area.width.toNat)
        (i / area.width.toNat)) =
      .ok (rowMajor area.width.toNat area.height.toNat bit) := by
    rw [← Raster.map_range_eq_rowMajor]
    refine Outcome.mapM_eq_ok fun i mem => ?_
    have bound := List.mem_range.mp mem
    have pos : 0 < area.width.toNat := Nat.pos_of_mul_pos_right (Nat.zero_lt_of_lt bound)
    exact bitAt_bitmapBytes bit (Nat.mod_lt i pos) (Nat.div_lt_of_lt_mul bound)
  simp only [unpackBits, bits, bind, Except.bind, pure, Except.pure]

theorem takes_bitmap (area : Area) (bit : Nat → Nat → Bool) :
    (bitmap area).Takes (bitmapBytes area bit)
      (rowMajor area.width.toNat area.height.toNat bit).toArray :=
  (takes_take (length_bitmapBytes area bit)).bind_nil (takes_guarded (unpackBits_bitmapBytes area bit))

/-! ## Images -/

structure Shade where
  red : UInt8
  green : UInt8
  blue : UInt8

namespace Shade

def bytes (shade : Shade) : Bytes := [shade.red, shade.green, shade.blue]

def color (shade : Shade) : Rgba := ⟨shade.red, shade.green, shade.blue, 255⟩

end Shade

/-- What is sent of a cursor, by column and row. -/
inductive Image (format : PixelFormat)
  | pixels (pixel : Nat → Nat → format.Pixel) (mask : Nat → Nat → Bool)
  | twoColors (foreground background : Shade) (picture mask : Nat → Nat → Bool)
  | alpha (color : Nat → Nat → Rgba)

namespace Image

variable {format : PixelFormat}

def encoding : Image format → Encoding
  | pixels .. => .cursor
  | twoColors .. => .xCursor
  | alpha _ => .cursorWithAlpha

def bytes (area : Area) : Image format → Bytes
  | pixels pixel mask =>
    (rowMajor area.width.toNat area.height.toNat pixel).flatMap PixelFormat.Pixel.bytes ++
      bitmapBytes area mask
  | twoColors foreground background picture mask =>
    if area.pixels = 0 then []
    else foreground.bytes ++ background.bytes ++ (bitmapBytes area picture ++ bitmapBytes area mask)
  | alpha color =>
    Bytes.ofNat 4 0 ++ (rowMajor area.width.toNat area.height.toNat color).flatMap Rgba.bytes

end Image

def Image.colorAt (style : Style) (image : Image style.format) (x y : Nat) : Rgba :=
  match image with
  | pixels pixel _ => style.color (pixel x y).bytes
  | twoColors foreground background picture _ =>
    if picture x y then foreground.color else background.color
  | alpha color => color x y

def Image.shows {format : PixelFormat} (image : Image format) (x y : Nat) : Bool :=
  match image with
  | pixels _ mask => mask x y
  | twoColors _ _ _ mask => mask x y
  | alpha color => (color x y).alpha != 0

/-- The shape of a cursor with its hotspot at the place of the rectangle. -/
def Image.shape (style : Style) (image : Image style.format) (area : Area) : CursorShape where
  width := area.width.toNat
  height := area.height.toNat
  hotspot := ⟨area.x.toNat, area.y.toNat⟩
  pixels := (rowMajor area.width.toNat area.height.toNat (image.colorAt style)).toArray
  mask := (rowMajor area.width.toNat area.height.toNat image.shows).toArray
  size_pixels := by simp
  size_mask := by simp

/-! ## Capturing -/

theorem length_pixelBytes {format : PixelFormat} (area : Area) (pixel : Nat → Nat → format.Pixel) :
    ((rowMajor area.width.toNat area.height.toNat pixel).flatMap PixelFormat.Pixel.bytes).length =
      area.pixels * format.bytesPerPixel := by
  rw [PixelFormat.length_flatMap_bytes, Raster.length_rowMajor]
  rfl

theorem length_colorBytes (area : Area) (color : Nat → Nat → Rgba) :
    ((rowMajor area.width.toNat area.height.toNat color).flatMap Rgba.bytes).length =
      area.pixels * 4 := by
  have four : ∀ c ∈ rowMajor area.width.toNat area.height.toNat color, c.bytes.length = 4 :=
    fun _ _ => rfl
  rw [Bytes.length_flatMap_of_forall four, Raster.length_rowMajor]
  rfl

theorem takes_capturePayload {format : PixelFormat} (area : Area) (image : Image format) :
    (Codec.capturePayload image.encoding area format).Takes (image.bytes area) () := by
  cases image with
  | pixels pixel mask =>
      refine Capture.takes_skip ?_
      rw [Image.bytes, List.length_append, length_pixelBytes, length_bitmapBytes]
  | twoColors foreground background picture mask =>
      show (captureTwoColor area).Takes _ ()
      rw [captureTwoColor, Image.bytes]
      by_cases none : area.pixels = 0
      · rw [if_pos none, if_pos none]
        exact Reader.takes_pure ()
      · rw [if_neg none, if_neg none]
        refine Capture.takes_skip ?_
        simp only [List.length_append, length_bitmapBytes, Shade.bytes, List.length_cons,
          List.length_nil]
        omega
  | alpha color =>
      have raw : Capture.i32.Takes (Bytes.ofNat 4 0) 0 := Capture.takes_i32 0
      refine raw.bind ?_
      exact Capture.takes_skip (length_colorBytes area color)

/-! ## Drawing -/

section

variable [StreamDecoder] {style : Style}

/-- Takes exactly these bytes, whatever follows them, and gives the cursor this shape. -/
def Installs (shape : Option CursorShape) (r : Render Unit) (used : Bytes) : Prop :=
  ∀ rest (c : Canvas) streams, c.Tracked →
    r (used ++ rest) ⟨c, streams⟩ = (.ok ((), rest), ⟨c.setCursor shape, streams⟩)

theorem installs_draw (shape : Option CursorShape) :
    Installs shape (Render.draw (Draw.setCursor shape)) [] := by
  intro rest c streams tracked
  refine Render.draw_of_ok ?_ rest
  simp only [Draw.setCursor, Draw.change, Draw.paint,
    (Canvas.safe_touchSetCursor tracked shape).eq_unit]
  rfl

namespace Installs

variable {α : Type} {shape : Option CursorShape} {p : Payload α} {used used' : Bytes} {a : α}
  {f : α → Render Unit}

theorem read (takes : p.Takes used a) (installs : Installs shape (f a) used') :
    Installs shape (Render.read p >>= f) (used ++ used') := by
  intro rest c streams tracked
  rw [List.append_assoc, Render.read_bind_of_takes takes]
  exact installs rest c streams tracked

theorem read_last (takes : p.Takes used a) (installs : Installs shape (f a) []) :
    Installs shape (Render.read p >>= f) used := by
  have both := read takes installs
  rwa [List.append_nil] at both

end Installs

theorem setShape_eq (image : Image style.format) (area : Area) :
    setShape area (image.shape style area).pixels (image.shape style area).mask =
      Draw.setCursor (some (image.shape style area)) := by
  have sizes : (image.shape style area).pixels.size = area.width.toNat * area.height.toNat ∧
      (image.shape style area).mask.size = area.width.toNat * area.height.toNat ∧
      4 * (image.shape style area).pixels.size = 4 * (image.shape style area).pixels.size :=
    ⟨(image.shape style area).size_pixels, (image.shape style area).size_mask, rfl⟩
  rw [setShape, CursorShape.make, dif_pos sizes]
  rfl

omit [StreamDecoder] in
theorem takes_twoColors (foreground background : Shade) :
    twoColors.Takes (foreground.bytes ++ background.bytes) (foreground.color, background.color) :=
  fun _ => rfl

theorem installs_shape (valid : style.format.validate = .ok ()) (present : area.pixels ≠ 0)
    (image : Image style.format) :
    Installs (some (image.shape style area)) (Codec.renderPayload image.encoding style area)
      (image.bytes area) := by
  have done := installs_draw (some (image.shape style area))
  rw [← setShape_eq] at done
  cases image with
  | pixels pixel mask =>
      show Installs _ (render style area) _
      rw [render, if_neg present]
      refine .read (takes_take (length_pixelBytes area pixel)) ?_
      refine .read_last (takes_bitmap area mask) ?_
      rw [Style.unpack_flatMap valid, Raster.map_rowMajor]
      exact done
  | twoColors foreground background picture mask =>
      show Installs _ (renderTwoColor area) _
      rw [renderTwoColor, if_neg present, Image.bytes, if_neg present]
      refine .read (takes_twoColors foreground background) ?_
      refine .read (takes_bitmap area picture) ?_
      refine .read_last (takes_bitmap area mask) ?_
      rw [List.map_toArray, Raster.map_rowMajor]
      exact done
  | alpha color =>
      show Installs _ (renderAlpha area) _
      rw [renderAlpha]
      refine .read (takes_u32 (by decide)) ?_
      rw [if_neg present]
      refine .read_last (takes_take (length_colorBytes area color)) ?_
      dsimp only
      rw [Rgba.unpack_flatMap_bytes, List.map_toArray, Raster.map_rowMajor]
      exact done

theorem installs_none (bare : area.pixels = 0) (image : Image style.format) :
    Installs none (Codec.renderPayload image.encoding style area) (image.bytes area) := by
  cases image with
  | pixels pixel mask =>
      have nothing : (Image.pixels pixel mask).bytes area = [] := by
        refine List.eq_nil_of_length_eq_zero ?_
        rw [Image.bytes, List.length_append, length_pixelBytes, length_bitmapBytes, bare,
          bitmapSize_eq_zero bare, Nat.zero_mul]
      show Installs _ (render style area) _
      rw [nothing, render, if_pos bare]
      exact installs_draw none
  | twoColors foreground background picture mask =>
      show Installs _ (renderTwoColor area) _
      rw [Image.bytes, renderTwoColor, if_pos bare, if_pos bare]
      exact installs_draw none
  | alpha color =>
      have nothing : (rowMajor area.width.toNat area.height.toNat color).flatMap Rgba.bytes = [] := by
        refine List.eq_nil_of_length_eq_zero ?_
        rw [length_colorBytes, bare, Nat.zero_mul]
      show Installs _ (renderAlpha area) _
      rw [Image.bytes, nothing, renderAlpha]
      refine .read (takes_u32 (by decide)) ?_
      rw [if_pos bare]
      exact installs_draw none

/-! ## Reading and drawing -/

/-- **The cursor becomes what was sent.**  Each form of an image is read as a payload, whatever
follows it, and drawing it succeeds.  If there are pixels, the cursor has exactly the image's shape,
with the hotspot at the place of the rectangle; otherwise there is no cursor any more.  The picture
under the cursor stays as it is. -/
theorem decode_installs (valid : style.format.validate = .ok ()) {scene : Scene}
    (tracked : scene.canvas.Tracked) (image : Image style.format) :
    (∀ rest, (Codec.read image.encoding area style.format).run (image.bytes area ++ rest) =
      (.ok ⟨image.encoding, image.bytes area⟩, rest)) ∧
    let after := Codec.render ⟨image.encoding, image.bytes area⟩ style area scene
    after.1 = .ok () ∧
      after.2.canvas.cursor = (if area.pixels = 0 then none else some (image.shape style area)) ∧
      after.2.canvas.picture = scene.canvas.picture := by
  have reads := takes_capturePayload area image
  refine ⟨fun rest => Codec.run_read_ok.mpr ⟨rfl, rfl, reads rest⟩, ?_⟩
  have installs : Installs (if area.pixels = 0 then none else some (image.shape style area))
      (Codec.renderPayload image.encoding style area) (image.bytes area) := by
    by_cases bare : area.pixels = 0
    · rw [if_pos bare]
      exact installs_none bare image
    · rw [if_neg bare]
      exact installs_shape valid bare image
  intro after
  have drawn := installs [] scene.canvas scene.streams tracked
  rw [List.append_nil] at drawn
  have ends : after = _ := Codec.render_eq drawn
  rw [ends]
  exact ⟨rfl, Canvas.cursor_setCursor _ _, Canvas.picture_setCursor _ _⟩

end

/-- Two colors in turn; only the ninth column is to be seen, and the bits behind it are set. -/
def ninthColumn : Image .rgb888 :=
  .twoColors ⟨1, 2, 3⟩ ⟨4, 5, 6⟩ (fun x _ => x % 2 == 0) fun x _ => decide (8 ≤ x)

theorem decode_installs_ninthColumn :
    (Style.mk .rgb888 .black).format.validate = .ok () ∧
      ((Canvas.make 4 3).setCursor (some Canvas.tip)).Tracked ∧
      ninthColumn.bytes ⟨2, 1, 9, 2⟩ =
        [1, 2, 3, 4, 5, 6, 0xAA, 0xAA, 0xAA, 0xAA, 0x00, 0xFF, 0x00, 0xFF] ∧
      ∃ after, Codec.render ⟨.xCursor, ninthColumn.bytes ⟨2, 1, 9, 2⟩⟩ ⟨.rgb888, .black⟩ ⟨2, 1, 9, 2⟩
          ⟨(Canvas.make 4 3).setCursor (some Canvas.tip), Streams.fresh⟩ = (.ok (), after) ∧
        after.canvas.cursor = some (ninthColumn.shape ⟨.rgb888, .black⟩ ⟨2, 1, 9, 2⟩) ∧
        after.canvas.picture = ((Canvas.make 4 3).setCursor (some Canvas.tip)).picture := by
  have valid : (Style.mk .rgb888 .black).format.validate = .ok () := rfl
  have tracked : ((Canvas.make 4 3).setCursor (some Canvas.tip)).Tracked :=
    ((Canvas.WellFormed.make (by decide) (by decide)).setCursor _).tracked
  obtain ⟨-, done, cursor, picture⟩ := @decode_installs ⟨2, 1, 9, 2⟩ _ ⟨.rgb888, .black⟩ valid
    ⟨(Canvas.make 4 3).setCursor (some Canvas.tip), Streams.fresh⟩ tracked ninthColumn
  exact ⟨valid, tracked, by decide +kernel, _, Prod.ext done rfl, cursor, picture⟩

end Cursor

end RemoteFramebuffer
