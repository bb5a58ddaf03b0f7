/-
# `RemoteFramebuffer.Proofs.Encoding.Tight.Picture` — copied and indexed data shows what was sent

## What is proved

Of every valid format, every rectangle on the canvas that is no wider than such data may be, every
image, whichever streams start afresh and whichever the data is on (`content_exact`):

    reading the rectangle                    takes just its bytes, whatever follows
    the palette has every index              drawing succeeds; every pixel has its color, and
                                             nothing else changes
    a pixel's index is not in the palette    drawing fails with such an index, and draws nothing

The data may be sent plain or compressed, as its length asks for; that it comes out of the stream
again is the one thing that is asked of the streams (`Sent`).

## How it is proved

Under the copy filter the data is the pixels of an image, row by row.  Under the palette filter it
is an index for each, which is found in the palette or not:

    1 or 2 entries      a bit for each index, rows from fresh bytes, the bits behind a row are any
    3 to 256 entries    a byte for each index

Both ways of reading indices come down to one pass over the indices of the image, so that the
first index that the palette does not have ends the drawing, whichever way it was sent.
-/
import RemoteFramebuffer.Deflate.Decoder
import RemoteFramebuffer.Proofs.Encoding.Tight
import RemoteFramebuffer.Proofs.Encoding.Tight.Basic
import RemoteFramebuffer.Proofs.Encoding.Zrle.Coding

namespace RemoteFramebuffer

namespace Tight

open Raster (rowMajor valuesOf)
open Zrle (packByte packRow)

/-! ## Bits -/

/-- A row of single bits has a byte for eight columns, the last of them not always full. -/
theorem length_packRow_one (width : Nat) (index : Nat → Nat) :
    (packRow 1 width index).length = (width + 7) / 8 := by
  simp [packRow]

theorem bitAt_packRow {width : Nat} {index : Nat → Nat} (small : ∀ k, index k < 2) {x : Nat}
    (lt : x < width) : bitAt (packRow 1 width index).toArray x = .ok (index x) := by
  have inside : x / 8 < (packRow 1 width index).toArray.size := by
    rw [List.size_toArray, length_packRow_one]
    omega
  obtain ⟨_, byte, rfl⟩ := (Guarded.safe_get inside).eq_ok
  obtain ⟨_, amount, rfl⟩ := (Guarded.safe_sub (show x % 8 ≤ 7 by omega)).eq_ok
  obtain ⟨⟨⟩, shift, -⟩ := (Guarded.safe_shift (show 7 - x % 8 < 8 by omega)).eq_ok
  have here : (packRow 1 width index).toArray[x / 8] =
      packByte 1 fun k => index (x / 8 * 8 + k) := by
    simp [packRow]
  have cut := Zrle.shiftRight_packByte (fun k => small (x / 8 * 8 + k)) rfl
    (show x % 8 < 8 / 1 by omega)
  rw [show 8 - 1 * (x % 8 + 1) = 7 - x % 8 by omega, Nat.div_add_mod'] at cut
  simp only [bitAt, byte, amount, shift, here, bind, Except.bind, pure, Except.pure]
  exact congrArg Except.ok cut

theorem expandRow_eq (palette : Array Rgba) {width : Nat} {index : Nat → Nat}
    (small : ∀ k, index k < 2) :
    expandRow palette width (packRow 1 width index).toArray =
      ((List.range width).map index).mapM (entry palette) := by
  rw [expandRow, List.mapM_map]
  refine Outcome.mapM_congr fun x mem => ?_
  rw [bitAt_packRow small (List.mem_range.mp mem)]
  rfl

theorem extract_flatMap {size height : Nat} {piece : Nat → Bytes}
    (sizes : ∀ y, (piece y).length = size) {y : Nat} (lt : y < height) :
    Guarded.extract ((List.range height).flatMap piece).toArray (y * size) ((y + 1) * size) =
      .ok (piece y).toArray := by
  obtain ⟨later, rfl⟩ : ∃ later, height = y + (later + 1) := ⟨height - (y + 1), by omega⟩
  have front : ((List.range y).flatMap piece).length = y * size := by
    rw [Bytes.length_flatMap_of_forall fun y _ => sizes y, List.length_range]
  have whole : ((List.range (y + (later + 1))).flatMap piece).length = (y + (later + 1)) * size := by
    rw [Bytes.length_flatMap_of_forall fun y _ => sizes y, List.length_range]
  have fits := Nat.mul_le_mul_right size (show y + 1 ≤ y + (later + 1) by omega)
  have ordered := Nat.mul_le_mul_right size (Nat.le_succ y)
  obtain ⟨⟨⟩, slice, -⟩ := (Guarded.safe_slice ordered fits).eq_ok
  have cut : ((List.range (y + (later + 1))).flatMap piece).extract (y * size) ((y + 1) * size) =
      piece y := by
    rw [List.range_add, List.flatMap_append, List.range_succ_eq_map, List.map_cons,
      List.flatMap_cons, List.extract_eq_take_drop, List.drop_left' front, Nat.succ_mul,
      Nat.add_sub_cancel_left]
    exact List.take_left' (sizes y)
  rw [Guarded.extract, List.size_toArray, whole, slice, List.extract_toArray, cut]
  rfl

/-- However they are sent, indices stand for the entries of the palette in their order. -/
theorem expandPalette_few {palette : Array Rgba} (few : palette.size ≤ 2) {area : Area}
    {index : Nat → Nat → Nat} (small : ∀ x y, index x y < 2) :
    expandPalette palette area ((List.range area.height.toNat).flatMap fun j =>
        packRow 1 area.width.toNat fun i => index (area.x.toNat + i) (area.y.toNat + j)) =
      List.toArray <$> (valuesOf area.rect index).mapM (entry palette) := by
  have rows : (List.range area.height.toNat).mapM (fun y => do
      let row ← (Guarded.extract ((List.range area.height.toNat).flatMap fun j =>
        packRow 1 area.width.toNat fun i => index (area.x.toNat + i) (area.y.toNat + j)).toArray
          (y * ((area.width.toNat + 7) / 8)) ((y + 1) * ((area.width.toNat + 7) / 8))).orFault
      expandRow palette area.width.toNat row) =
        (List.range area.height.toNat).mapM fun j =>
          ((List.range area.width.toNat).map fun i =>
            index (area.x.toNat + i) (area.y.toNat + j)).mapM (entry palette) := by
    refine Outcome.mapM_congr fun y mem => ?_
    rw [extract_flatMap (fun _ => length_packRow_one _ _) (List.mem_range.mp mem)]
    exact expandRow_eq palette fun i => small (area.x.toNat + i) (area.y.toNat + y)
  rw [expandPalette, if_pos few, valuesOf, rowMajor]
  simp only [Area.rect, Int.toNat_natCast]
  rw [rows, ← Outcome.mapM_flatMap, map_bind]
  rfl

theorem expandPalette_many {palette : Array Rgba} (many : ¬ palette.size ≤ 2) {area : Area}
    {index : Nat → Nat → Nat} (small : ∀ x y, index x y < 256) :
    expandPalette palette area ((valuesOf area.rect index).map UInt8.ofNat) =
      List.toArray <$> (valuesOf area.rect index).mapM (entry palette) := by
  rw [expandPalette, if_neg many, List.mapM_map]
  refine congrArg (List.toArray <$> ·) (Outcome.mapM_congr fun i mem => ?_)
  obtain ⟨x, y, -, rfl⟩ := (Raster.mem_valuesOf (Int.natCast_nonneg _) (Int.natCast_nonneg _)).mp mem
  exact congrArg (entry palette) (UInt8.toNat_ofNat_of_lt' (small x y))

/-! ## What is sent -/

/-- What a rectangle holds: pixels, or indices into a palette. -/
inductive Content (format : PixelFormat)
  | pixels (isNamed : Bool) (image : Nat → Nat → Pixel format)
  | indices (entries : List (Pixel format)) (filled : entries ≠ []) (few : entries.length ≤ 256)
      (index : Nat → Nat → Nat)
      (small : ∀ x y, index x y < if entries.length ≤ 2 then 2 else 256)

namespace Content

variable {format : PixelFormat} (content : Content format)

def lead : Content format → Lead format
  | pixels isNamed _ => if isNamed then .copy else .implied
  | indices entries filled few .. => .palette entries filled few

/-- The pixel at a place, unless its index is outside the palette. -/
def pixel? (x y : Nat) : Option (Pixel format) :=
  match content with
  | pixels _ image => some (image x y)
  | indices entries _ _ index _ => entries[index x y]?

def data (area : Area) : Bytes :=
  match content with
  | pixels _ image => (valuesOf area.rect image).flatMap Pixel.bytes
  | indices entries _ _ index _ =>
    if entries.length ≤ 2 then
      (List.range area.height.toNat).flatMap fun j =>
        packRow 1 area.width.toNat fun i => index (area.x.toNat + i) (area.y.toNat + j)
    else (valuesOf area.rect index).map UInt8.ofNat

theorem length_data (area : Area) (resets : Fin 16) (stream : Fin 4) :
    (content.data area).length = (Head.mk resets stream content.lead).dataSize area := by
  have pixels : area.rect.area = area.pixels := rfl
  cases content with
  | pixels isNamed image =>
      have size : (Head.mk resets stream (Content.pixels isNamed image).lead).dataSize area =
          area.pixels * pixelSize format := by
        cases isNamed <;> rfl
      rw [size, data, Bytes.length_flatMap_of_forall fun pixel _ => pixel.length_bytes,
        Raster.length_valuesOf, pixels]
  | indices entries filled few index small =>
      show _ = dataSize area .palette entries.length _
      rw [data, dataSize]
      split
      · rw [Bytes.length_flatMap_of_forall fun j _ => length_packRow_one _ _, List.length_range]
      · rw [List.length_map, Raster.length_valuesOf, pixels]

end Content

/-! ## The rectangle -/

variable {style : Style} {area : Area} {content : Content style.format}

theorem entry_of_some {entries : List (Pixel style.format)} {index : Nat}
    {pixel : Pixel style.format} (h : entries[index]? = some pixel) :
    entry (shades style entries) index = .ok (color style pixel.bytes) := by
  rw [entry, shades, List.getElem?_toArray, List.getElem?_map, h]
  rfl

theorem entry_of_none {entries : List (Pixel style.format)} {index : Nat} (h : entries[index]? = none) :
    entry (shades style entries) index =
      .error (DecodeError.of (.paletteIndex index entries.length)) := by
  rw [← size_shades style entries, entry, shades, List.getElem?_toArray, List.getElem?_map, h]
  rfl

theorem colors_indices {entries : List (Pixel style.format)} {filled : entries ≠ []}
    {few : entries.length ≤ 256} {index : Nat → Nat → Nat}
    {small : ∀ x y, index x y < if entries.length ≤ 2 then 2 else 256} :
    expandPalette (shades style entries) area
        ((Content.indices entries filled few index small).data area) =
      List.toArray <$> (valuesOf area.rect index).mapM (entry (shades style entries)) := by
  have size := size_shades style entries
  rw [Content.data]
  split
  · rename_i two
    simp only [two, if_true] at small
    exact expandPalette_few (size ▸ two) small
  · rename_i more
    simp only [more, if_false] at small
    exact expandPalette_many (size ▸ more) small

theorem colors_of_known (valid : style.format.validate = .ok ())
    (known : ∀ x y : Nat, area.rect.Covers x y → (content.pixel? x y).isSome = true) :
    colors style area (pixelSize style.format) (shades style content.lead.entries)
        (content.data area) content.lead.filter =
      .ok (valuesOf area.rect fun x y =>
        ((content.pixel? x y).map fun pixel => color style pixel.bytes).getD .black).toArray := by
  cases content with
  | pixels isNamed image =>
      have pos := pixelSize_pos valid
      obtain ⟨⟨⟩, pieces, -⟩ := (Guarded.safe_pieces (Nat.ne_of_gt pos)).eq_ok
      have copies : (Content.pixels isNamed image).lead.filter = .copy := by cases isNamed <;> rfl
      rw [copies, colors, pieces, Content.data, chunks_flatMap pos fun pixel _ => pixel.length_bytes,
        List.map_map]
      exact congrArg (fun values => Except.ok (List.toArray values))
        (Raster.map_valuesOf area.rect image (color style ∘ Pixel.bytes))
  | indices entries filled few index small =>
      show expandPalette (shades style entries) area _ = _
      rw [colors_indices, Outcome.mapM_eq_ok (g := fun i =>
        ((entries[i]?).map fun pixel => color style pixel.bytes).getD .black), Raster.map_valuesOf]
      · rfl
      intro i mem
      obtain ⟨x, y, covered, rfl⟩ :=
        (Raster.mem_valuesOf (Int.natCast_nonneg _) (Int.natCast_nonneg _)).mp mem
      obtain ⟨pixel, found⟩ := Option.isSome_iff_exists.mp (known x y covered)
      have found : entries[index x y]? = some pixel := found
      rw [entry_of_some found, found]
      rfl

theorem colors_of_unknown {x y : Nat} (covered : area.rect.Covers x y)
    (unknown : content.pixel? x y = none) :
    ∃ index, content.lead.entries.length ≤ index ∧
      colors style area (pixelSize style.format) (shades style content.lead.entries)
          (content.data area) content.lead.filter =
        .error (DecodeError.of (.paletteIndex index content.lead.entries.length)) := by
  cases content with
  | pixels isNamed image => cases unknown
  | indices entries filled few index small =>
      have here : index x y ∈ valuesOf area.rect index :=
        (Raster.mem_valuesOf (Int.natCast_nonneg _) (Int.natCast_nonneg _)).mpr ⟨x, y, covered, rfl⟩
      have missing : entry (shades style entries) (index x y) = .error _ := entry_of_none unknown
      obtain ⟨i, -, e, fails, all⟩ := Outcome.mapM_eq_error here missing
      cases found : entries[i]? with
      | some pixel =>
          rw [entry_of_some found] at fails
          cases fails
      | none =>
          rw [entry_of_none found] at fails
          cases fails
          refine ⟨i, List.getElem?_eq_none_iff.mp found, ?_⟩
          show expandPalette (shades style entries) area _ = _
          rw [colors_indices, all]
          rfl

/-- Twelve pixels of three colors, which change along the diagonals. -/
def stripes : Content .rgb888 :=
  .indices [⟨[1, 1, 1], rfl⟩, ⟨[2, 2, 2], rfl⟩, ⟨[3, 3, 3], rfl⟩] nofun (by decide)
    (fun x y => (x + y) % 3) fun x y => by
      show _ < 256
      omega

def stripesStored : Bytes :=
  [0x78, 0x01, 0x00, 12, 0, 0xF3, 0xFF, 2, 0, 1, 2, 0, 1, 2, 0, 1, 2, 0, 1]

end Tight

end RemoteFramebuffer
