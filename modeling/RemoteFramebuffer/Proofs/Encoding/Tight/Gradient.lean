/-
# `RemoteFramebuffer.Proofs.Encoding.Tight.Gradient` — differences from a prediction are undone

## What is proved

Of every format whose pixels are packed, every rectangle and every image whose samples are in range
(`gradient_exact`):

    predictions, differences, what is restored     are in range
    the rows restored from the differences         are the rows of the image
    the filter, given the packed differences       gives the colors of the image
    a rectangle of this data                       is drawn, and shows the colors of the image

The image is what a sender has; what it sends is defined by the prediction, not by the reader.

## How it is proved

Under the gradient filter a pixel is sent as what it differs in, channel by channel, from a
prediction made of its neighbours

    corner   above
    left     (x, y)        left + above - corner, kept between 0 and the largest value,

where everything outside the image counts as 0 and the first of a row is predicted to be as the
one above.  The reader goes through the image in the same order and holds no more of it than the
row above and the pixel to the left.  What carries the proof is that these are the neighbours in
the image itself: a value that was restored is the value that was sent, so that the next prediction
is the sender's.
-/
import RemoteFramebuffer.Deflate.Decoder
import RemoteFramebuffer.Proofs.Encoding.Tight
import RemoteFramebuffer.Proofs.Encoding.Tight.Basic

namespace RemoteFramebuffer

namespace Tight

open Raster (rowMajor)

/-! ## One channel -/

/-- What left and above less the corner come to, kept in range. -/
def estimate (max left above corner : Nat) : Nat :=
  (Max.max 0 (Min.min ((left : Int) + above - corner) max)).toNat

/-- How far a value is from what was predicted, modulo the range. -/
def difference (max value predicted : Nat) : Nat :=
  (((value : Int) - predicted) % ((max : Int) + 1)).toNat

theorem estimate_le (max left above corner : Nat) : estimate max left above corner ≤ max := by
  unfold estimate
  omega

theorem predict_eq_estimate (max left above corner : Nat) :
    predict max left above corner = estimate max left above corner := by
  unfold predict estimate
  omega

theorem difference_le (max value predicted : Nat) : difference max value predicted ≤ max := by
  have low := Int.emod_nonneg ((value : Int) - predicted) (show (max : Int) + 1 ≠ 0 by omega)
  have high := Int.emod_lt_of_pos ((value : Int) - predicted) (show 0 < (max : Int) + 1 by omega)
  unfold difference
  omega

/-- The range of a channel: the numbers of some bits, 16 at most. -/
structure IsRange (max : Nat) : Prop where
  full : ∃ bits, max + 1 = 1 <<< bits
  small : max < 0x10000

/-- The reader comes back to the value that the sender took the difference from. -/
theorem restore_difference {max value predicted : Nat} (range : IsRange max) (le : value ≤ max)
    (predicted_le : predicted ≤ max) :
    restore max predicted (difference max value predicted) = value := by
  obtain ⟨⟨bits, full⟩, small⟩ := range
  have sum : (predicted + difference max value predicted) % (max + 1) = value := by
    rcases Nat.lt_or_ge value predicted with below | above
    · have wraps : difference max value predicted = value + (max + 1) - predicted := by
        have cycle := Int.add_emod_right ((value : Int) - predicted) ((max : Int) + 1)
        rw [Int.emod_eq_of_lt (by omega) (by omega)] at cycle
        unfold difference
        omega
      rw [wraps, show predicted + (value + (max + 1) - predicted) = value + (max + 1) by omega,
        Nat.add_mod_right, Nat.mod_eq_of_lt (by omega)]
    · have straight : difference max value predicted = value - predicted := by
        unfold difference
        rw [Int.emod_eq_of_lt (by omega) (by omega)]
        omega
      rw [straight, Nat.add_sub_cancel' above, Nat.mod_eq_of_lt (by omega)]
  have low := difference_le max value predicted
  rw [restore, Nat.mod_eq_of_lt (show _ < 0x100000000 by omega), Channel.and_full full, sum]

/-! ## Samples -/

namespace Sample

structure Within (s maxes : Sample) : Prop where
  red : s.red ≤ maxes.red
  green : s.green ≤ maxes.green
  blue : s.blue ≤ maxes.blue

theorem zero_within (maxes : Sample) : zero.Within maxes :=
  ⟨Nat.zero_le _, Nat.zero_le _, Nat.zero_le _⟩

/-- The largest values are those of some bits. -/
structure IsRange (maxes : Sample) : Prop where
  red : Tight.IsRange maxes.red
  green : Tight.IsRange maxes.green
  blue : Tight.IsRange maxes.blue

def estimate (maxes left above corner : Sample) : Sample :=
  combine (fun max left above corner _ => Tight.estimate max left above corner)
    maxes left above corner zero

def difference (maxes value predicted : Sample) : Sample :=
  combine (fun max value predicted _ _ => Tight.difference max value predicted)
    maxes value predicted zero zero

theorem estimate_within (maxes left above corner : Sample) :
    (estimate maxes left above corner).Within maxes :=
  ⟨estimate_le _ _ _ _, estimate_le _ _ _ _, estimate_le _ _ _ _⟩

theorem difference_within (maxes value predicted : Sample) :
    (difference maxes value predicted).Within maxes :=
  ⟨difference_le _ _ _, difference_le _ _ _, difference_le _ _ _⟩

variable {maxes value : Sample}

theorem restore_difference {predicted : Sample} (range : maxes.IsRange) (le : value.Within maxes)
    (predicted_le : predicted.Within maxes) :
    combine (fun max predicted difference _ _ => restore max predicted difference)
      maxes predicted (difference maxes value predicted) zero zero = value := by
  have red := Tight.restore_difference range.red le.red predicted_le.red
  have green := Tight.restore_difference range.green le.green predicted_le.green
  have blue := Tight.restore_difference range.blue le.blue predicted_le.blue
  exact (Sample.mk.injEq ..).mpr ⟨red, green, blue⟩

theorem restore_difference_estimate (range : maxes.IsRange) (le : value.Within maxes)
    (left above corner : Sample) :
    combine (fun max left above corner difference =>
        restore max (predict max left above corner) difference)
      maxes left above corner (difference maxes value (estimate maxes left above corner)) =
        value := by
  refine Eq.trans ?_ (restore_difference range le (estimate_within maxes left above corner))
  simp only [combine, estimate, difference, predict_eq_estimate]

end Sample

/-! ## Images -/

section

variable (maxes : Sample) (image : Nat → Nat → Sample)

/-- The sample above; there is none above the first row. -/
def aboveOf : (x y : Nat) → Sample
  | _, 0 => .zero
  | x, y + 1 => image x y

/-- What the sample at a place is predicted to be. -/
def predicted : (x y : Nat) → Sample
  | 0, y => aboveOf image 0 y
  | x + 1, y => Sample.estimate maxes (image x y) (aboveOf image (x + 1) y) (aboveOf image x y)

def differenceAt (x y : Nat) : Sample :=
  Sample.difference maxes (image x y) (predicted maxes image x y)

def rowOf (image : Nat → Nat → Sample) (width y : Nat) : List Sample :=
  (List.range width).map (image · y)

end

section

variable {maxes : Sample} {image : Nat → Nat → Sample} {width height : Nat}

theorem aboveOf_within (within : ∀ x < width, ∀ y < height, (image x y).Within maxes) {x y : Nat}
    (hx : x < width) (hy : y < height) : (aboveOf image x y).Within maxes := by
  cases y with
  | zero => exact Sample.zero_within maxes
  | succ y => exact within x hx y (by omega)

theorem predicted_within (within : ∀ x < width, ∀ y < height, (image x y).Within maxes) {x y : Nat}
    (hx : x < width) (hy : y < height) : (predicted maxes image x y).Within maxes := by
  cases x with
  | zero => exact aboveOf_within within hx hy
  | succ x => exact Sample.estimate_within _ _ _ _

/-- Right of a sample of the image, under what is above, a row is restored from its differences. -/
theorem restoreRow_eq (range : maxes.IsRange)
    (within : ∀ x < width, ∀ y < height, (image x y).Within maxes) {y : Nat} (hy : y < height)
    {x count : Nat} (fits : x + 1 + count ≤ width) :
    restoreRow maxes (image x y) (aboveOf image x y)
        ((List.range' (x + 1) count).map (aboveOf image · y))
        ((List.range' (x + 1) count).map (differenceAt maxes image · y)) =
      .ok ((List.range' (x + 1) count).map (image · y)) := by
  induction count generalizing x with
  | zero => rfl
  | succ count ih =>
      have value := Sample.restore_difference_estimate range (within (x + 1) (by omega) y hy)
        (image x y) (aboveOf image (x + 1) y) (aboveOf image x y)
      simp only [List.range'_succ, List.map_cons]
      rw [restoreRow, differenceAt, predicted, value, ih (show x + 1 + 1 + count ≤ width by omega)]
      rfl

theorem restoreFirst_eq (range : maxes.IsRange)
    (within : ∀ x < width, ∀ y < height, (image x y).Within maxes) {y : Nat} (hy : y < height) :
    restoreFirst maxes (rowOf (aboveOf image) width y) (rowOf (differenceAt maxes image) width y) =
      .ok (rowOf image width y) := by
  cases width with
  | zero => rfl
  | succ width =>
      have value := Sample.restore_difference range (within 0 (Nat.succ_pos width) y hy)
        (aboveOf_within within (Nat.succ_pos width) hy)
      simp only [rowOf, List.range_eq_range', List.range'_succ, List.map_cons]
      rw [restoreFirst, differenceAt, predicted, value,
        restoreRow_eq range within hy (show 0 + 1 + width ≤ width + 1 by omega)]
      rfl

/-- From row `y` on, under the row above it, an image is restored from its differences. -/
theorem restoreRows_eq (range : maxes.IsRange)
    (within : ∀ x < width, ∀ y < height, (image x y).Within maxes) {y count : Nat}
    (fits : y + count ≤ height) :
    restoreRows maxes (rowOf (aboveOf image) width y)
        ((List.range' y count).map (rowOf (differenceAt maxes image) width)) =
      .ok ((List.range' y count).map (rowOf image width)) := by
  induction count generalizing y with
  | zero => rfl
  | succ count ih =>
      simp only [List.range'_succ, List.map_cons]
      rw [restoreRows, restoreFirst_eq range within (show y < height by omega)]
      -- The row that was restored is the one above the next.
      show restoreRows maxes (rowOf (aboveOf image) width (y + 1)) _ >>= _ = _
      rw [ih (show y + 1 + count ≤ height by omega)]
      rfl

theorem rowOf_aboveOf_zero (image : Nat → Nat → Sample) (width : Nat) :
    rowOf (aboveOf image) width 0 = List.replicate width .zero := by
  simp [rowOf, aboveOf, List.map_const']

end

/-! ## Pixels -/

/-- The largest values of the channels: three bytes have eight bits each. -/
def maxes (format : PixelFormat) : Sample :=
  if pixelSize format = 3 then ⟨255, 255, 255⟩
  else ⟨format.red.max.toNat, format.green.max.toNat, format.blue.max.toNat⟩

def Sample.pack (format : PixelFormat) (s : Sample) : Bytes :=
  if pixelSize format = 3 then [UInt8.ofNat s.red, UInt8.ofNat s.green, UInt8.ofNat s.blue]
  else format.valueBytes (format.join s.red s.green s.blue)

def Sample.color (format : PixelFormat) (s : Sample) : Rgba :=
  if pixelSize format = 3 then ⟨UInt8.ofNat s.red, UInt8.ofNat s.green, UInt8.ofNat s.blue, 255⟩
  else ⟨format.red.level s.red, format.green.level s.green, format.blue.level s.blue, 255⟩

theorem length_pack (format : PixelFormat) (s : Sample) :
    (s.pack format).length = pixelSize format := by
  rw [Sample.pack]
  split
  · rename_i three
    rw [three]
    rfl
  · rename_i more
    rw [PixelFormat.length_valueBytes]
    unfold pixelSize at more ⊢
    split
    · rename_i three
      exact absurd (if_pos three) more
    · rfl

variable {style : Style}

theorem maxes_ofStyle (style : Style) :
    (SampleForm.ofStyle style (pixelSize style.format)).maxes = maxes style.format := by
  rw [SampleForm.ofStyle, maxes]
  split <;> rfl

/-- Formats that the filter is for: their pixels have 16 or 32 bits and are three bytes or hold
channels in fields of their own. -/
structure IsPackable (format : PixelFormat) : Prop where
  valid : format.validate = .ok ()
  color : format.isTrueColor = true
  wide : format.bitsPerPixel ≠ 8
  regular : pixelSize format = 3 ∨ format.Regular

theorem IsPackable.range {format : PixelFormat} (packable : IsPackable format) :
    (maxes format).IsRange := by
  have byte : IsRange 255 := ⟨⟨8, rfl⟩, by decide⟩
  have channel {c : Channel} (full : c.IsFull) : IsRange c.max.toNat := ⟨full, c.max.toNat_lt⟩
  rw [maxes]
  split
  · exact ⟨byte, byte, byte⟩
  · rename_i more
    obtain ⟨full, -⟩ := packable.regular.resolve_left more
    simp only [PixelFormat.channels, List.forall_mem_cons] at full
    exact ⟨channel full.1, channel full.2.1, channel full.2.2.1⟩

theorem ofPixel_pack (packable : IsPackable style.format) {s : Sample}
    (within : s.Within (maxes style.format)) :
    (SampleForm.ofStyle style (pixelSize style.format)).ofPixel (s.pack style.format) = .ok s := by
  obtain ⟨valid, color, -, regular⟩ := packable
  obtain ⟨red, green, blue⟩ := within
  rw [SampleForm.ofStyle, Sample.pack]
  rw [maxes] at red green blue
  split
  · rename_i three
    simp only [three, if_true] at red green blue
    have byte {v : Nat} (le : v ≤ 255) : (UInt8.ofNat v).toNat = v :=
      UInt8.toNat_ofNat_of_lt' (show v < 256 by omega)
    show Except.ok (Sample.mk (UInt8.ofNat s.red).toNat (UInt8.ofNat s.green).toNat
      (UInt8.ofNat s.blue).toNat) = _
    rw [byte red, byte green, byte blue]
  · rename_i more
    simp only [more, if_false] at red green blue
    obtain ⟨shiftRed, shiftGreen, shiftBlue⟩ := PixelFormat.shift_lt_of_validate valid color
    obtain ⟨joinRed, joinGreen, joinBlue⟩ :=
      PixelFormat.component_join (regular.resolve_left more) red green blue
    have value := PixelFormat.value_valueBytes valid (PixelFormat.join_lt valid color red green blue)
    have taken {c : Channel} (lt : c.shift.toNat < 32) (v : Nat) :
        component c v = .ok (c.component v) := by
      obtain ⟨⟨⟩, shift, -⟩ := (Guarded.safe_shift lt).eq_ok
      rw [component, shift]
      rfl
    dsimp only
    rw [value, taken shiftRed, taken shiftGreen, taken shiftBlue, joinRed, joinGreen, joinBlue]
    rfl

theorem color_eq (packable : IsPackable style.format) {s : Sample}
    (within : s.Within (maxes style.format)) :
    (SampleForm.ofStyle style (pixelSize style.format)).color s = .ok (s.color style.format) := by
  obtain ⟨valid, color, -, regular⟩ := packable
  obtain ⟨red, green, blue⟩ := within
  rw [SampleForm.ofStyle, Sample.color]
  rw [maxes] at red green blue
  split
  · rfl
  · rename_i more
    simp only [more, if_false] at red green blue
    obtain ⟨shiftRed, shiftGreen, shiftBlue⟩ := PixelFormat.shift_lt_of_validate valid color
    obtain ⟨joinRed, joinGreen, joinBlue⟩ :=
      PixelFormat.component_join (regular.resolve_left more) red green blue
    obtain ⟨smallRed, smallGreen, smallBlue⟩ :=
      PixelFormat.placed_lt valid color red green blue
    have put {c : Channel} {v : Nat} (lt : c.shift.toNat < 32)
        (small : v <<< c.shift.toNat < 1 <<< style.format.bitsPerPixel.toNat) :
        placed c v = .ok (v <<< c.shift.toNat) := by
      obtain ⟨⟨⟩, shift, -⟩ := (Guarded.safe_shift lt).eq_ok
      rw [placed, shift, Nat.mod_eq_of_lt (PixelFormat.lt_of_validate valid small)]
      rfl
    dsimp only
    rw [put shiftRed smallRed, put shiftGreen smallGreen, put shiftBlue smallBlue]
    show Except.ok (style.format.valueColor (style.format.join s.red s.green s.blue) style.colors) = _
    rw [PixelFormat.valueColor, if_pos color]
    simp only [Channel.scale_eq_level, joinRed, joinGreen, joinBlue]

/-! ## The whole image -/

section

variable {image : Nat → Nat → Sample} {width height : Nat}

/-- The data of an image: its differences one after another. -/
def gradientData (format : PixelFormat) (width height : Nat) (image : Nat → Nat → Sample) : Bytes :=
  (rowMajor width height (differenceAt (maxes format) image)).flatMap (Sample.pack format)

theorem length_gradientData (format : PixelFormat) :
    (gradientData format width height image).length = width * height * pixelSize format := by
  rw [gradientData, Bytes.length_flatMap_of_forall fun s _ => length_pack format s,
    Raster.length_rowMajor]

variable {format : PixelFormat}

theorem length_packRow (s : List Sample) :
    (s.flatMap (Sample.pack format)).length = s.length * pixelSize format :=
  Bytes.length_flatMap_of_forall fun s _ => length_pack format s

theorem differences_eq (packable : IsPackable style.format) {row : List Sample}
    (within : ∀ s ∈ row, s.Within (maxes style.format)) :
    differences (.ofStyle style (pixelSize style.format)) (pixelSize style.format)
      (row.flatMap (Sample.pack style.format)) = .ok row := by
  have pos := pixelSize_pos packable.valid
  obtain ⟨⟨⟩, pieces, -⟩ := (Guarded.safe_pieces (Nat.ne_of_gt pos)).eq_ok
  rw [differences, pieces, chunks_flatMap pos fun s _ => length_pack style.format s, List.mapM_map]
  refine (Outcome.mapM_eq_ok (g := id) fun s mem => ofPixel_pack packable (within s mem)).trans ?_
  rw [List.map_id]

theorem undoDifferences_eq (packable : IsPackable style.format)
    (within : ∀ x < width, ∀ y < height, (image x y).Within (maxes style.format))
    (some : 0 < width) :
    undoDifferences (.ofStyle style (pixelSize style.format)) width (pixelSize style.format)
        (gradientData style.format width height image) =
      .ok (rowMajor width height fun x y => (image x y).color style.format).toArray := by
  have pos : 0 < width * pixelSize style.format := Nat.mul_pos some (pixelSize_pos packable.valid)
  obtain ⟨⟨⟩, pieces, -⟩ := (Guarded.safe_pieces (Nat.ne_of_gt pos)).eq_ok
  have cut : chunks (width * pixelSize style.format) (gradientData style.format width height image) =
      (List.range height).map fun y =>
        (rowOf (differenceAt (maxes style.format) image) width y).flatMap
          (Sample.pack style.format) := by
    rw [gradientData, rowMajor, List.flatMap_assoc]
    refine chunks_flatMap pos fun y _ => ?_
    rw [length_packRow, List.length_map, List.length_range]
  have rows : ((List.range height).map fun y =>
      (rowOf (differenceAt (maxes style.format) image) width y).flatMap
        (Sample.pack style.format)).mapM
          (differences (.ofStyle style (pixelSize style.format)) (pixelSize style.format)) =
      .ok ((List.range height).map (rowOf (differenceAt (maxes style.format) image) width)) := by
    rw [List.mapM_map]
    refine Outcome.mapM_eq_ok fun y _ => differences_eq packable fun s mem => ?_
    obtain ⟨x, -, rfl⟩ := List.mem_map.mp mem
    exact Sample.difference_within _ _ _
  have restored := restoreRows_eq packable.range within (show 0 + height ≤ height by omega)
  rw [rowOf_aboveOf_zero, ← List.range_eq_range'] at restored
  have colors : ((List.range height).map (rowOf image width)).flatten.mapM
      (SampleForm.ofStyle style (pixelSize style.format)).color =
        .ok (rowMajor width height fun x y => (image x y).color style.format) := by
    rw [← Raster.map_rowMajor, rowMajor, List.flatMap_def]
    refine Outcome.mapM_eq_ok fun s mem => color_eq packable ?_
    simp only [List.mem_flatten, List.mem_map, List.mem_range] at mem
    obtain ⟨_, ⟨y, hy, rfl⟩, mem⟩ := mem
    obtain ⟨x, hx, rfl⟩ := List.mem_map.mp mem
    exact within x (List.mem_range.mp hx) y hy
  simp only [undoDifferences, pieces, cut, maxes_ofStyle, rows, restored, colors, bind, Except.bind,
    pure, Except.pure]

theorem undoGradient_eq (packable : IsPackable style.format) {area : Area}
    (within : ∀ x < area.width.toNat, ∀ y < area.height.toNat,
      (image x y).Within (maxes style.format))
    (some : 0 < area.width.toNat) :
    undoGradient style area (pixelSize style.format)
        (gradientData style.format area.width.toNat area.height.toNat image) =
      .ok (rowMajor area.width.toNat area.height.toNat fun x y =>
        (image x y).color style.format).toArray := by
  have right : ¬ (¬ style.format.isTrueColor ∨ style.format.bitsPerPixel = 8) := by
    rw [packable.color]
    simpa using packable.wide
  rw [undoGradient, if_neg right, undoDifferences_eq packable within some]
  rfl

/-- **The gradient filter undoes its prediction.**  Let the samples of an image be in range.  Then
so are the predictions, the differences sent and all that is restored, which row by row is the image
itself; and the filter turns the packed differences into its colors.  Without columns there is
nothing for the filter to do, and it is not asked: drawing a rectangle of this data succeeds at
every width and height and shows the colors of the image. -/
theorem gradient_exact [StreamDecoder] (packable : IsPackable style.format) {area : Area}
    (within : ∀ x < area.width.toNat, ∀ y < area.height.toNat,
      (image x y).Within (maxes style.format)) :
    let width := area.width.toNat
    let height := area.height.toNat
    let data := gradientData style.format width height image
    (∀ x < width, ∀ y < height, (predicted (maxes style.format) image x y).Within (maxes style.format) ∧
      (differenceAt (maxes style.format) image x y).Within (maxes style.format)) ∧
    restoreRows (maxes style.format) (List.replicate width .zero)
      ((List.range height).map (rowOf (differenceAt (maxes style.format) image) width)) =
        .ok ((List.range height).map (rowOf image width)) ∧
    (0 < width → undoGradient style area (pixelSize style.format) data =
      .ok (rowMajor width height fun x y => (image x y).color style.format).toArray) ∧
    ∀ {scene : Scene} {head : Head style.format} {body : Bytes},
      scene.canvas.Tracked → scene.canvas.raster.holds area.rect = true →
      head.lead = .gradient → Sent (head.inflater scene.streams) data body →
      let after := Codec.render ⟨.tight, head.bytes body⟩ style area scene
      after.1 = .ok () ∧ scene.canvas.ChangesOnly area.rect after.2.canvas ∧
        ∀ x < width, ∀ y < height, after.2.canvas.raster.pixel? (area.x.toNat + x)
          (area.y.toNat + y) = some ((image x y).color style.format) := by
  intro width height data
  refine ⟨fun x hx y hy => ⟨predicted_within within hx hy, Sample.difference_within _ _ _⟩, ?_,
    undoGradient_eq packable within, ?_⟩
  · have restored := restoreRows_eq packable.range within (show 0 + height ≤ height by omega)
    rwa [rowOf_aboveOf_zero, ← List.range_eq_range'] at restored
  rintro scene ⟨resets, stream, _⟩ body tracked held ⟨⟩ sent
  have shown : area.pixels ≠ 0 →
      undoGradient style area (pixelSize style.format) data = .ok (Raster.valuesOf area.rect fun x y =>
        (image (x - area.x.toNat) (y - area.y.toNat)).color style.format).toArray := by
    intro present
    have some : 0 < area.width.toNat := Nat.pos_of_mul_pos_right (Nat.pos_of_ne_zero present)
    refine (undoGradient_eq packable within some).trans ?_
    simp only [Raster.valuesOf, Area.rect, Int.toNat_natCast, Nat.add_sub_cancel_left]
  obtain ⟨done, only, pixels⟩ := shows tracked held sent (length_gradientData _) shown
  refine ⟨done, only, fun x hx y hy => ?_⟩
  have covered : area.rect.Covers ((area.x.toNat + x : Nat) : Int) ((area.y.toNat + y : Nat) : Int) := by
    unfold Rect.Covers Area.rect
    dsimp only
    omega
  have found := pixels _ _ covered
  rwa [Nat.add_sub_cancel_left, Nat.add_sub_cancel_left] at found

/-- Four grey samples: 10 and 20, and below them 30 and 45. -/
def greys (x y : Nat) : Sample :=
  let level := 10 + 10 * x + 20 * y + 5 * x * y
  ⟨level, level, level⟩

def greysStored : Bytes :=
  [0x78, 0x01, 0x00, 12, 0, 0xF3, 0xFF, 10, 10, 10, 10, 10, 10, 20, 20, 20, 5, 5, 5]

theorem gradient_exact_greys :
    IsPackable (Style.mk .rgb888 .black).format ∧
      (∀ x < 2, ∀ y < 2, (greys x y).Within (maxes .rgb888)) ∧
      ∃ after, Codec.render ⟨.tight, (Head.mk 0 0 .gradient : Head .rgb888).bytes
          (CompactLength.encode greysStored.length ++ greysStored)⟩ ⟨.rgb888, .black⟩ ⟨0, 0, 2, 2⟩
          ⟨Canvas.make 2 2, Streams.fresh⟩ = (.ok (), after) ∧
        after.canvas.raster.pixel? 1 1 = some ⟨45, 45, 45, 255⟩ := by
  have packable : IsPackable (Style.mk .rgb888 .black).format := ⟨rfl, rfl, by decide, .inl rfl⟩
  have within : ∀ x < 2, ∀ y < 2, (greys x y).Within (maxes .rgb888) := by
    intro x hx y hy
    have le : 10 + 10 * x + 20 * y + 5 * x * y ≤ 255 := by
      rcases (by omega : x = 0 ∨ x = 1) with rfl | rfl <;> omega
    exact ⟨le, le, le⟩
  have tracked : (Canvas.make 2 2).Tracked := (Canvas.WellFormed.make (by decide) (by decide)).tracked
  have held : (Canvas.make 2 2).raster.holds (Area.mk 0 0 2 2).rect = true := by decide +kernel
  have sent : Sent ((Head.mk 0 0 .gradient : Head .rgb888).inflater Streams.fresh)
      (gradientData .rgb888 2 2 greys) (CompactLength.encode greysStored.length ++ greysStored) :=
    .compressed (by decide +kernel) (by decide)
      (Outcome.eq_ok_of_toOption (by decide +kernel))
  obtain ⟨-, -, -, drawn⟩ := @gradient_exact ⟨.rgb888, .black⟩ greys _ packable ⟨0, 0, 2, 2⟩ within
  obtain ⟨done, -, shown⟩ :=
    @drawn ⟨Canvas.make 2 2, Streams.fresh⟩ ⟨0, 0, .gradient⟩ _ tracked held rfl sent
  refine ⟨packable, within, ?_⟩
  have last := shown 1 (by decide) 1 (by decide)
  generalize Codec.render _ _ _ _ = result at done last ⊢
  obtain ⟨ended, after⟩ := result
  subst done
  exact ⟨after, rfl, last⟩

end

end Tight

end RemoteFramebuffer
