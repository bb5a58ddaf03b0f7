/-
# `RemoteFramebuffer.Proofs.Raster.Drawing` — drawing is exact, and all or nothing

A call that draws on a block either is accepted, and then gives the pixels of the block their
colors and keeps every other, or it is refused and leaves the raster as it was.  What it takes to be
accepted, and what pixel a pixel of the block then is:

    fill           the block lies inside                         the color
    image          the same, and if the block has pixels, the    pixel  j * pitch + i  of the data
                   data goes to the end of its last row
    copy           the block and its source lie inside           the source's, as it was before
    slices         the block lies inside and has pixels          pixel  j * width + i  of the slice

Here `i` and `j` are column and row within the block.  Copying has a module of its own.  Refused or
not, no call touches a pixel that is not there.
-/
import RemoteFramebuffer.Proofs.Bytes
import RemoteFramebuffer.Proofs.Canvas.Access

namespace RemoteFramebuffer

open Canvas (Call)

/-- The whole rectangle lies inside the raster; an empty one may touch the far edges. -/
def Rect.Inside (block : Rect) (r : Raster) : Prop :=
  (0 ≤ block.x ∧ block.x + block.width ≤ r.width) ∧ 0 ≤ block.y ∧ block.y + block.height ≤ r.height

theorem Rect.Inside.of_size {block : Rect} {r s : Raster} (h : block.Inside r)
    (width : s.width = r.width) (height : s.height = r.height) : block.Inside s := by
  unfold Inside
  rw [width, height]
  exact h

theorem Rgba.length_unpack (data : Bytes) : (unpack data).length = data.length / 4 := by
  induction data using unpack.induct with
  | case1 r g b a rest ih =>
      rw [unpack, List.length_cons, ih]
      simp only [List.length_cons]
      omega
  | case2 data few =>
      have short : data.length < 4 := by
        match data, few with
        | [], _ | [_], _ | [_, _], _ | [_, _, _], _ => simp
        | r :: g :: b :: a :: rest, few => exact absurd rfl (few r g b a rest)
      rw [unpack.eq_2 _ few, List.length_nil, Nat.div_eq_of_lt short]

namespace Raster

/-! ## All or nothing -/

def bytes (r : Raster) : Bytes := r.pixels.toList.flatMap Rgba.bytes

theorem length_bytes (r : Raster) : r.bytes.length = r.width * r.height * 4 := by
  have four : ∀ color ∈ r.pixels.toList, color.bytes.length = 4 := fun _ _ => rfl
  rw [bytes, Bytes.length_flatMap_of_forall four, Array.length_toList, r.size_pixels]

/-- What a call that draws on a block returns and leaves behind.  Accepted, it colors the pixels of
the block and keeps every other; refused, it leaves the raster as it was. -/
structure AllOrNothing (r : Raster) (block : Rect) (accepted : Prop)
    (color : Nat → Nat → Option Rgba) (out : Except DrawError Unit × Raster) : Prop where
  ok_iff : out.1 = .ok () ↔ accepted
  colored : accepted → ∀ x y : Nat, block.Covers x y → out.2.pixel? x y = color x y
  kept : accepted → ∀ x y : Nat, ¬ block.Covers x y → out.2.pixel? x y = r.pixel? x y
  refused : ¬ accepted → out.2 = r
  width : out.2.width = r.width
  height : out.2.height = r.height
  size : out.2.bytes.length = r.width * r.height * 4

variable {r after : Raster} {block : Rect} {accepted : Prop} {color : Nat → Nat → Option Rgba}

theorem AllOrNothing.of_check {check : Except DrawError Unit} (accepts : check = .ok () ↔ accepted)
    (width : after.width = r.width) (height : after.height = r.height)
    (colored : accepted → ∀ x y : Nat, block.Covers x y → after.pixel? x y = color x y)
    (kept : accepted → ∀ x y : Nat, ¬ block.Covers x y → after.pixel? x y = r.pixel? x y) :
    AllOrNothing r block accepted color (Call.drawn r (do check; return after)) := by
  cases check with
  | error e =>
      have not : ¬ accepted := fun h => nomatch accepts.mpr h
      refine ⟨iff_of_false nofun not, ?_, ?_, fun _ => rfl, rfl, rfl, r.length_bytes⟩
      · intro h
        exact absurd h not
      · intro h
        exact absurd h not
  | ok =>
      have yes : accepted := accepts.mp rfl
      refine ⟨iff_of_true rfl yes, colored, kept, fun h => absurd yes h, width, height, ?_⟩
      show after.bytes.length = _
      rw [after.length_bytes, width, height]

/-! ## One color -/

theorem check_eq_ok_iff : r.check block = .ok () ↔ block.Inside r := check_eq_ok.trans holds_iff

theorem pixel?_recolor_of_covers (held : r.holds block = true) {f : Nat → Nat → Rgba → Rgba} {x y : Nat}
    (covered : block.Covers x y) {shown : Rgba}
    (same : ∀ old, f (x - block.x.toNat) (y - block.y.toNat) old = shown) :
    (r.recolor block f).pixel? x y = some shown := by
  obtain ⟨inX, inY⟩ := lt_of_covers held covered
  obtain ⟨old, was⟩ := r.pixel?_eq_some inX inY
  rw [pixel?_recolor r held, if_pos covered, was, Option.map_some, same]

theorem fill_allOrNothing (r : Raster) (block : Rect) (color : Rgba) :
    AllOrNothing r block (block.Inside r) (fun _ _ => some color)
      (Call.onRaster r (.fill block color)) := by
  refine .of_check check_eq_ok_iff (r.width_paint _ _) (r.height_paint _ _) ?_ ?_
  · intro inside x y covered
    exact pixel?_recolor_of_covers (holds_iff.mpr inside) covered fun _ => rfl
  · intro inside x y outside
    exact r.paint_of_not_covers (holds_iff.mpr inside) color outside

/-! ## The pixels of an image -/

/-- The bytes up to the end of the last row of a block, if it has pixels, are there. -/
def Reaches (block : Rect) (pitch length : Nat) : Prop :=
  block.HasPixels → 4 * (pitch * (block.height - 1) + block.width) ≤ length

theorem checkImage_eq_ok_iff {stride length : Nat} :
    r.checkImage block stride length = .ok () ↔
      block.Inside r ∧ Reaches block (strideOf block stride) length := by
  have need : sourceBytes block.width block.height (strideOf block stride) =
      4 * (strideOf block stride * (block.height - 1) + block.width) := Nat.mul_comm _ _
  rw [← check_eq_ok_iff, checkImage, Reaches, ← need]
  cases r.check block with
  | error e =>
      constructor
      · rintro ⟨⟩
      · rintro ⟨⟨⟩, -⟩
  | ok =>
      rw [eq_self, true_and, ← Rect.isEmpty_eq_false]
      show (if !block.isEmpty then if _ then _ else _ else _) = _ ↔ _
      cases block.isEmpty with
      | true => exact iff_of_true rfl fun h => Bool.noConfusion h
      | false =>
          rw [if_pos (show (!false) = true from rfl)]
          by_cases short : length < sourceBytes block.width block.height (strideOf block stride)
          · rw [if_pos short]
            refine iff_of_false ?_ fun h => absurd (h rfl) (Nat.not_le.mpr short)
            rintro ⟨⟩
          · rw [if_neg short]
            exact iff_of_true rfl fun _ => Nat.not_lt.mp short

theorem place_lt_of_row {i j width height pitch : Nat} (hi : i < width) (hj : j < height) :
    j * pitch + i < pitch * (height - 1) + width := by
  have above : j * pitch ≤ pitch * (height - 1) := by
    rw [Nat.mul_comm pitch]
    exact Nat.mul_le_mul_right pitch (by omega)
  omega

theorem image_allOrNothing (r : Raster) (block : Rect) (data : Bytes) (stride : Nat) :
    AllOrNothing r block (block.Inside r ∧ Reaches block (strideOf block stride) data.length)
      (fun x y =>
        (Rgba.unpack data)[(y - block.y.toNat) * strideOf block stride + (x - block.x.toNat)]?)
      (Call.onRaster r (.image block data stride)) := by
  refine .of_check checkImage_eq_ok_iff (r.width_overlay _ _ _) (r.height_overlay _ _ _) ?_ ?_
  · rintro ⟨inside, reaches⟩ x y covered
    have within := inside
    unfold Rect.Inside at within
    have bounds := covered
    unfold Rect.Covers at bounds
    have enough := reaches ⟨by omega, by omega⟩
    have place : (y - block.y.toNat) * strideOf block stride + (x - block.x.toNat) <
        strideOf block stride * (block.height - 1) + block.width :=
      place_lt_of_row (by omega) (by omega)
    have there : (y - block.y.toNat) * strideOf block stride + (x - block.x.toNat) <
        (Rgba.unpack data).length := by
      rw [Rgba.length_unpack]
      omega
    refine (pixel?_recolor_of_covers (holds_iff.mpr inside) covered fun old => ?_).trans
      (List.getElem?_eq_getElem there).symm
    rw [List.getElem?_toArray, List.getElem?_eq_getElem there, Option.getD_some]
  · rintro ⟨inside, -⟩ x y outside
    rw [overlay, pixel?_recolor r (holds_iff.mpr inside), if_neg outside]

/-! ## Slices -/

/-- How many pixels are stored from the first of a block to its last. -/
def sliceSize (r : Raster) (block : Rect) : Nat := (block.height - 1) * r.width + block.width

/-- Direct reading.  There is a slice exactly of a block that lies inside and has pixels, and it
holds the rows of the block as far apart as the raster has them. -/
structure Sliced (r : Raster) (block : Rect) : Prop where
  isSome_iff : (r.slice? block).isSome ↔ block.Inside r ∧ block.HasPixels
  pixel : ∀ slice, r.slice? block = some slice → ∀ i < block.width, ∀ j < block.height,
    slice[j * r.width + i]? = r.pixel? (block.x.toNat + i) (block.y.toNat + j)
  size : ∀ slice, r.slice? block = some slice → slice.size = sliceSize r block

/-- Direct writing.  There is the same slice.  What is written to a pixel of it is written to that
pixel of the raster, and no pixel changes that is stored before the slice or behind it. -/
structure Rewritten (r : Raster) (block : Rect) (f : Nat → Rgba → Rgba) : Prop where
  isSome_iff : (r.recolorSlice? block f).isSome ↔ block.Inside r ∧ block.HasPixels
  pixel : ∀ after, r.recolorSlice? block f = some after → ∀ i < block.width, ∀ j < block.height,
    after.pixel? (block.x.toNat + i) (block.y.toNat + j) =
      (r.pixel? (block.x.toNat + i) (block.y.toNat + j)).map (f (j * r.width + i))
  kept : ∀ after, r.recolorSlice? block f = some after → ∀ x y : Nat,
    r.index x y < r.index block.x.toNat block.y.toNat ∨
        r.index block.x.toNat block.y.toNat + sliceSize r block ≤ r.index x y →
      after.pixel? x y = r.pixel? x y
  size : ∀ after, r.recolorSlice? block f = some after →
    after.width = r.width ∧ after.height = r.height ∧ after.bytes.length = r.width * r.height * 4

theorem holds_and_hasPixels_iff :
    (r.holds block && !block.isEmpty) = true ↔ block.Inside r ∧ block.HasPixels := by
  rw [Bool.and_eq_true, Bool.not_eq_true', holds_iff, Rect.isEmpty_eq_false]
  rfl

/-- The pixels of a block stand in its slice, counted from the first of them. -/
theorem index_block (r : Raster) (left top i j : Nat) :
    r.index (left + i) (top + j) = r.index left top + (j * r.width + i) := by
  unfold index
  rw [Nat.add_mul]
  omega

theorem place_lt_sliceSize {i j : Nat} (hi : i < block.width) (hj : j < block.height) :
    j * r.width + i < sliceSize r block := by
  rw [sliceSize, Nat.mul_comm (block.height - 1)]
  exact place_lt_of_row hi hj

/-- Recoloring a run of stored pixels that may go on through several rows. -/
theorem pixel?_recolorRow_index (r : Raster) (left top count : Nat) (f : Nat → Rgba → Rgba)
    (x y : Nat) :
    (r.recolorRow left top count f).pixel? x y =
      if r.index left top ≤ r.index x y ∧ r.index x y < r.index left top + count then
        (r.pixel? x y).map (f (r.index x y - r.index left top))
      else r.pixel? x y := by
  by_cases inside : x < r.width ∧ y < r.height
  · rw [pixel?_of_lt r inside.1 inside.2,
      pixel?_of_lt (r.recolorRow left top count f) inside.1 inside.2]
    exact getElem?_recolorRun _ _ _ _ _
  · rw [pixel?_eq_none r inside, pixel?_eq_none (r.recolorRow left top count f) inside]
    split <;> rfl

theorem slice?_eq_some_iff {slice : Array Rgba} :
    r.slice? block = some slice ↔ (block.Inside r ∧ block.HasPixels) ∧
      r.pixels.extract (r.index block.x.toNat block.y.toNat)
        (r.index block.x.toNat block.y.toNat + sliceSize r block) = slice := by
  rw [slice?, ← holds_and_hasPixels_iff, sliceSize, ← Nat.add_assoc]
  exact Option.ite_none_right_eq_some.trans (and_congr_right fun _ => Option.some_inj)

theorem recolorSlice?_eq_some_iff {f : Nat → Rgba → Rgba} :
    r.recolorSlice? block f = some after ↔ (block.Inside r ∧ block.HasPixels) ∧
      r.recolorRow block.x.toNat block.y.toNat (sliceSize r block) f = after := by
  rw [recolorSlice?, ← holds_and_hasPixels_iff, sliceSize]
  exact Option.ite_none_right_eq_some.trans (and_congr_right fun _ => Option.some_inj)

theorem slice_le (inside : block.Inside r) (some : block.HasPixels) :
    r.index block.x.toNat block.y.toNat + sliceSize r block ≤ r.pixels.size := by
  obtain ⟨⟨left, right⟩, top, bottom⟩ := inside
  have rows := some.2
  have last : r.index block.x.toNat (block.y.toNat + (block.height - 1)) + block.width ≤
      r.pixels.size := r.row_le (by omega) (by omega)
  have first := r.index_block block.x.toNat block.y.toNat 0 (block.height - 1)
  rw [Nat.add_zero, Nat.add_zero] at first
  rw [sliceSize]
  omega

theorem sliced (r : Raster) (block : Rect) : Sliced r block := by
  refine ⟨?_, ?_, ?_⟩
  · rw [Option.isSome_iff_exists]
    constructor
    · rintro ⟨slice, eq⟩
      exact (slice?_eq_some_iff.mp eq).1
    · intro accepted
      exact ⟨_, slice?_eq_some_iff.mpr ⟨accepted, rfl⟩⟩
  · intro slice eq i hi j hj
    obtain ⟨⟨inside, some⟩, rfl⟩ := slice?_eq_some_iff.mp eq
    have stop := slice_le inside some
    have place := place_lt_sliceSize (r := r) hi hj
    obtain ⟨⟨left, right⟩, top, bottom⟩ := inside
    rw [pixel?_of_lt r (by omega) (by omega), index_block,
      Array.getElem?_extract_of_lt (by omega), Array.getElem?_eq_getElem]
  · intro slice eq
    obtain ⟨⟨inside, some⟩, rfl⟩ := slice?_eq_some_iff.mp eq
    have stop := slice_le inside some
    rw [Array.size_extract]
    omega

theorem rewritten (r : Raster) (block : Rect) (f : Nat → Rgba → Rgba) : Rewritten r block f := by
  refine ⟨?_, ?_, ?_, ?_⟩
  · rw [Option.isSome_iff_exists]
    constructor
    · rintro ⟨after, eq⟩
      exact (recolorSlice?_eq_some_iff.mp eq).1
    · intro accepted
      exact ⟨_, recolorSlice?_eq_some_iff.mpr ⟨accepted, rfl⟩⟩
  · intro after eq i hi j hj
    obtain ⟨-, rfl⟩ := recolorSlice?_eq_some_iff.mp eq
    have place := place_lt_sliceSize (r := r) hi hj
    rw [pixel?_recolorRow_index, index_block, Nat.add_sub_cancel_left, if_pos (by omega)]
  · intro after eq x y apart
    obtain ⟨-, rfl⟩ := recolorSlice?_eq_some_iff.mp eq
    rw [pixel?_recolorRow_index, if_neg (by omega)]
  · intro after eq
    obtain ⟨-, rfl⟩ := recolorSlice?_eq_some_iff.mp eq
    exact ⟨rfl, rfl, length_bytes _⟩

/-! ## Drawing -/

/-- **Drawing is exact, and all or nothing.**  Of every raster and block: filling is accepted exactly
if the block lies inside, and an image if in addition the data goes to the end of the block's last
row, should it have pixels; a stride of 0 stands for the width of the block.  What is accepted colors
the pixels of the block and no other, and what is refused changes nothing.  There is a slice to read
or to write exactly of a block that lies inside and has pixels, and its pixels are those of the
raster.  The stored bytes stay as many as they are, and nothing is touched that is not there. -/
theorem drawing_exact (r : Raster) (block : Rect) :
    (∀ color,
      AllOrNothing r block (block.Inside r) (fun _ _ => some color)
        (Call.onRaster r (.fill block color)) ∧
      r.touchFill block = .ok ()) ∧
    (∀ data stride,
      let pitch := if stride = 0 then block.width else stride
      AllOrNothing r block
        (block.Inside r ∧
          (block.HasPixels → 4 * (pitch * (block.height - 1) + block.width) ≤ data.length))
        (fun x y => (Rgba.unpack data)[(y - block.y.toNat) * pitch + (x - block.x.toNat)]?)
        (Call.onRaster r (.image block data stride)) ∧
      r.touchImage block (Rgba.unpack data).length stride = .ok ()) ∧
    Sliced r block ∧ (∀ f, Rewritten r block f) ∧
    (block.Inside r ∧ block.HasPixels → r.touchSlice block = .ok ()) := by
  refine ⟨?_, ?_, r.sliced block, r.rewritten block, ?_⟩
  · intro color
    exact ⟨r.fill_allOrNothing block color, (r.safe_touchFill block).eq_unit⟩
  · intro data stride
    exact ⟨r.image_allOrNothing block data stride, (r.safe_touchImage block _ stride).eq_unit⟩
  · rintro ⟨inside, some⟩
    exact (safe_touchSlice (holds_iff.mpr inside) some.2).eq_unit

end Raster

end RemoteFramebuffer
