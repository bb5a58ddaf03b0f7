/-
# `RemoteFramebuffer.Proofs.Encoding.Walks` — captured data is walked to its end

Drawing a CopyRect, RRE, CoRRE, Hextile or Zlib rectangle or the shape of a cursor follows the
capture of it, so that it finds all it asks for and leaves nothing.  Each proof goes along both
readers at once.  A run that the capture passes over whole is cut where the drawing reads it
item by item.
-/
import RemoteFramebuffer.Encoding.Codec
import RemoteFramebuffer.Proofs.Encoding.Follows

namespace RemoteFramebuffer

open DecodeError (Clean clean_of)
open Guarded (Safe)
open Render

variable {P : DecodeError → Prop}

theorem Area.extent_lt (area : Area) : area.rect.width < 0x80000000 ∧ area.rect.height < 0x80000000 := by
  have := area.width.toNat_lt
  have := area.height.toNat_lt
  show area.width.toNat < 0x80000000 ∧ area.height.toNat < 0x80000000
  omega

/-! ## Pixels and nothing else -/

variable [StreamDecoder]

theorem CopyRect.follows_render (area : Area) :
    Follows CopyRect.capture Clean (fun _ _ => True) (CopyRect.render area) := by
  refine follows_u16.bind fun _ x _ => ?_
  refine follows_u16.bind fun _ y _ => ?_
  split
  · exact follows_pure trivial
  · exact follows_draw (Draw.sat_copy _ _)

namespace Zlib

theorem follows_body : Follows capture P (fun _ _ => True) (read body) := by
  rw [body, read_bind]
  refine follows_u32.bind fun _ length eq => ?_
  subst eq
  exact (follows_take _).mono (fun _ => id) fun _ _ _ => trivial

theorem follows_render (style : Style) (area : Area) :
    Follows capture Clean (fun _ _ => True) (render style area) := by
  refine follows_body.bind_after fun _ compressed _ => ?_
  refine .bind_draw (Draw.sat_inflate fun streams =>
    Streams.outcome_atLeast (Streams.outcome_inflate _ _ _)) fun pixels enough => ?_
  split
  · exact follows_pure trivial
  · refine .bind_draw (Draw.sat_guarded (Guarded.safe_slice (Nat.zero_le _) enough)) fun _ _ => ?_
    exact follows_draw (Draw.sat_image _ _)

end Zlib

theorem Raw.sat_render (style : Style) (area : Area) (data : Bytes) :
    Draw.Sat Clean (fun _ => True) (Raw.render style area data) := by
  refine sat_get ?_
  by_cases wrong : data.length ≠ area.pixels * style.bytesPerPixel
  · rw [if_pos wrong]
    refine sat_drawOnly (Draw.sat_fail ?_) data
    exact clean_of nofun nofun
  · rw [if_neg wrong]
    by_cases none : area.pixels = 0
    · rw [if_pos none]
      exact Draw.sat_pure trivial
    · rw [if_neg none]
      exact sat_drawOnly (Draw.sat_image _ _) data

/-! ## Sub-rectangles -/

namespace Subrects

def coordinateSize : Subrects → Nat
  | .words => 2
  | .bytes => 1

theorem follows_coordinate (kind : Subrects) :
    Follows (Capture.skip kind.coordinateSize) P (fun _ _ => True) (read kind.coordinate) := by
  cases kind with
  | words => exact follows_word 2
  | bytes =>
      rw [coordinate, read_map]
      exact follows_skip_u8.map fun _ _ _ => trivial

theorem follows_place (kind : Subrects) :
    Follows (Capture.skip kind.placeSize) P (fun _ _ => True) (read kind.place) := by
  have size : kind.placeSize = kind.coordinateSize + (kind.coordinateSize +
      (kind.coordinateSize + kind.coordinateSize)) := by
    cases kind <;> rfl
  simp only [place, read_bind, read_pure, size]
  refine .skip_bind (follows_coordinate kind) fun x _ => ?_
  refine .skip_bind (follows_coordinate kind) fun y _ => ?_
  refine .skip_bind (follows_coordinate kind) fun width _ => ?_
  exact (follows_coordinate kind).bind_after fun _ height _ => follows_pure trivial

theorem follows_renderOne (kind : Subrects) (style : Style) (area : Area) (index : Nat) :
    Follows (Capture.skip (style.bytesPerPixel + kind.placeSize)) Clean (fun _ _ => True)
      (kind.renderOne style area index) := by
  refine .skip_bind (follows_take _) fun pixel _ => ?_
  refine (follows_place kind).bind_after fun _ sub _ => ?_
  split
  · exact follows_fail (clean_of nofun nofun)
  · exact follows_draw (Draw.sat_fill _ _)

theorem follows_renderFrom (kind : Subrects) (style : Style) (area : Area) (left index : Nat) :
    Follows (Capture.skip (left * (style.bytesPerPixel + kind.placeSize))) Clean (fun _ _ => True)
      (kind.renderFrom style area left index) :=
  follows_loop (fun _ => rfl) (fun _ _ => rfl) (follows_renderOne kind style area) left index

theorem follows_render (kind : Subrects) (style : Style) (area : Area) :
    Follows (kind.capture style.format) Clean (fun _ _ => True) (kind.render style area) := by
  refine follows_u32.bind fun _ count eq => ?_
  subst eq
  refine (follows_take _).bind fun _ background _ => ?_
  refine .bind_draw (Draw.sat_fill _ _) fun _ _ => ?_
  exact follows_renderFrom kind style area _ 0

end Subrects

/-! ## Hextile -/

namespace Hextile

theorem follows_color (style : Style) :
    Follows (Capture.skip style.bytesPerPixel) P (fun _ _ => True) (read (color style)) := by
  rw [color, read_map]
  exact (follows_take _).map fun _ _ _ => trivial

theorem follows_place : Follows (Capture.skip 2) P (fun _ _ => True) (read place) := by
  simp only [place, read_bind, read_pure]
  rw [show 2 = 1 + 1 from rfl]
  refine .skip_bind follows_skip_u8 fun corner _ => ?_
  exact follows_skip_u8.bind_after fun _ extent _ => follows_pure trivial

theorem follows_subrectColor (style : Style) (tile : Rect) (colored : Bool)
    (foreground : Option Rgba) :
    Follows (Capture.skip (if colored then style.bytesPerPixel else 0)) Clean (fun _ _ => True)
      (read (subrectColor style tile colored foreground)) := by
  cases colored with
  | true => exact follows_color style
  | false =>
      cases foreground with
      | some color => exact .of_skip_zero (follows_pure trivial)
      | none => exact follows_fail (clean_of nofun nofun)

theorem follows_renderSubrect (style : Style) (tile : Rect) (colored : Bool)
    (foreground : Option Rgba) (index : Nat) :
    Follows (Capture.skip ((if colored then style.bytesPerPixel else 0) + 2)) Clean
      (fun _ _ => True) (renderSubrect style tile colored foreground index) := by
  refine .skip_bind (follows_subrectColor style tile colored foreground) fun color _ => ?_
  refine follows_place.bind_after fun _ sub _ => ?_
  split
  · exact follows_fail (clean_of nofun nofun)
  · exact follows_draw ((Draw.sat_fill _ _).within fun _ h => h.within _)

theorem follows_renderSubrects (style : Style) (tile : Rect) (colored : Bool)
    (foreground : Option Rgba) (left index : Nat) :
    Follows (Capture.skip (left * ((if colored then style.bytesPerPixel else 0) + 2))) Clean
      (fun _ _ => True) (renderSubrects style tile colored foreground left index) :=
  follows_loop (fun _ => rfl) (fun _ _ => rfl)
    (follows_renderSubrect style tile colored foreground) left index

theorem follows_statedOr (style : Style) (stated : Bool) (carried : Option Rgba) :
    Follows (captureStated style.format stated) P (fun _ _ => True)
      (read (statedOr style stated carried)) := by
  rw [statedOr, captureStated]
  split
  · rw [read_map]
    exact (follows_color style).map fun _ _ _ => trivial
  · exact follows_pure trivial

theorem follows_renderTile (style : Style) (carried : Carried) (tile : Rect) :
    Follows (captureTile style.format tile) Clean (fun _ _ => True)
      (renderTile style carried tile) := by
  refine follows_u8.bind fun _ flags eq => ?_
  subst eq
  generalize Flags.ofByte flags = flags
  dsimp only
  split
  · refine (follows_take _).bind_after fun _ pixels _ => ?_
    refine .bind_draw (Draw.sat_image _ _) fun _ _ => ?_
    exact follows_pure trivial
  · refine (follows_statedOr _ _ _).bind fun _ background _ => ?_
    cases background with
    | none => exact follows_fail (clean_of nofun nofun)
    | some background =>
        refine .bind_draw (Draw.sat_fill _ _) fun _ _ => ?_
        refine (follows_statedOr _ _ _).bind fun _ foreground _ => ?_
        rw [captureSubrects]
        split
        · refine follows_u8.bind fun _ count eq => ?_
          subst eq
          exact (follows_renderSubrects _ _ _ _ _ _).bind_after fun _ _ _ => follows_pure trivial
        · exact follows_pure trivial

theorem follows_render (style : Style) (area : Area) :
    Follows (capture area style.format) Clean (fun _ _ => True) (render style area) := by
  refine (follows_foldTiles area.extent_lt _ (follows_renderTile style) _).bind_after ?_
  exact fun _ _ _ => follows_pure trivial

end Hextile

/-! ## Cursors -/

namespace Cursor

omit [StreamDecoder] in
theorem safe_unpackBits {width height : Nat} {bitmap : Bytes}
    (size : bitmap.length = (width + 7) / 8 * height) :
    Safe (fun _ => True) (unpackBits width height bitmap) := by
  refine Outcome.bind (Outcome.mapM (R := fun _ => True) fun i mem => ?_) fun _ _ => .pure trivial
  have bound := List.mem_range.mp mem
  have pos : 0 < width := Nat.pos_of_mul_pos_right (Nat.zero_lt_of_lt bound)
  have column : i % width / 8 < (width + 7) / 8 := by
    have := Nat.mod_lt i pos
    omega
  have inside := place_lt column (Nat.div_lt_of_lt_mul bound)
  refine Outcome.bind (Guarded.safe_get (by simpa [size] using inside)) fun byte _ => ?_
  exact Outcome.bind (Guarded.safe_shift (by omega)) fun _ _ => .pure trivial

theorem follows_bitmap (area : Area) :
    Follows (Capture.skip (bitmapSize area)) P (fun _ _ => True) (read (bitmap area)) := by
  simp only [bitmap, read_bind, read_guarded]
  refine (follows_take _).bind_after fun _ bytes size => ?_
  exact follows_draw (Draw.sat_guarded (safe_unpackBits size))

theorem sat_setShape (area : Area) (pixels : Array Rgba) (mask : Array Bool) :
    Draw.Sat Clean (fun _ => True) (setShape area pixels mask) := by
  rw [setShape]
  split
  · exact Draw.sat_setCursor _
  · exact Draw.sat_fail (clean_of nofun nofun)

omit [StreamDecoder] in
theorem bitmapSize_eq_zero {area : Area} (h : area.pixels = 0) : bitmapSize area = 0 := by
  rcases Nat.mul_eq_zero.mp h with width | height
  · rw [bitmapSize, width, Nat.zero_mul]
  · rw [bitmapSize, height, Nat.mul_zero]

theorem follows_render (style : Style) (area : Area) :
    Follows (capture area style.format) Clean (fun _ _ => True) (render style area) := by
  rw [capture, render]
  split
  · rename_i none
    rw [none, bitmapSize_eq_zero none, Nat.zero_mul]
    exact .of_skip_zero (follows_draw (Draw.sat_setCursor _))
  · refine .skip_bind (follows_take _) fun pixels _ => ?_
    refine (follows_bitmap area).bind_after fun _ mask _ => ?_
    exact follows_draw (sat_setShape _ _ _)

theorem follows_twoColors : Follows (Capture.skip 6) P (fun _ _ => True) (read twoColors) := by
  simp only [twoColors, read_bind, read_guarded]
  refine (follows_take 6).bind_after fun _ bytes six => ?_
  have color (i : Nat) (h : i < 4) : Safe (fun _ => True) (do
      return (⟨← Guarded.get bytes.toArray i, ← Guarded.get bytes.toArray (i + 1),
        ← Guarded.get bytes.toArray (i + 2), 255⟩ : Rgba)) := by
    have level {j : Nat} (hj : j < 6) : Safe (fun _ => True) (Guarded.get bytes.toArray j) :=
      (Guarded.safe_get (by simpa [six] using hj)).forget
    refine Outcome.bind (level (by omega)) fun red _ => ?_
    refine Outcome.bind (level (by omega)) fun green _ => ?_
    exact Outcome.bind (level (by omega)) fun blue _ => .pure trivial
  refine follows_draw (Draw.sat_guarded ?_)
  refine Outcome.bind (color 0 (by omega)) fun foreground _ => ?_
  exact Outcome.bind (color 3 (by omega)) fun background _ => .pure trivial

theorem follows_renderTwoColor (area : Area) :
    Follows (captureTwoColor area) Clean (fun _ _ => True) (renderTwoColor area) := by
  rw [captureTwoColor, renderTwoColor]
  split
  · exact follows_draw (Draw.sat_setCursor _)
  · rw [Nat.two_mul]
    refine .skip_bind follows_twoColors fun colors _ => ?_
    refine .skip_bind (follows_bitmap area) fun picture _ => ?_
    refine (follows_bitmap area).bind_after fun _ mask _ => ?_
    exact follows_draw (sat_setShape _ _ _)

theorem follows_renderAlpha (area : Area) :
    Follows (captureAlpha area) Clean (fun _ _ => True) (renderAlpha area) := by
  refine follows_i32.bind fun inner _ _ => ?_
  split
  · exact follows_captureFail
  · split
    · rename_i none
      rw [none, Nat.zero_mul]
      exact .of_skip_zero (follows_draw (Draw.sat_setCursor _))
    · refine (follows_take _).bind_after fun _ colors _ => ?_
      exact follows_draw (sat_setShape _ _ _)

end Cursor

end RemoteFramebuffer
