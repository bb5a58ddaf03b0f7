/-
# `RemoteFramebuffer.Proofs.Encoding.Frame` — a rectangle is drawn within itself

## What is proved

Of every codec whose encoding draws a picture, every payload, however malformed, every style,
rectangle and scene, and whether drawing succeeds or not (`render_changesOnly`):

    a pixel of the picture outside the rectangle     is as it was
    the size of the canvas, the cursor's shape       are as they were
      and its position

The picture is the raster without the cursor.

## How it is proved

`StaysIn rect d` says that `d` changes no pixel of the picture outside `rect`, and neither the
size of the canvas nor its cursor, however it ends.  It asks nothing of the data: what a decoder
reads only decides where within the rectangle it draws, as every place is tested or clipped before
it is used.  So it is enough that each stroke within the rectangle stays there.

## What it is not

A statement about what is drawn inside.  Drawing that fails may have drawn a part of the rectangle.
-/
import RemoteFramebuffer.Deflate.Decoder
import RemoteFramebuffer.Proofs.Canvas.Picture
import RemoteFramebuffer.Proofs.Encoding.Made

namespace RemoteFramebuffer

variable {α β : Type} {rect : Rect}

section

variable [StreamDecoder]

/-! ## Drawing within a rectangle -/

/-- Refused or not, changes only pixels of `rect`. -/
def Stroke.StaysIn (rect : Rect) (change : Stroke) : Prop :=
  ∀ c : Canvas, c.ChangesOnly rect (change c).2

namespace Draw

/-- However it ends, changes only pixels of `rect`. -/
def StaysIn (rect : Rect) (d : Draw α) : Prop :=
  ∀ scene : Scene, scene.canvas.ChangesOnly rect (d scene).2.canvas

theorem staysIn_ofExcept (result : Except DecodeError α) : StaysIn rect (ofExcept result) :=
  fun scene => .refl rect scene.canvas

theorem staysIn_inflate (use : Streams → Except DecodeError Bytes × Streams) :
    StaysIn rect (inflate use) := fun scene => .refl rect scene.canvas

theorem staysIn_changeStreams (f : Streams → Streams) : StaysIn rect (changeStreams f) :=
  fun scene => .refl rect scene.canvas

namespace StaysIn

theorem bind {d : Draw α} {f : α → Draw β} (hd : StaysIn rect d) (hf : ∀ a, StaysIn rect (f a)) :
    StaysIn rect (d >>= f) := by
  intro scene
  show scene.canvas.ChangesOnly rect (ExceptT.bindCont f (d scene).1 (d scene).2).2.canvas
  cases (d scene).1 with
  | error e => exact hd scene
  | ok a => exact (hd scene).trans (hf a _)

theorem within {d : Draw α} (h : StaysIn rect d) (context : DecodeContext) :
    StaysIn rect (Draw.within context d) := h

end StaysIn

theorem staysIn_paint {touch : Canvas → Guarded Unit} {change : Stroke}
    (h : change.StaysIn rect) : StaysIn rect (paint touch change) := by
  rintro ⟨canvas, streams⟩
  rw [paint]
  cases touch canvas with
  | error fault => exact .refl rect canvas
  | ok => exact h canvas

/-- Strokes that stay within the rectangle make up drawing that does. -/
theorem Made.staysIn {d : Draw α} (h : Made (Stroke.StaysIn rect) d) : StaysIn rect d := by
  induction h with
  | ofExcept result => exact staysIn_ofExcept result
  | inflate use => exact staysIn_inflate use
  | changeStreams f => exact staysIn_changeStreams f
  | paint stays => exact staysIn_paint stays
  | bind _ _ first second => exact first.bind second
  | within context _ ih => exact ih.within context

end Draw

omit [StreamDecoder] in
theorem strokes_staysIn (rect : Rect) : Strokes (Stroke.StaysIn rect) rect where
  fill within color := Canvas.changesOnly_draw
    (fun r => ⟨r.width_paint _ _, r.height_paint _ _⟩)
    fun ok x y outside => Raster.paint_of_not_covers _ (Raster.check_eq_ok.mp ok) color
      fun inside => outside (within x y inside)
  image within pixels := Canvas.changesOnly_draw
    (fun r => ⟨r.width_overlay _ _ _, r.height_overlay _ _ _⟩)
    fun ok x y outside => Raster.overlay_of_not_covers _ (Raster.holds_of_checkImage ok) pixels
      fun inside => outside (within x y inside)
  copy offset := Canvas.changesOnly_draw
    (fun r => ⟨r.width_copyBlock _ _, r.height_copyBlock _ _⟩)
    fun ok _ _ outside =>
      Raster.copyBlock_of_not_covers _ (Raster.holds_of_checkCopy ok) offset outside

namespace Render

/-- However it ends and whatever the data is, changes only pixels of `rect`. -/
def StaysIn (rect : Rect) (r : Render α) : Prop := ∀ data, Draw.StaysIn rect (r data)

theorem Made.staysIn {r : Render α} (h : Made (Stroke.StaysIn rect) r) : StaysIn rect r :=
  fun data => (h data).staysIn

theorem staysIn_whole {r : Render α} (h : StaysIn rect r) (data : Bytes) :
    Draw.StaysIn rect (r.whole data) := (h data).bind fun _ => Draw.staysIn_ofExcept (.ok _)

end Render

open Render

theorem Hextile.staysIn_render (style : Style) (area : Area) :
    StaysIn area.rect (render style area) := (made_render style (strokes_staysIn _)).staysIn

theorem Zrle.staysIn_render (style : Style) (area : Area) :
    StaysIn area.rect (render style area) := (made_render style (strokes_staysIn _)).staysIn

namespace Codec

theorem staysIn_renderPayload {encoding : Encoding} (picture : encoding ∈ pictures) (style : Style)
    (area : Area) : StaysIn area.rect (renderPayload encoding style area) :=
  (made_renderPayload_of_picture picture style (strokes_staysIn _)).staysIn

/-- **A rectangle is drawn within itself.**  Whatever the data of a picture is, with any style and
state of the streams, on any canvas, and however it ends, drawing it changes only pixels of its
rectangle.  The canvas keeps its size and its cursor's shape and position. -/
theorem render_changesOnly {c : Codec} (picture : c.encoding ∈ pictures) (style : Style)
    (area : Area) (scene : Scene) :
    scene.canvas.ChangesOnly area.rect (c.render style area scene).2.canvas :=
  ((staysIn_whole (staysIn_renderPayload picture style area) c.payload).within _) scene

end Codec

end

namespace Codec

/-- The second of two sub-rectangles does not fit, when the first has been drawn. -/
def secondOutside : Codec :=
  ⟨.coRre, [0, 0, 0, 2, 9, 0, 0, 0, 7, 0, 0, 0, 0, 0, 1, 1, 5, 0, 0, 0, 1, 0, 2, 1]⟩

theorem render_changesOnly_secondOutside :
    let after := secondOutside.render ⟨.rgb888, .black⟩ ⟨1, 1, 2, 1⟩
      ⟨(Canvas.make 4 3).setCursor (some Canvas.tip), Streams.fresh⟩
    secondOutside.encoding ∈ pictures ∧ after.1.isOk = false ∧
      after.2.canvas.picture.pixel? 1 1 = some ⟨0, 0, 7, 255⟩ ∧
      ((Canvas.make 4 3).setCursor (some Canvas.tip)).ChangesOnly (Area.mk 1 1 2 1).rect
        after.2.canvas := by
  intro after
  have picture : secondOutside.encoding ∈ pictures := by decide
  refine ⟨picture, by decide +kernel, by decide +kernel, ?_⟩
  exact render_changesOnly picture ⟨.rgb888, .black⟩ ⟨1, 1, 2, 1⟩
    ⟨(Canvas.make 4 3).setCursor (some Canvas.tip), Streams.fresh⟩

end Codec

end RemoteFramebuffer
