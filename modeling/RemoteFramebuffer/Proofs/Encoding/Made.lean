/-
# `RemoteFramebuffer.Proofs.Encoding.Made` — what drawing is made of

Whatever the data of a rectangle is, drawing it is a sequence of strokes on the canvas, with uses of
the streams between them; the data only decides which strokes these are.  `Made P d` says that
every stroke of `d` has the property `P`.  So what is to hold of drawing a rectangle has to be shown
of the strokes alone:

    a picture          fill, image and copy, all of them within the rectangle
    a cursor           a new shape or a new place for it
    a desktop's size   a canvas of a new size
    anything else      no stroke at all
-/
import RemoteFramebuffer.Encoding.Codec
import RemoteFramebuffer.Proofs.Encoding.Walks

namespace RemoteFramebuffer

/-- A change of the canvas that may be refused. -/
abbrev Stroke := Canvas → Except DrawError Unit × Canvas

variable [StreamDecoder] {α β : Type} {P : Stroke → Prop} {rect : Rect}

/-! ## Drawing -/

namespace Draw

/-- Made of strokes with the property and of uses of the streams. -/
inductive Made (P : Stroke → Prop) : {α : Type} → Draw α → Prop
  | ofExcept {α : Type} (result : Except DecodeError α) : Made P (ofExcept result)
  | inflate (use : Streams → Except DecodeError Bytes × Streams) : Made P (inflate use)
  | changeStreams (f : Streams → Streams) : Made P (changeStreams f)
  | paint {touch : Canvas → Guarded Unit} {change : Stroke} :
      P change → Made P (paint touch change)
  | bind {α β : Type} {d : Draw α} {f : α → Draw β} :
      Made P d → (∀ a, Made P (f a)) → Made P (d >>= f)
  | within {α : Type} {d : Draw α} (context : DecodeContext) :
      Made P d → Made P (within context d)

theorem made_pure (a : α) : Made P (pure a : Draw α) := .ofExcept (.ok a)

theorem made_fail (cause : DecodeCause) : Made P (fail cause : Draw α) :=
  .ofExcept (.error (DecodeError.of cause))

end Draw

/-- The property of the strokes that a picture is drawn with, wherever they cover nothing outside
the rectangle. -/
structure Strokes (P : Stroke → Prop) (rect : Rect) : Prop where
  fill : ∀ {target : Rect}, (∀ x y : Nat, target.Covers x y → rect.Covers x y) →
    ∀ color, P (·.fill target color)
  image : ∀ {target : Rect}, (∀ x y : Nat, target.Covers x y → rect.Covers x y) →
    ∀ pixels : Array Rgba, P (·.image target pixels 0)
  copy : ∀ offset, P (·.copy rect offset)

namespace Strokes

variable {target : Rect} (strokes : Strokes P rect)

include strokes

theorem made_fill (within : ∀ x y : Nat, target.Covers x y → rect.Covers x y) (color : Rgba) :
    (Draw.fill target color).Made P := .paint (strokes.fill within color)

theorem made_image (within : ∀ x y : Nat, target.Covers x y → rect.Covers x y)
    (pixels : Array Rgba) : (Draw.image target pixels).Made P :=
  .paint (strokes.image within pixels)

theorem made_copy (offset : Point) : (Draw.copy rect offset).Made P :=
  .paint (strokes.copy offset)

end Strokes

namespace Render

/-- Made of such strokes whatever the data is. -/
def Made (P : Stroke → Prop) (r : Render α) : Prop := ∀ data, Draw.Made P (r data)

theorem made_pure (a : α) : Made P (pure a : Render α) := fun _ => Draw.made_pure _

theorem made_read (p : Payload α) : Made P (read p) := fun data => .ofExcept (p data)

theorem made_draw {d : Draw α} (h : d.Made P) : Made P (draw d) := fun _ =>
  .bind h fun _ => Draw.made_pure _

theorem made_fail (cause : DecodeCause) : Made P (draw (Draw.fail cause) : Render α) :=
  made_draw (Draw.made_fail cause)

theorem made_guarded (g : Guarded α) : Made P (guarded g) := made_draw (.ofExcept _)

theorem made_get {f : Bytes → Render α} (h : ∀ data, Made P (f data)) : Made P (get >>= f) :=
  fun data => h data data

theorem made_whole {r : Render α} (h : Made P r) (data : Bytes) : (r.whole data).Made P :=
  .bind (h data) fun _ => Draw.made_pure _

namespace Made

theorem bind {r : Render α} {f : α → Render β} (hr : Made P r) (hf : ∀ a, Made P (f a)) :
    Made P (r >>= f) := fun data => .bind (hr data) fun out => hf out.1 out.2

theorem within {r : Render α} (h : Made P r) (context : DecodeContext) :
    Made P (Render.within context r) := fun data => .within context (h data)

end Made

theorem made_loop {loop : (left index : Nat) → Render Unit} {step : Nat → Render Unit}
    (none : ∀ index, loop 0 index = pure ())
    (some : ∀ left index, loop (left + 1) index = (do step index; loop left (index + 1)))
    (h : ∀ index, Made P (step index)) (left index : Nat) : Made P (loop left index) := by
  induction left generalizing index with
  | zero =>
      rw [none]
      exact made_pure ()
  | succ left ih =>
      rw [some]
      exact (h index).bind fun _ => ih (index + 1)

theorem made_foldTiles {σ : Type}
    (small : rect.width < 0x80000000 ∧ rect.height < 0x80000000) (side : Nat)
    {body : σ → Rect → Render σ}
    (h : ∀ s tile, (∀ x y : Nat, tile.Covers x y → rect.Covers x y) → Made P (body s tile))
    (s : σ) : Made P (foldTiles rect side body s) := by
  refine Rect.foldTiles_of_closed made_pure Made.bind (fun s index inside => ?_) s
  refine (made_guarded _).bind fun _ => h s _ fun x y covered => ?_
  exact ((Rect.covers_tileAt small inside x y).mp covered).1

end Render

open Render

/-! ## Sub-rectangles -/

omit [StreamDecoder] in
/-- A block that starts behind another's corner and ends before the other does covers no more. -/
theorem Rect.covers_of_fits {outer : Rect} {dx dy width height : Nat}
    (fits : ¬ ((outer.width : Int) < dx + width ∨ (outer.height : Int) < dy + height)) {x y : Int}
    (h : (⟨outer.x + dx, outer.y + dy, width, height⟩ : Rect).Covers x y) : outer.Covers x y := by
  rw [Rect.covers_mk] at h
  unfold Rect.Covers
  omega

namespace Subrects

theorem made_place (kind : Subrects) {f : Rect → Render α}
    (h : ∀ x y width height : Nat, Made P (f ⟨x, y, width, height⟩)) :
    Made P (read kind.place >>= f) := by
  simp only [place, read_bind, read_pure, bind_assoc, pure_bind]
  refine (made_read _).bind fun x => (made_read _).bind fun y => ?_
  exact (made_read _).bind fun width => (made_read _).bind fun height => h x y width height

variable (kind : Subrects) (style : Style) {area : Area} (strokes : Strokes P area.rect)

include strokes

theorem made_renderOne (index : Nat) : Made P (kind.renderOne style area index) := by
  refine (made_read _).bind fun pixel => made_place kind fun x y width height => ?_
  split
  · exact made_fail _
  · rename_i fits
    refine made_draw (strokes.made_fill (fun _ _ covered => ?_) _)
    have inside : (⟨area.rect.x + x, area.rect.y + y, width, height⟩ : Rect).Covers _ _ := covered
    exact Rect.covers_of_fits fits inside

theorem made_render : Made P (kind.render style area) := by
  refine (made_read _).bind fun count => (made_read _).bind fun background => ?_
  refine (made_draw (strokes.made_fill (fun _ _ => id) _)).bind fun _ => ?_
  exact made_loop (fun _ => rfl) (fun _ _ => rfl) (made_renderOne kind style strokes) count 0

end Subrects

namespace Hextile

theorem made_place {f : Rect → Render α}
    (h : ∀ x y width height : Nat, Made P (f ⟨x, y, width, height⟩)) :
    Made P (read place >>= f) := by
  simp only [place, read_bind, read_pure, bind_assoc, pure_bind]
  exact (made_read _).bind fun corner => (made_read _).bind fun extent => h _ _ _ _

variable (style : Style) {area : Area} {tile : Rect} (strokes : Strokes P area.rect)

include strokes

theorem made_renderSubrect (inside : ∀ x y : Nat, tile.Covers x y → area.rect.Covers x y)
    (colored : Bool) (foreground : Option Rgba) (index : Nat) :
    Made P (renderSubrect style tile colored foreground index) := by
  refine (made_read _).bind fun color => made_place fun x y width height => ?_
  split
  · exact made_fail _
  · rename_i fits
    refine made_draw (.within _ (strokes.made_fill (fun _ _ covered => inside _ _ ?_) _))
    exact Rect.covers_of_fits fits covered

theorem made_renderTile (inside : ∀ x y : Nat, tile.Covers x y → area.rect.Covers x y)
    (carried : Carried) : Made P (renderTile style carried tile) := by
  refine (made_read _).bind fun flags => ?_
  dsimp only
  split
  · refine (made_read _).bind fun pixels => ?_
    exact (made_draw (strokes.made_image inside _)).bind fun _ => made_pure _
  · refine (made_read _).bind fun background => ?_
    cases background with
    | none => exact made_fail _
    | some background =>
        refine (made_draw (strokes.made_fill inside background)).bind fun _ => ?_
        refine (made_read _).bind fun foreground => ?_
        split
        · refine (made_read _).bind fun count => ?_
          refine Made.bind ?_ fun _ => made_pure _
          exact made_loop (fun _ => rfl) (fun _ _ => rfl)
            (made_renderSubrect style strokes inside _ _) _ 0
        · exact made_pure _

theorem made_render : Made P (render style area) :=
  (made_foldTiles area.extent_lt tileSize
    (fun carried _ inside => made_renderTile style strokes inside carried) _).bind fun _ =>
      made_pure ()

end Hextile

/-! ## Pixels, inflated and not -/

section

variable (style : Style) {area : Area} (strokes : Strokes P area.rect)

include strokes

theorem Raw.made_render : Made P (Raw.render style area) := by
  refine made_get fun data => ?_
  dsimp only
  split
  · exact made_fail _
  split
  · exact made_pure ()
  · exact made_draw (strokes.made_image (fun _ _ => id) _)

theorem Zlib.made_render : Made P (Zlib.render style area) := by
  refine (made_read _).bind fun compressed => ?_
  refine (made_draw (.inflate _)).bind fun pixels => ?_
  split
  · exact made_pure ()
  · refine (made_guarded _).bind fun _ => ?_
    exact made_draw (strokes.made_image (fun _ _ => id) _)

theorem CopyRect.made_render : Made P (CopyRect.render area) := by
  refine (made_read _).bind fun x => (made_read _).bind fun y => ?_
  split
  · exact made_pure ()
  · exact made_draw (strokes.made_copy _)

end

namespace Zrle

theorem made_renderTile (pixel : Payload Rgba) (strokes : Strokes P rect) {tile : Rect}
    (inside : ∀ x y : Nat, tile.Covers x y → rect.Covers x y) :
    Made P (renderTile pixel tile) := by
  refine Made.within ?_ _
  refine (made_read _).bind fun shown => made_draw ?_
  cases shown with
  | solid color => exact strokes.made_fill inside color
  | pixels colors => exact strokes.made_image inside colors

variable (style : Style) {area : Area} (strokes : Strokes P area.rect)

include strokes

theorem made_renderTiles : Made P (renderTiles style area) := by
  refine (made_foldTiles area.extent_lt tileSize
    (fun _ _ inside => made_renderTile _ strokes inside) ()).bind fun _ => made_get fun rest => ?_
  split
  · exact made_pure ()
  · exact made_fail _

theorem made_render : Made P (render style area) := by
  refine (made_read _).bind fun compressed => made_draw ?_
  exact .bind (.inflate _) fun inflated => made_whole (made_renderTiles style strokes) inflated

end Zrle

namespace Tight

theorem made_readData (stream : Fin 4) (size : Nat) : Made P (readData stream size) := by
  unfold readData
  split
  · exact made_read _
  · refine (made_read _).bind fun length => (made_read _).bind fun compressed => ?_
    refine (made_draw (.inflate _)).bind fun inflated => ?_
    exact (made_guarded _).bind fun _ => made_pure _

variable (style : Style) {area : Area} (strokes : Strokes P area.rect)

include strokes

theorem made_renderBasic (stream : Fin 4) (explicit : Bool) :
    Made P (renderBasic style area stream explicit) := by
  refine (made_read _).bind fun filter => (made_read _).bind fun palette => ?_
  refine (made_readData _ _).bind fun data => ?_
  split
  · exact made_pure ()
  · exact made_draw (.bind (.ofExcept _) fun colors => strokes.made_image (fun _ _ => id) colors)

theorem made_renderFill : Made P (renderFill style area) := by
  refine (made_read _).bind fun pixel => ?_
  split
  · exact made_pure ()
  · exact made_draw (strokes.made_fill (fun _ _ => id) _)

theorem made_renderKind (control : Control) : Made P (renderKind style area control) := by
  cases control with
  | fill => exact made_renderFill style strokes
  | jpeg | png => exact (made_read _).bind fun _ => made_pure ()
  | basic stream explicit | reserved stream explicit =>
      exact made_renderBasic style strokes stream explicit

theorem made_render : Made P (render style area) := by
  refine (made_read _).bind fun control => ?_
  exact (made_draw (.changeStreams _)).bind fun _ => made_renderKind style strokes _

end Tight

/-! ## Cursors -/

/-- The property of the strokes that a cursor is changed with.  A shape is no larger than its
rectangle may be. -/
structure CursorStrokes (P : Stroke → Prop) : Prop where
  setCursor : ∀ shape : Option CursorShape,
    (∀ s, shape = some s → s.width ≤ 65535 ∧ s.height ≤ 65535) →
      P fun canvas => (.ok (), canvas.setCursor shape)
  moveCursor : ∀ position, P fun canvas => (.ok (), canvas.moveCursor position)

theorem CursorStrokes.made_setCursor (strokes : CursorStrokes P) (shape : Option CursorShape)
    (small : ∀ s, shape = some s → s.width ≤ 65535 ∧ s.height ≤ 65535) :
    (Draw.setCursor shape).Made P := by
  rw [Draw.setCursor, Draw.change]
  exact .paint (strokes.setCursor shape small)

theorem CursorStrokes.made_moveCursor (strokes : CursorStrokes P) (position : Point) :
    (Draw.moveCursor position).Made P := by
  rw [Draw.moveCursor, Draw.change]
  exact .paint (strokes.moveCursor position)

namespace Cursor

variable (style : Style) (area : Area) (strokes : CursorStrokes P)

include strokes

theorem made_remove : (remove).Made P := strokes.made_setCursor none nofun

theorem made_setShape (pixels : Array Rgba) (mask : Array Bool) :
    (setShape area pixels mask).Made P := by
  rw [setShape, CursorShape.make]
  split
  · rename_i shape stated
    refine strokes.made_setCursor _ ?_
    rintro _ ⟨⟩
    split at stated
    · cases stated
      exact ⟨Nat.le_of_lt_succ area.width.toNat_lt, Nat.le_of_lt_succ area.height.toNat_lt⟩
    · cases stated
  · exact Draw.made_fail _

theorem made_render : Made P (render style area) := by
  unfold render
  split
  · exact made_draw (made_remove strokes)
  · refine (made_read _).bind fun pixels => (made_read _).bind fun mask => ?_
    exact made_draw (made_setShape area strokes _ mask)

theorem made_renderTwoColor : Made P (renderTwoColor area) := by
  unfold renderTwoColor
  split
  · exact made_draw (made_remove strokes)
  · refine (made_read _).bind fun colors => (made_read _).bind fun picture => ?_
    exact (made_read _).bind fun mask => made_draw (made_setShape area strokes _ mask)

theorem made_renderAlpha : Made P (renderAlpha area) := by
  refine (made_read _).bind fun inner => ?_
  split
  · exact made_draw (made_remove strokes)
  · exact (made_read _).bind fun colors => made_draw (made_setShape area strokes _ _)

end Cursor

/-! ## Every encoding -/

namespace Codec

/-- The encodings of pictures: their data says what the pixels of its rectangle are. -/
def pictures : List Encoding :=
  [.raw, .copyRect, .rre, .coRre, .hextile, .zlib, .zrle, .tight, .tightPng]

theorem made_renderPayload_of_picture {encoding : Encoding} (picture : encoding ∈ pictures)
    (style : Style) {area : Area} (strokes : Strokes P area.rect) :
    Render.Made P (renderPayload encoding style area) := by
  cases encoding with
  | raw => exact Raw.made_render style strokes
  | copyRect => exact CopyRect.made_render strokes
  | rre | coRre => exact Subrects.made_render _ style strokes
  | hextile => exact Hextile.made_render style strokes
  | zlib => exact Zlib.made_render style strokes
  | tight | tightPng => exact Tight.made_render style strokes
  | zrle => exact Zrle.made_render style strokes
  | _ => simp [pictures] at picture

/-- Drawing the data of a rectangle, whatever its encoding: only that of a desktop's size changes
the size of the canvas. -/
theorem made_render (c : Codec) (style : Style) (area : Area) (strokes : Strokes P area.rect)
    (cursors : CursorStrokes P)
    (resize : c.encoding = .desktopSize ∨ c.encoding = .extendedDesktopSize →
      P fun canvas => (.ok (), canvas.resize area.width.toNat area.height.toNat)) :
    (c.render style area).Made P := by
  have resized (h : c.encoding = .desktopSize ∨ c.encoding = .extendedDesktopSize) :
      (Draw.resize area.width.toNat area.height.toNat).Made P := by
    rw [Draw.resize, Draw.change]
    exact .paint (resize h)
  obtain ⟨encoding, payload⟩ := c
  refine .within _ (made_whole ?_ payload)
  cases encoding with
  | cursor => exact Cursor.made_render style area cursors
  | xCursor => exact Cursor.made_renderTwoColor area cursors
  | cursorWithAlpha => exact Cursor.made_renderAlpha area cursors
  | pointerPos => exact made_draw (cursors.made_moveCursor _)
  | desktopSize => exact made_draw (resized (.inl rfl))
  | extendedDesktopSize => exact made_draw (resized (.inr rfl))
  | raw | copyRect | rre | coRre | hextile | zlib | zrle | tight | tightPng =>
      exact made_renderPayload_of_picture (by simp [pictures]) style strokes
  | _ => exact made_pure ()

end Codec

end RemoteFramebuffer
