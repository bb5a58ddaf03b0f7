/-
# `RemoteFramebuffer.Proofs.Canvas.Picture` — what a canvas shows with its cursor hidden

The picture of a canvas is its raster without the cursor.  Hiding the cursor makes it visible,
and a drawing operation, which hides the cursor first, acts on it alone:

    check (picture c) = ok       picture (c.draw area check op) = op (picture c)
    check (picture c) = error    picture (c.draw area check op) = picture c

The shape and the position of the cursor stay as they are, and so does the size.
-/
import RemoteFramebuffer.Proofs.Canvas.Access
import RemoteFramebuffer.Proofs.Canvas.Overlay

namespace RemoteFramebuffer

namespace Canvas

/-- The raster as it is with the cursor hidden. -/
def picture (c : Canvas) : Raster := c.hideCursor.raster

section

variable (c : Canvas) (rect : Rect)

@[simp] theorem position_markDirty : (c.markDirty rect).position = c.position := by
  unfold markDirty
  split <;> rfl

@[simp] theorem position_hideCursor : c.hideCursor.position = c.position := by
  unfold hideCursor
  split
  · rfl
  · split <;> simp

@[simp] theorem width_picture : c.picture.width = c.raster.width := c.width_hideCursor

@[simp] theorem height_picture : c.picture.height = c.raster.height := c.height_hideCursor

@[simp] theorem holds_picture : c.picture.holds rect = c.raster.holds rect := by
  simp only [Raster.holds, width_picture, height_picture]

variable {c}

theorem picture_of_hidden (h : c.saved = none) : c.picture = c.raster := by
  unfold picture hideCursor
  rw [h]

variable (c)

@[simp] theorem picture_hideCursor : c.hideCursor.picture = c.picture :=
  picture_of_hidden c.saved_hideCursor

/-- A cursor of another shape hides the same picture. -/
@[simp] theorem picture_setCursor (shape : Option CursorShape) :
    (c.setCursor shape).picture = c.picture := by
  have hidden : Overlaid c.picture { c.hideCursor with cursor := shape } :=
    .hidden c.saved_hideCursor rfl
  exact hidden.showCursor.raster_hideCursor

@[simp] theorem cursor_setCursor (shape : Option CursorShape) : (c.setCursor shape).cursor = shape :=
  cursor_showCursor _

end

/-! ## What stays -/

/-- Only pixels of `rect` differ in the picture, and unless the cursor is hidden nothing
differs at all. -/
structure ChangesOnly (rect : Rect) (c c' : Canvas) : Prop where
  width : c'.raster.width = c.raster.width
  height : c'.raster.height = c.raster.height
  cursor : c'.cursor = c.cursor
  position : c'.position = c.position
  hidden : c' = c ∨ c'.saved = none
  pixels : ∀ x y : Nat, ¬ rect.Covers x y → c'.picture.pixel? x y = c.picture.pixel? x y

namespace ChangesOnly

variable {rect : Rect} {c c' c'' : Canvas}

theorem refl (rect : Rect) (c : Canvas) : ChangesOnly rect c c :=
  ⟨rfl, rfl, rfl, rfl, .inl rfl, fun _ _ _ => rfl⟩

theorem trans (h : ChangesOnly rect c c') (h' : ChangesOnly rect c' c'') :
    ChangesOnly rect c c'' where
  width := h'.width.trans h.width
  height := h'.height.trans h.height
  cursor := h'.cursor.trans h.cursor
  position := h'.position.trans h.position
  hidden := by
    rcases h'.hidden with rfl | hidden
    · exact h.hidden
    · exact .inr hidden
  pixels x y outside := (h'.pixels x y outside).trans (h.pixels x y outside)

end ChangesOnly

/-! ## Drawing -/

section

variable {c : Canvas} {area : Rect} {check : Raster → Except DrawError Unit} {op : Raster → Raster}

theorem draw_of_ok (ok : check c.picture = .ok ()) :
    c.draw area check op = (.ok (), markDirty { c.hideCursor with raster := op c.picture } area) := by
  unfold draw
  dsimp only
  rw [show check c.hideCursor.raster = _ from ok]
  rfl

/-- A drawing operation that is refused hides the cursor and does no more. -/
theorem draw_of_error {e : DrawError} (refused : check c.picture = .error e) :
    c.draw area check op = (.error e, c.hideCursor) := by
  unfold draw
  dsimp only
  rw [show check c.hideCursor.raster = _ from refused]

/-- **What drawing changes.**  If the operation keeps to `rect` whenever it passes its check, so
does the canvas, refused or not. -/
theorem changesOnly_draw {rect : Rect}
    (size : ∀ r, (op r).width = r.width ∧ (op r).height = r.height)
    (keeps : ∀ {r}, check r = .ok () → ∀ x y : Nat, ¬ rect.Covers x y →
      (op r).pixel? x y = r.pixel? x y) (c : Canvas) :
    ChangesOnly rect c (c.draw area check op).2 := by
  cases ok : check c.picture with
  | error e =>
      rw [draw_of_error ok]
      exact ⟨c.width_hideCursor, c.height_hideCursor, c.cursor_hideCursor, c.position_hideCursor,
        .inr c.saved_hideCursor, fun x y _ => by rw [picture_hideCursor]⟩
  | ok =>
      rw [draw_of_ok ok]
      have hidden : (markDirty { c.hideCursor with raster := op c.picture } area).saved = none := by
        simp
      refine ⟨?_, ?_, by simp, by simp, .inr hidden, fun x y outside => ?_⟩
      · simp [(size c.picture).1]
      · simp [(size c.picture).2]
      · rw [picture_of_hidden hidden, raster_markDirty]
        exact keeps ok x y outside

end

end Canvas

/-! ## Layers of color -/

/-- Colors laid over a raster; where there is none the raster shows. -/
abbrev Layer := Nat → Nat → Option Rgba

namespace Layer

def empty : Layer := fun _ _ => none

def paint (layer : Layer) (rect : Rect) (color : Nat → Nat → Rgba) : Layer := fun x y =>
  if rect.Covers x y then some (color x y) else layer x y

theorem paint_congr (layer : Layer) {rect : Rect} {color color' : Nat → Nat → Rgba}
    (h : ∀ x y : Nat, rect.Covers x y → color x y = color' x y) :
    layer.paint rect color = layer.paint rect color' := by
  funext x y
  unfold paint
  by_cases covered : rect.Covers x y
  · rw [if_pos covered, if_pos covered, h x y covered]
  · rw [if_neg covered, if_neg covered]

theorem paint_paint (layer : Layer) {rect part : Rect} {color color' : Nat → Nat → Rgba}
    (within : ∀ x y : Nat, part.Covers x y → rect.Covers x y) :
    (layer.paint rect color).paint part color' =
      layer.paint rect fun x y => if part.Covers x y then color' x y else color x y := by
  funext x y
  unfold paint
  dsimp only
  by_cases covered : part.Covers x y
  · rw [if_pos covered, if_pos (within x y covered), if_pos covered]
  · rw [if_neg covered, if_neg covered]

/-- The colors of the first `count` tiles of a rectangle. -/
def tiled (rect : Rect) (side : Nat) (color : Nat → Nat → Rgba) (count : Nat) : Layer := fun x y =>
  if rect.Covers x y ∧ rect.tileIndex side side x y < count then some (color x y) else none

variable (rect : Rect) (side : Nat) (color : Nat → Nat → Rgba)

theorem tiled_zero : tiled rect side color 0 = empty := by
  funext x y
  exact if_neg fun h => Nat.not_lt_zero _ h.2

theorem paint_tiled {rect : Rect} (small : rect.width < 0x80000000 ∧ rect.height < 0x80000000)
    {side k : Nat} (h : k < rect.tileCount side side) :
    (tiled rect side color k).paint (rect.tileAt side side k) color =
      tiled rect side color (k + 1) := by
  funext x y
  have covers := Rect.covers_tileAt small h x y
  unfold paint tiled
  grind

theorem tiled_tileCount {x y : Nat} (h : rect.Covers x y) :
    tiled rect side color (rect.tileCount side side) x y = some (color x y) :=
  if_pos ⟨h, Rect.tileIndex_lt h side side⟩

end Layer

namespace Canvas

/-- The picture is `start` under a layer of colors, and once there are any the cursor is
hidden. -/
structure Layered (start : Raster) (layer : Layer) (c : Canvas) : Prop where
  tracked : c.Tracked
  width : c.raster.width = start.width
  height : c.raster.height = start.height
  hidden : ∀ {x y color}, layer x y = some color → c.saved = none
  pixels : ∀ x y, c.picture.pixel? x y = (start.pixel? x y).map (layer x y).getD

namespace Layered

variable {start : Raster} {layer : Layer} {c : Canvas}

theorem refl (tracked : c.Tracked) : c.Layered c.picture .empty where
  tracked := tracked
  width := c.width_picture.symm
  height := c.height_picture.symm
  hidden := nofun
  pixels _ _ := Option.map_id'.symm

theorem holds_picture (h : c.Layered start layer) (rect : Rect) :
    c.picture.holds rect = start.holds rect := by
  simp only [Raster.holds, width_picture, height_picture, h.width, h.height]

theorem pixel?_of_some (h : c.Layered start layer) {x y : Nat} {color : Rgba}
    (inside : x < start.width ∧ y < start.height) (laid : layer x y = some color) :
    c.raster.pixel? x y = some color := by
  obtain ⟨old, was⟩ := start.pixel?_eq_some inside.1 inside.2
  rw [← picture_of_hidden (h.hidden laid), h.pixels, was, laid]
  rfl

/-- A drawing operation that is not refused and gives a block its colors lays these over it. -/
theorem draw (h : c.Layered start layer) {area rect : Rect}
    {check : Raster → Except DrawError Unit} {op : Raster → Raster} {color : Nat → Nat → Rgba}
    (ok : check c.picture = .ok ())
    (size : (op c.picture).width = c.picture.width ∧ (op c.picture).height = c.picture.height)
    (drawn : ∀ x y, (op c.picture).pixel? x y =
      if rect.Covers x y then (c.picture.pixel? x y).map fun _ => color x y
      else c.picture.pixel? x y) :
    ∃ c', c.draw area check op = (.ok (), c') ∧ c'.Layered start (layer.paint rect color) := by
  have hidden : (markDirty { c.hideCursor with raster := op c.picture } area).saved = none := by
    simp
  refine ⟨_, draw_of_ok ok, ?_, ?_, ?_, fun _ => hidden, fun x y => ?_⟩
  · have tracked := h.tracked
    unfold Tracked at tracked ⊢
    simp only [size_dirty_markDirty, size_dirty_hideCursor, raster_markDirty, size.1, size.2,
      width_picture, height_picture, tracked]
  · simp [size.1, h.width]
  · simp [size.2, h.height]
  · rw [picture_of_hidden hidden, raster_markDirty]
    show (op c.picture).pixel? x y = _
    rw [drawn, h.pixels, Layer.paint]
    by_cases covered : rect.Covers x y
    · rw [if_pos covered, if_pos covered, Option.map_map]
      rfl
    · rw [if_neg covered, if_neg covered]

theorem fill (h : c.Layered start layer) {rect : Rect} (held : start.holds rect = true)
    (color : Rgba) :
    ∃ c', c.fill rect color = (.ok (), c') ∧ c'.Layered start (layer.paint rect fun _ _ => color) := by
  rw [← h.holds_picture] at held
  exact h.draw (Raster.check_eq_ok.mpr held) ⟨Raster.width_paint _ _ _, Raster.height_paint _ _ _⟩
    (Raster.pixel?_recolor _ held _)

theorem image (h : c.Layered start layer) {rect : Rect} (held : start.holds rect = true)
    (color : Nat → Nat → Rgba) :
    ∃ c', c.image rect (Raster.valuesOf rect color).toArray 0 = (.ok (), c') ∧
      c'.Layered start (layer.paint rect color) := by
  rw [← h.holds_picture] at held
  have enough := Raster.checkImage_block held
  refine h.draw ?_ ⟨Raster.width_overlay _ _ _ _, Raster.height_overlay _ _ _ _⟩ fun x y => ?_
  · rw [List.size_toArray, Raster.length_valuesOf, Rect.area, Nat.mul_comm rect.width]
    exact enough
  · rw [Raster.pixel?_overlay _ held]
    by_cases covered : rect.Covers x y
    · rw [if_pos covered, if_pos covered, List.getElem?_toArray,
        Raster.getElem?_valuesOf held color covered]
      rfl
    · rw [if_neg covered, if_neg covered]

end Layered

end Canvas

end RemoteFramebuffer
