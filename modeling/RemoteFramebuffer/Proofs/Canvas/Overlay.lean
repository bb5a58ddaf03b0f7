/-
# `RemoteFramebuffer.Proofs.Canvas.Overlay` — the cursor is drawn over the picture, not into it

## What is proved

Of every size up to 65535 × 65535 and every list of calls that fit their types, let `c` be the canvas
after the calls on a fresh one, and `plain` the raster after the same calls on a black raster of that
size, which has no cursor (`overlay_invisible`).  Each call returns on the one what it returns on the
other, be it an error, and

    c.hideCursor.raster = plain
    c.saved = none      c.raster = plain
    c.saved = some _    c.raster is plain with the colors of `drawnAt` where it has any, which
                        are those of `colorAt` in a shape of 2 ^ 32 places at most

`colorAt` is told of the shape alone: the color of the pixel of the shape that lies there when the
hotspot is at the cursor's position, if the mask has that pixel.

## How it is proved

A canvas shows a plain raster if it is that raster, or that raster with the cursor drawn over
it and what the cursor covers kept aside (`Overlaid`):

    saved = none            raster = plain
    saved = some ⟨r, p⟩     raster = plain.overlay r (cursor over p),   p = plain.block r

Hiding the cursor puts `p` back and so gives `plain`.  Every call keeps the relation between a
canvas and what the same call makes of the plain raster (`Shows.step`), and so does a run of calls.

## What is asked of shapes

Where a shape is drawn, a place in it is a word of 32 bits (`drawnAt`).  In a shape of more places
than there are words, pixels share places and the wrong one may be drawn.  It is drawn within the
shape all the same, and what comes back when the cursor is hidden does not depend on what was drawn.
-/
import RemoteFramebuffer.Proofs.Canvas.Call
import RemoteFramebuffer.Proofs.Raster

namespace RemoteFramebuffer

/-! ## Blocks kept aside -/

namespace Raster

/-- The place of one pixel meets the raster if and only if it lies inside. -/
theorem meets_place_iff {r : Raster} (hw : r.width < 0x80000000) (hh : r.height < 0x80000000)
    {x y : Int} :
    (∃ common, r.bounds.intersect ⟨x, y, 1, 1⟩ = some common) ↔
      r.holds ⟨x, y, 1, 1⟩ = true := by
  constructor
  · rintro ⟨common, meets⟩
    have one : signed32 1 = 1 := signed32_of_lt (by decide)
    obtain ⟨⟨left, ltX, -⟩, top, ltY, -⟩ := Rect.intersect_eq_some.mp meets
    simp only [Rect.right, Rect.bottom, bounds, one, signed32_of_lt hw, signed32_of_lt hh] at *
    rw [holds_iff]
    dsimp only
    omega
  · intro held
    have place : (⟨x, y, 1, 1⟩ : Rect).Covers x y := by
      rw [Rect.covers_mk]
      omega
    have inside : r.bounds.Covers x y := by
      have held := holds_iff.mp held
      dsimp only at held
      rw [bounds, Rect.covers_mk]
      omega
    have small : 1 < 0x80000000 := by decide
    exact Rect.intersect_isSome_of_covers ⟨hw, hh⟩ ⟨small, small⟩ inside place

theorem recolorSlice?_place (r : Raster) (x y : Int) (color : Rgba) :
    r.recolorSlice? ⟨x, y, 1, 1⟩ (fun _ _ => color) =
      if r.holds ⟨x, y, 1, 1⟩ then some (r.paint ⟨x, y, 1, 1⟩ color) else none := by
  simp [recolorSlice?, Rect.isEmpty, paint, recolor, List.range_succ]

/-- A block put back where it was taken from undoes whatever was drawn on it. -/
theorem overlay_block (r : Raster) {rect : Rect} (h : r.holds rect = true) (drawn : Array Rgba) :
    (r.overlay rect drawn 0).overlay rect (r.block rect) 0 = r := by
  refine ext_pixel? (by simp) (by simp) fun x y hx hy => ?_
  simp only [width_overlay, height_overlay] at hx hy
  rw [pixel?_overlay _ (by simpa using h)]
  by_cases inside : rect.Covers x y
  · have held := holds_iff.mp h
    have covers := inside
    unfold Rect.Covers at covers
    obtain ⟨color, this⟩ := r.pixel?_eq_some hx hy
    obtain ⟨old, was⟩ :=
      (r.overlay rect drawn 0).pixel?_eq_some (x := x) (y := y) (by simpa) (by simpa)
    rw [if_pos inside, was, getElem?_block r h (by omega) (by omega),
      show rect.x.toNat + (x - rect.x.toNat) = x by omega,
      show rect.y.toNat + (y - rect.y.toNat) = y by omega, this]
    rfl
  · rw [if_neg inside, overlay_of_not_covers r h drawn inside]

theorem checkImage_block {r : Raster} {dest : Rect} (h : r.holds dest = true) :
    r.checkImage dest 0 (4 * (dest.height * dest.width)) = .ok () := by
  have enough (rows : 0 < dest.height) : sourceBytes dest.width dest.height (strideOf dest 0) =
      4 * (dest.height * dest.width) := by
    obtain ⟨above, eq⟩ : ∃ above, dest.height = above + 1 := ⟨dest.height - 1, by omega⟩
    show (dest.width * (dest.height - 1) + dest.width) * 4 = _
    rw [eq, Nat.add_sub_cancel, ← Nat.mul_succ, Nat.mul_comm dest.width, Nat.mul_comm _ 4]
  unfold checkImage check
  rw [if_pos h]
  show (if !dest.isEmpty then
    if _ < sourceBytes dest.width dest.height (strideOf dest 0) then _ else _ else _) = _
  by_cases none : dest.isEmpty
  · rw [none]
    rfl
  · have rows : 0 < dest.height := by
      simp only [Rect.isEmpty, Bool.or_eq_true, beq_iff_eq] at none
      omega
    rw [enough rows, if_neg (Nat.lt_irrefl _)]
    split <;> rfl

end Raster

/-! ## The cursor over a raster -/

namespace CursorShape

/-- Where the shape lies when its corner is at `origin`. -/
def areaAt (shape : CursorShape) (origin : Point) : Rect :=
  ⟨origin.x, origin.y, shape.width, shape.height⟩

/-- The color of a place, if the mask has it. -/
def color? (shape : CursorShape) (place : Nat) : Option Rgba :=
  if shape.mask[place]?.getD false then shape.pixels[place]? else none

/-- The color that the shape has for the pixel of column `x` and row `y` when its corner is at
`origin`; none where the mask is clear or the shape does not reach. -/
def colorAt (shape : CursorShape) (origin : Point) (x y : Int) : Option Rgba :=
  if (shape.areaAt origin).Covers x y then
    shape.color? ((y - origin.y).toNat * shape.width + (x - origin.x).toNat)
  else none

/-- The same with the place counted in a word, as it is where the shape is drawn. -/
def drawnAt (shape : CursorShape) (origin : Point) (x y : Int) : Option Rgba :=
  if (shape.areaAt origin).Covers x y then
    shape.color? (shape.place (x - origin.x).toNat (y - origin.y).toNat)
  else none

/-- Words do not wrap on the places of a shape if it has at most as many as there are words. -/
theorem drawnAt_eq {shape : CursorShape} (few : shape.width * shape.height ≤ 0x100000000)
    (origin : Point) (x y : Int) : shape.drawnAt origin x y = shape.colorAt origin x y := by
  unfold drawnAt colorAt
  split
  · rename_i covers
    rw [areaAt, Rect.covers_mk] at covers
    have column : (x - origin.x).toNat < shape.width := by omega
    have row : (y - origin.y).toNat < shape.height := by omega
    have inside := place_lt column row
    rw [place, Nat.mod_eq_of_lt (Nat.lt_of_lt_of_le inside few)]
  · rfl

end CursorShape

namespace Canvas

/-- Number `j * width + i` of the composed pixels is the shape's color of its place, or else the
one below. -/
theorem getElem?_compose {shape : CursorShape} {origin : Point} {visible : Rect}
    (under : Array Rgba) {i j : Nat} (hi : i < visible.width) (left : origin.x ≤ visible.x)
    (top : origin.y ≤ visible.y)
    (reaches : (shape.areaAt origin).Covers (visible.x + i) (visible.y + j)) :
    (compose shape (shape.areaAt origin) visible under)[j * visible.width + i]? =
      under[j * visible.width + i]?.map
        ((shape.drawnAt origin (visible.x + i) (visible.y + j)).getD ·) := by
  have column : (j * visible.width + i) % visible.width = i := by
    rw [Nat.mul_add_mod_self_right, Nat.mod_eq_of_lt hi]
  have row : (j * visible.width + i) / visible.width = j := by
    rw [Nat.mul_comm, Nat.mul_add_div (by omega), Nat.div_eq_of_lt hi, Nat.add_zero]
  have across : (visible.x + i - origin.x).toNat = (visible.x - origin.x).toNat + i := by omega
  have down : (visible.y + j - origin.y).toNat = (visible.y - origin.y).toNat + j := by omega
  rw [compose, Array.getElem?_mapIdx, CursorShape.drawnAt, if_pos reaches, CursorShape.color?]
  simp only [column, row, across, down, CursorShape.areaAt]
  refine congrArg (Option.map · _) (funext fun old => ?_)
  split <;> rfl

/-- **What a drawn cursor shows.**  A pixel has the shape's color where the shape has one, and
its own everywhere else. -/
theorem pixel?_compose {plain : Raster} {shape : CursorShape} {origin : Point} {visible : Rect}
    (sized : plain.bounds.IsWord) (word : (shape.areaAt origin).IsWord)
    (meets : plain.bounds.intersect (shape.areaAt origin) = some visible) (x y : Nat) :
    (plain.overlay visible
        (compose shape (shape.areaAt origin) visible (plain.block visible)) 0).pixel? x y =
      (plain.pixel? x y).map ((shape.drawnAt origin x y).getD ·) := by
  have held := Raster.holds_of_intersect meets
  have covers := Rect.covers_intersect sized word meets x y
  by_cases place : x < plain.width ∧ y < plain.height
  · rw [plain.bounds_covers] at covers
    by_cases inside : visible.Covers x y
    · obtain ⟨color, this⟩ := plain.pixel?_eq_some place.1 place.2
      obtain ⟨⟨left, -, -⟩, top, -, -⟩ := Rect.intersect_eq_some.mp meets
      have left_le : origin.x ≤ visible.x := left ▸ Int.le_max_right _ _
      have top_le : origin.y ≤ visible.y := top ▸ Int.le_max_right _ _
      have nonneg := Raster.holds_iff.mp held
      have bounds := inside
      unfold Rect.Covers at bounds
      have column : visible.x + ((x - visible.x.toNat : Nat) : Int) = x := by omega
      have row : visible.y + ((y - visible.y.toNat : Nat) : Int) = y := by omega
      have under := plain.getElem?_block held (i := x - visible.x.toNat)
        (j := y - visible.y.toNat) (by omega) (by omega)
      rw [show visible.x.toNat + (x - visible.x.toNat) = x by omega,
        show visible.y.toNat + (y - visible.y.toNat) = y by omega, this] at under
      have composed := getElem?_compose (plain.block visible) (i := x - visible.x.toNat)
        (j := y - visible.y.toNat) (by omega) left_le top_le
        (by rw [column, row]; exact (covers.mp inside).2)
      rw [column, row, under] at composed
      rw [Raster.pixel?_overlay plain held, if_pos inside, composed, this]
      rfl
    · have beyond : shape.drawnAt origin x y = none :=
        if_neg fun reaches => inside (covers.mpr ⟨place, reaches⟩)
      rw [Raster.overlay_of_not_covers plain held _ inside, beyond]
      simp
  · rw [Raster.pixel?_eq_none plain place, Raster.pixel?_eq_none _ (by simpa using place)]
    rfl

/-! ## Canvas and plain raster -/

/-- Where the corner of a shape is when its hotspot is at the cursor's position. -/
def cursorOrigin (c : Canvas) (shape : CursorShape) : Point :=
  ⟨c.position.x - shape.hotspot.x, c.position.y - shape.hotspot.y⟩

/-- The canvas shows `plain`, with its cursor over it if that is drawn. -/
inductive Overlaid (plain : Raster) (c : Canvas) : Prop
  | hidden : c.saved = none → c.raster = plain → Overlaid plain c
  | drawn {shape : CursorShape} {visible : Rect} : c.cursor = some shape →
      c.saved = some ⟨visible, plain.block visible⟩ →
      plain.bounds.intersect (shape.areaAt (c.cursorOrigin shape)) = some visible →
      c.raster = plain.overlay visible
        (compose shape (shape.areaAt (c.cursorOrigin shape)) visible (plain.block visible)) 0 →
      Overlaid plain c

/-- What holds between a canvas and the plain raster after the same calls. -/
structure Shows (c : Canvas) (plain : Raster) : Prop where
  width_le : plain.width ≤ 65535
  height_le : plain.height ≤ 65535
  word : ∀ shape, c.cursor = some shape → shape.width < 0x100000000 ∧ shape.height < 0x100000000
  overlaid : Overlaid plain c

variable {c : Canvas} {plain : Raster}

theorem Overlaid.bounds_eq (h : Overlaid plain c) : c.bounds = plain.bounds := by
  cases h with
  | hidden _ raster => rw [bounds, raster]
  | drawn _ _ _ raster =>
      rw [bounds, raster, Raster.bounds, Raster.bounds, Raster.width_overlay,
        Raster.height_overlay]

theorem Overlaid.of_dirty (h : Overlaid plain c) (dirty : Array Bool) :
    Overlaid plain { c with dirty } := by
  cases h with
  | hidden saved raster => exact .hidden saved raster
  | drawn cursor saved meets raster => exact .drawn cursor saved meets raster

theorem Overlaid.markDirty (h : Overlaid plain c) (rect : Rect) :
    Overlaid plain (c.markDirty rect) := by
  unfold Canvas.markDirty
  split
  · exact h
  · exact h.of_dirty _

/-! ## Hiding and showing -/

@[simp] theorem saved_hideCursor (c : Canvas) : c.hideCursor.saved = none := by
  unfold hideCursor
  split
  · assumption
  · split <;> simp

@[simp] theorem cursor_hideCursor (c : Canvas) : c.hideCursor.cursor = c.cursor := by
  unfold hideCursor
  split
  · rfl
  · split <;> simp

/-- **Hiding the cursor leaves the plain raster.** -/
theorem Overlaid.raster_hideCursor (h : Overlaid plain c) : c.hideCursor.raster = plain := by
  cases h with
  | hidden saved raster =>
      unfold hideCursor
      rw [saved]
      exact raster
  | @drawn shape visible cursor saved meets raster =>
      have held := Raster.holds_of_intersect meets
      unfold hideCursor
      rw [saved]
      dsimp only
      rw [raster, plain.size_block held, Raster.checkImage_block (by simpa using held)]
      show (Canvas.markDirty _ visible).raster = plain
      rw [raster_markDirty]
      exact plain.overlay_block held _

theorem Overlaid.hideCursor (h : Overlaid plain c) : Overlaid plain c.hideCursor :=
  .hidden c.saved_hideCursor h.raster_hideCursor

/-- Showing the cursor draws it over what is shown, unless it is drawn already. -/
theorem Overlaid.showCursor (h : Overlaid plain c) : Overlaid plain c.showCursor := by
  cases h with
  | drawn cursor saved meets raster =>
      have same : c.showCursor = c := by
        unfold Canvas.showCursor
        rw [saved]
      rw [same]
      exact .drawn cursor saved meets raster
  | hidden saved raster =>
      subst raster
      unfold Canvas.showCursor
      rw [saved]
      cases cursor : c.cursor with
      | none => exact .hidden saved rfl
      | some shape =>
          dsimp only
          split
          · exact .hidden saved rfl
          · rename_i visible meets
            refine Overlaid.markDirty ?_ visible
            exact .drawn rfl rfl meets rfl

@[simp] theorem cursor_showCursor (c : Canvas) : c.showCursor.cursor = c.cursor := by
  unfold showCursor
  split
  · dsimp only
    split <;> simp
  · rfl

/-! ## Every call keeps the relation -/

namespace Shows

/-- The relation is kept by what keeps the cursor's shape and what is shown. -/
theorem of_overlaid {c' : Canvas} (h : Shows c plain) (cursor : c'.cursor = c.cursor)
    (overlaid : Overlaid plain c') : Shows c' plain :=
  ⟨h.width_le, h.height_le, cursor ▸ h.word, overlaid⟩

theorem hideCursor (h : Shows c plain) : Shows c.hideCursor plain :=
  h.of_overlaid c.cursor_hideCursor h.overlaid.hideCursor

theorem showCursor (h : Shows c plain) : Shows c.showCursor plain :=
  h.of_overlaid c.cursor_showCursor h.overlaid.showCursor

/-- A drawing operation draws on the plain raster what it draws on the canvas. -/
theorem draw (h : Shows c plain) (area : Rect) {check : Raster → Except DrawError Unit}
    {op : Raster → Raster}
    (keeps : (op plain).width = plain.width ∧ (op plain).height = plain.height) :
    (c.draw area check op).1 = (Call.drawn plain (do check plain; return op plain)).1 ∧
      Shows (c.draw area check op).2 (Call.drawn plain (do check plain; return op plain)).2 := by
  unfold Canvas.draw
  dsimp only
  rw [h.overlaid.raster_hideCursor]
  cases check plain with
  | error e => exact ⟨rfl, h.hideCursor⟩
  | ok done =>
      refine ⟨rfl, ⟨keeps.1 ▸ h.width_le, keeps.2 ▸ h.height_le, ?_, ?_⟩⟩
      · simpa using h.word
      · refine Overlaid.markDirty ?_ area
        exact .hidden c.saved_hideCursor rfl

/-- Painting the place of a pixel recolors a slice of the plain raster, if there is one. -/
theorem paintPlace (h : Shows c plain) (x y : Int) (color : Rgba) :
    Shows (c.paintPlace ⟨x, y, 1, 1⟩ color)
      ((plain.recolorSlice? ⟨x, y, 1, 1⟩ fun _ _ => color).getD plain) := by
  have width_lt : plain.width < 0x80000000 := Nat.lt_of_le_of_lt h.width_le (by decide)
  have height_lt : plain.height < 0x80000000 := Nat.lt_of_le_of_lt h.height_le (by decide)
  have meets := Raster.meets_place_iff width_lt height_lt (x := x) (y := y)
  unfold Canvas.paintPlace
  rw [h.overlaid.bounds_eq, Raster.recolorSlice?_place]
  dsimp only
  split
  · rename_i none
    rw [if_neg (fun held => ?_)]
    · exact h
    · obtain ⟨common, some⟩ := meets.mpr held
      rw [none] at some
      cases some
  · rename_i common some
    rw [if_pos (meets.mp ⟨common, some⟩), h.overlaid.raster_hideCursor]
    refine ⟨?_, ?_, ?_, ?_⟩
    · simpa using h.width_le
    · simpa using h.height_le
    · simpa using h.word
    · refine Overlaid.markDirty ?_ _
      exact .hidden c.saved_hideCursor rfl

theorem resize (h : Shows c plain) {width height : Nat} (hw : width ≤ 65535)
    (hh : height ≤ 65535) : Shows (c.resize width height) (Raster.black width height) :=
  ⟨hw, hh, h.word, .hidden rfl rfl⟩

theorem setCursor (h : Shows c plain) {shape : Option CursorShape}
    (fits : ∀ s, shape = some s → s.width < 0x100000000 ∧ s.height < 0x100000000) :
    Shows (c.setCursor shape) plain := by
  refine showCursor ⟨h.width_le, h.height_le, fits, ?_⟩
  exact .hidden c.saved_hideCursor h.overlaid.raster_hideCursor

theorem moveCursor (h : Shows c plain) (position : Point) :
    Shows (c.moveCursor position) plain := by
  refine showCursor ⟨h.width_le, h.height_le, by simpa using h.word, ?_⟩
  exact .hidden c.saved_hideCursor h.overlaid.raster_hideCursor

/-- **One call.**  It returns the same on the canvas and on the plain raster, and afterwards the
canvas shows what the plain raster is. -/
theorem step (h : Shows c plain) {call : Call} (fits : call.Fits) :
    (Call.onCanvas c call).1 = (Call.onRaster plain call).1 ∧
      Shows (Call.onCanvas c call).2 (Call.onRaster plain call).2 := by
  cases call with
  | fill rect color => exact h.draw rect ⟨plain.width_paint _ _, plain.height_paint _ _⟩
  | copy dest offset => exact h.draw dest ⟨plain.width_copyBlock _ _, plain.height_copyBlock _ _⟩
  | image dest data stride =>
      exact h.draw dest ⟨plain.width_overlay _ _ _, plain.height_overlay _ _ _⟩
  | setPixel x y color =>
      rw [Call.onCanvas, Call.onRaster, Canvas.setPixel]
      refine ⟨rfl, ?_⟩
      -- the words are named, lest they be compared by computing them
      generalize signed32 x = column
      generalize signed32 y = row
      exact h.paintPlace column row color
  | resize width height =>
      obtain ⟨hw, hh⟩ := fits
      exact ⟨rfl, h.resize hw hh⟩
  | markDirty rect =>
      exact ⟨rfl, h.of_overlaid (c.cursor_markDirty rect) (h.overlaid.markDirty rect)⟩
  | takeDirty => exact ⟨rfl, h.of_overlaid rfl (h.overlaid.of_dirty _)⟩
  | setCursor shape =>
      refine ⟨rfl, h.setCursor fun s eq => ?_⟩
      subst eq
      exact fits
  | moveCursor position => exact ⟨rfl, h.moveCursor position⟩
  | hideCursor => exact ⟨rfl, h.hideCursor⟩
  | showCursor => exact ⟨rfl, h.showCursor⟩

theorem runAll {calls : List Call} (fits : ∀ call ∈ calls, call.Fits) :
    ∀ {c plain}, Shows c plain →
      (Call.runAll Call.onCanvas c calls).1 = (Call.runAll Call.onRaster plain calls).1 ∧
        Shows (Call.runAll Call.onCanvas c calls).2 (Call.runAll Call.onRaster plain calls).2 := by
  induction calls with
  | nil => exact fun h => ⟨rfl, h⟩
  | cons call calls ih =>
      intro c plain h
      obtain ⟨answer, shows⟩ := h.step (fits call (by simp))
      obtain ⟨answers, shows⟩ := ih (fun call mem => fits call (by simp [mem])) shows
      rw [Call.runAll_cons, Call.runAll_cons, answer, answers]
      exact ⟨rfl, shows⟩

theorem pixel?_of_saved (h : Shows c plain) {saved : SavedArea}
    (some_saved : c.saved = some saved) :
    ∃ shape, c.cursor = some shape ∧ ∀ x y,
      c.raster.pixel? x y =
        (plain.pixel? x y).map ((shape.drawnAt (c.cursorOrigin shape) x y).getD ·) := by
  cases h.overlaid with
  | hidden none _ =>
      rw [none] at some_saved
      cases some_saved
  | @drawn shape visible cursor _ meets raster =>
      have sized : plain.bounds.IsWord :=
        ⟨Nat.lt_of_le_of_lt h.width_le (by decide), Nat.lt_of_le_of_lt h.height_le (by decide)⟩
      refine ⟨shape, cursor, fun x y => ?_⟩
      rw [raster]
      exact pixel?_compose sized (h.word shape cursor) meets x y

end Shows

/-- A shape of two pixels, the second of them transparent. -/
def tip : CursorShape where
  width := 2
  height := 1
  hotspot := ⟨1, 0⟩
  pixels := #[⟨255, 255, 255, 255⟩, ⟨9, 9, 9, 255⟩]
  mask := #[true, false]
  size_pixels := rfl
  size_mask := rfl

/-- The shape half off the canvas, and a color painted under it after one that does not fit. -/
def tipAtEdge : List Call :=
  [.setCursor (some tip), .moveCursor ⟨4, 1⟩, .fill ⟨3, 1, 2, 1⟩ ⟨7, 7, 7, 255⟩,
    .fill ⟨3, 1, 1, 1⟩ ⟨8, 8, 8, 255⟩, .showCursor]

end Canvas

end RemoteFramebuffer
