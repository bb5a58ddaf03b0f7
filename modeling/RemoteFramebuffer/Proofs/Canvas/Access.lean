/-
# `RemoteFramebuffer.Proofs.Canvas.Access` — everything that a canvas touches is there

A canvas is well formed if its extents are those of a desktop and its record of changes has an
entry for every block.  On such a canvas no operation touches anything that is not there, and
every operation leaves such a canvas behind.  Fresh canvases are well formed, so all of them are.
-/
import RemoteFramebuffer.Canvas.Access
import RemoteFramebuffer.Proofs.Canvas.Call
import RemoteFramebuffer.Proofs.Outcome
import RemoteFramebuffer.Proofs.Raster

namespace RemoteFramebuffer

open Guarded (Safe)

/-! ## Rows of pixels -/

namespace Raster

theorem safe_touchBlock {r : Raster} {rect : Rect} (h : r.holds rect = true) :
    Safe (fun _ => True) (r.touchBlock rect) := by
  obtain ⟨⟨_, fitsX⟩, _, fitsY⟩ := holds_iff.mp h
  refine Outcome.forM fun j mem => ?_
  have hj := List.mem_range.mp mem
  exact Guarded.safe_slice (Nat.le_add_right _ _) (r.row_le (by omega) (by omega))

theorem safe_touchRows {size width height stride above : Nat} (rows : height ≤ above + 1)
    (enough : stride * above + width ≤ size) :
    Safe (fun _ => True) (touchRows size width height stride) := by
  refine Outcome.forM fun j mem => ?_
  have hj := List.mem_range.mp mem
  have before : j * stride ≤ stride * above := by
    rw [Nat.mul_comm stride]
    exact Nat.mul_le_mul_right _ (by omega)
  exact Guarded.safe_slice (Nat.le_add_right _ _) (by omega)

theorem safe_touchFill (r : Raster) (rect : Rect) : Safe (fun _ => True) (r.touchFill rect) := by
  unfold touchFill
  split
  · exact safe_touchBlock ‹_›
  · exact .pure trivial

theorem safe_touchCopy (r : Raster) (dest : Rect) (offset : Point) :
    Safe (fun _ => True) (r.touchCopy dest offset) := by
  unfold touchCopy
  split
  · rename_i held
    rw [Bool.and_eq_true] at held
    exact Outcome.bind (safe_touchBlock held.2) fun _ _ => safe_touchBlock held.1
  · exact .pure trivial

theorem safe_touchImage (r : Raster) (dest : Rect) (size stride : Nat) :
    Safe (fun _ => True) (r.touchImage dest size stride) := by
  unfold touchImage
  split
  · rename_i held
    rw [Bool.and_eq_true, Rect.isEmpty] at held
    have rows : 1 ≤ dest.height := by
      have := held.2
      simp only [Bool.not_eq_true', Bool.or_eq_false_iff, beq_eq_false_iff_ne] at this
      omega
    refine Outcome.bind (Guarded.safe_sub rows) fun above eq => ?_
    subst eq
    split
    · rename_i enough
      exact Outcome.bind (safe_touchBlock held.1) fun _ _ => safe_touchRows (by omega) enough
    · exact .pure trivial
  · exact .pure trivial

theorem safe_touchSlice {r : Raster} {rect : Rect} (h : r.holds rect = true)
    (rows : 0 < rect.height) : Safe (fun _ => True) (r.touchSlice rect) := by
  obtain ⟨⟨_, fitsX⟩, _, fitsY⟩ := holds_iff.mp h
  refine Outcome.bind (Guarded.safe_sub rows) fun above eq => ?_
  have last : r.index rect.x.toNat (rect.y.toNat + above) + rect.width ≤ r.pixels.size :=
    r.row_le (by omega) (by omega)
  have all : r.index rect.x.toNat (rect.y.toNat + above) =
      r.index rect.x.toNat rect.y.toNat + above * r.width := by
    unfold index
    rw [Nat.add_mul]
    omega
  refine Outcome.bind (Guarded.safe_slice (Nat.le_add_right _ _) (by omega)) fun _ _ => ?_
  refine safe_touchRows (?_ : rect.height ≤ above + 1) ?_
  · omega
  · exact Nat.le_of_eq (congrArg (· + rect.width) (Nat.mul_comm _ _))

end Raster

theorem CursorShape.place_lt_size (shape : CursorShape) {x y : Nat} (hx : x < shape.width)
    (hy : y < shape.height) : shape.place x y < shape.width * shape.height :=
  Nat.lt_of_le_of_lt (Nat.mod_le _ _) (place_lt hx hy)

/-! ## Well-formed canvases -/

namespace Canvas

/-- The record of changes has an entry for every block. -/
def Tracked (c : Canvas) : Prop :=
  c.dirty.size = blocksAcross c.raster.width * blocksAcross c.raster.height

structure WellFormed (c : Canvas) : Prop where
  width_le : c.raster.width ≤ 65535
  height_le : c.raster.height ≤ 65535
  size_dirty : c.dirty.size = blocksAcross c.raster.width * blocksAcross c.raster.height

/-- One of the pixels before an edge lies in one of the blocks before it. -/
theorem block_lt {pixel extent : Nat} (h : pixel < extent) :
    pixel / blockSize < blocksAcross extent := @Rect.div_lt_tilesAcross pixel extent blockSize h

variable {c : Canvas}

theorem WellFormed.tracked (h : c.WellFormed) : c.Tracked := h.size_dirty

theorem safe_touchDirty (h : c.Tracked) (rect : Rect) :
    Safe (fun _ => True) (c.touchDirty rect) := by
  unfold touchDirty
  split
  · exact .pure trivial
  · rename_i visible meets
    obtain ⟨pos, pos'⟩ := Rect.extent_pos_of_intersect meets
    obtain ⟨⟨nonneg, fits⟩, nonneg', fits'⟩ := Raster.holds_iff.mp (Raster.holds_of_intersect meets)
    obtain ⟨⟨-, -, across⟩, -, -, down⟩ := Rect.intersect_eq_some.mp meets
    have width_lt : c.bounds.right < 0x80000000 := by
      show 0 + signed32 c.raster.width < 0x80000000
      rw [Int.zero_add]
      exact signed32_lt _
    have height_lt : c.bounds.bottom < 0x80000000 := by
      show 0 + signed32 c.raster.height < 0x80000000
      rw [Int.zero_add]
      exact signed32_lt _
    have right : visible.right = visible.x + visible.width := by
      rw [Rect.right, signed32_of_lt (by omega)]
    have bottom : visible.bottom = visible.y + visible.height := by
      rw [Rect.bottom, signed32_of_lt (by omega)]
    refine Outcome.bind (Guarded.safe_sub (by omega)) fun lastX eqX => ?_
    refine Outcome.bind (Guarded.safe_sub (by omega)) fun lastY eqY => ?_
    have column : lastX / blockSize < blocksAcross c.raster.width := block_lt (by omega)
    have row : lastY / blockSize < blocksAcross c.raster.height := block_lt (by omega)
    refine Outcome.forM fun y memY => Outcome.forM fun x memX => ?_
    rw [List.mem_range'_1] at memY memX
    refine Guarded.safe_index ?_
    rw [show c.dirty.size = _ from h]
    exact place_lt (by omega) (by omega)

theorem safe_touchHide (h : c.Tracked) : Safe (fun _ => True) c.touchHide := by
  unfold touchHide
  split
  · exact .pure trivial
  · exact Outcome.bind (c.raster.safe_touchImage _ _ _) fun _ _ => safe_touchDirty h _

/-! ## Drawing -/

theorem safe_touchDraw (h : c.Tracked) (area : Rect) {touch : Raster → Guarded Unit}
    (safe : ∀ r, Safe (fun _ => True) (touch r)) :
    Safe (fun _ => True) (c.touchDraw area touch) := by
  refine Outcome.bind (safe_touchHide h) fun _ _ => ?_
  exact Outcome.bind (safe c.raster) fun _ _ => safe_touchDirty h area

/-! ## Cursor -/

theorem safe_touchCompose {shape : CursorShape} {bounds area visible : Rect}
    (extent : area.width = shape.width ∧ area.height = shape.height)
    (meets : bounds.intersect area = some visible) :
    Safe (fun _ => True) (touchCompose shape area visible) := by
  obtain ⟨⟨left, -, right⟩, top, -, bottom⟩ := Rect.intersect_eq_some.mp meets
  have right_le : visible.x + visible.width ≤ area.right := right ▸ Int.min_le_right _ _
  have bottom_le : visible.y + visible.height ≤ area.bottom := bottom ▸ Int.min_le_right _ _
  have left_le : area.x ≤ visible.x := left ▸ Int.le_max_right _ _
  have top_le : area.y ≤ visible.y := top ▸ Int.le_max_right _ _
  have across : area.right ≤ area.x + area.width := Int.add_le_add_left (signed32_le _) _
  have down : area.bottom ≤ area.y + area.height := Int.add_le_add_left (signed32_le _) _
  refine Outcome.forM fun j memJ => Outcome.forM fun i memI => ?_
  have hi := List.mem_range.mp memI
  have hj := List.mem_range.mp memJ
  have column : (visible.x - area.x).toNat + i < shape.width := by omega
  have row : (visible.y - area.y).toNat + j < shape.height := by omega
  have inside := shape.place_lt_size column row
  refine Outcome.bind (Guarded.safe_get (by rw [shape.size_mask]; exact inside)) fun drawn _ => ?_
  split
  · refine Outcome.bind (Guarded.safe_index (place_lt hi hj)) fun _ _ => Guarded.safe_index ?_
    rw [shape.size_pixels]
    exact inside
  · exact .pure trivial

theorem safe_touchShape (h : c.Tracked) (shape : CursorShape) (position : Point) :
    Safe (fun _ => True) (c.touchShape shape position) := by
  unfold touchShape
  dsimp only
  split
  · exact .pure trivial
  · rename_i visible meets
    have rows := (Rect.extent_pos_of_intersect meets).2
    have held : c.raster.holds visible = true := Raster.holds_of_intersect meets
    refine Outcome.bind (Raster.safe_touchSlice held rows) fun _ _ => ?_
    refine Outcome.bind (safe_touchCompose ⟨rfl, rfl⟩ meets) fun _ _ => ?_
    refine Outcome.bind (c.raster.safe_touchImage _ _ _) fun _ _ => ?_
    exact safe_touchDirty h visible

theorem safe_touchSetCursor (h : c.Tracked) (shape : Option CursorShape) :
    Safe (fun _ => True) (c.touchSetCursor shape) := by
  refine Outcome.bind (safe_touchHide h) fun _ _ => ?_
  cases shape with
  | none => exact .pure trivial
  | some shape => exact safe_touchShape h shape _

theorem safe_touchMoveCursor (h : c.Tracked) (position : Point) :
    Safe (fun _ => True) (c.touchMoveCursor position) := by
  refine Outcome.bind (safe_touchHide h) fun _ _ => ?_
  split
  · exact .pure trivial
  · exact safe_touchShape h _ position

/-! ## Every call keeps canvases well formed -/

theorem size_foldl_mark {ι : Type} (places : List ι) (place : ι → Nat) (dirty : Array Bool) :
    (places.foldl (fun dirty i => dirty.setIfInBounds (place i) true) dirty).size = dirty.size := by
  induction places generalizing dirty with
  | nil => rfl
  | cons i places ih => rw [List.foldl_cons, ih, Array.size_setIfInBounds]

@[simp] theorem size_dirty_markDirty (c : Canvas) (rect : Rect) :
    (c.markDirty rect).dirty.size = c.dirty.size := by
  have rows (ys : List Nat) (columns : List Nat) (across : Nat) (dirty : Array Bool) :
      (ys.foldl (fun dirty y => columns.foldl
        (fun dirty x => dirty.setIfInBounds (y * across + x) true) dirty) dirty).size =
          dirty.size := by
    induction ys generalizing dirty with
    | nil => rfl
    | cons y ys ih => rw [List.foldl_cons, ih, size_foldl_mark]
  unfold markDirty
  split
  · rfl
  · exact rows _ _ _ _

section

variable (c : Canvas)

@[simp] theorem width_hideCursor : c.hideCursor.raster.width = c.raster.width := by
  unfold hideCursor
  split
  · rfl
  · split <;> simp

@[simp] theorem height_hideCursor : c.hideCursor.raster.height = c.raster.height := by
  unfold hideCursor
  split
  · rfl
  · split <;> simp

@[simp] theorem size_dirty_hideCursor : c.hideCursor.dirty.size = c.dirty.size := by
  unfold hideCursor
  split
  · rfl
  · split <;> simp

end

namespace WellFormed

theorem of_size {c' : Canvas} (h : c.WellFormed) (width : c'.raster.width = c.raster.width)
    (height : c'.raster.height = c.raster.height) (dirty : c'.dirty.size = c.dirty.size) :
    c'.WellFormed where
  width_le := by
    rw [width]
    exact h.width_le
  height_le := by
    rw [height]
    exact h.height_le
  size_dirty := by rw [width, height, dirty, h.size_dirty]

theorem make {width height : Nat} (hw : width ≤ 65535) (hh : height ≤ 65535) :
    (Canvas.make width height).WellFormed := ⟨hw, hh, Array.size_replicate⟩

theorem resize (c : Canvas) {width height : Nat} (hw : width ≤ 65535) (hh : height ≤ 65535) :
    (c.resize width height).WellFormed := ⟨hw, hh, Array.size_replicate⟩

theorem markDirty (h : c.WellFormed) (rect : Rect) : (c.markDirty rect).WellFormed :=
  h.of_size (by simp) (by simp) (by simp)

theorem takeDirty (h : c.WellFormed) : c.takeDirty.2.WellFormed :=
  h.of_size rfl rfl Array.size_replicate

theorem hideCursor (h : c.WellFormed) : c.hideCursor.WellFormed :=
  h.of_size c.width_hideCursor c.height_hideCursor c.size_dirty_hideCursor

theorem showCursor (h : c.WellFormed) : c.showCursor.WellFormed := by
  unfold Canvas.showCursor
  split
  · dsimp only
    split
    · exact h
    · refine markDirty ?_ _
      exact h.of_size (Raster.width_overlay _ _ _ _) (Raster.height_overlay _ _ _ _) rfl
  · exact h

theorem setCursor (h : c.WellFormed) (shape : Option CursorShape) :
    (c.setCursor shape).WellFormed :=
  showCursor (h.hideCursor.of_size rfl rfl rfl)

theorem moveCursor (h : c.WellFormed) (position : Point) : (c.moveCursor position).WellFormed :=
  showCursor (h.hideCursor.of_size rfl rfl rfl)

theorem draw (h : c.WellFormed) (area : Rect) (check : Raster → Except DrawError Unit)
    {op : Raster → Raster} (keeps : ∀ r, (op r).width = r.width ∧ (op r).height = r.height) :
    (c.draw area check op).2.WellFormed := by
  unfold Canvas.draw
  dsimp only
  split
  · refine markDirty ?_ _
    exact h.hideCursor.of_size (keeps _).1 (keeps _).2 rfl
  · exact h.hideCursor

theorem fill (h : c.WellFormed) (rect : Rect) (color : Rgba) : (c.fill rect color).2.WellFormed :=
  h.draw _ _ fun r => ⟨r.width_paint _ _, r.height_paint _ _⟩

theorem copy (h : c.WellFormed) (dest : Rect) (offset : Point) :
    (c.copy dest offset).2.WellFormed :=
  h.draw _ _ fun r => ⟨r.width_copyBlock _ _, r.height_copyBlock _ _⟩

theorem image (h : c.WellFormed) (dest : Rect) (source : Array Rgba) (stride length : Nat) :
    (c.image dest source stride length).2.WellFormed :=
  h.draw _ _ fun r => ⟨r.width_overlay _ _ _, r.height_overlay _ _ _⟩

theorem paintPlace (h : c.WellFormed) (place : Rect) (color : Rgba) :
    (c.paintPlace place color).WellFormed := by
  unfold Canvas.paintPlace
  split
  · exact h
  · refine markDirty ?_ _
    exact h.hideCursor.of_size (Raster.width_paint _ _ _) (Raster.height_paint _ _ _) rfl

theorem onCanvas (h : c.WellFormed) {call : Call} (fits : call.Fits) :
    (Call.onCanvas c call).2.WellFormed := by
  cases call with
  | fill rect color => exact h.fill rect color
  | copy dest offset => exact h.copy dest offset
  | image dest data stride => exact h.image dest _ stride _
  | setPixel x y color =>
      rw [Call.onCanvas, Canvas.setPixel]
      generalize signed32 x = column
      generalize signed32 y = row
      exact h.paintPlace _ color
  | resize width height => exact resize c fits.1 fits.2
  | markDirty rect => exact h.markDirty rect
  | takeDirty => exact h.takeDirty
  | setCursor shape => exact h.setCursor shape
  | moveCursor position => exact h.moveCursor position
  | hideCursor => exact h.hideCursor
  | showCursor => exact h.showCursor

theorem runAll {calls : List Call} (fits : ∀ call ∈ calls, call.Fits) :
    ∀ {c}, WellFormed c → (Call.runAll Call.onCanvas c calls).2.WellFormed := by
  induction calls with
  | nil => exact fun h => h
  | cons call calls ih =>
      intro c h
      exact ih (fun call mem => fits call (List.mem_cons_of_mem _ mem))
        (h.onCanvas (fits call List.mem_cons_self))

end WellFormed

theorem Reached.wellFormed (h : c.Reached) : c.WellFormed := by
  obtain ⟨width, height, calls, ⟨hw, hh⟩, fits, rfl⟩ := h
  exact WellFormed.runAll fits (.make hw hh)

end Canvas

end RemoteFramebuffer
