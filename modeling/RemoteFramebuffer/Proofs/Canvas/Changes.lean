/-
# `RemoteFramebuffer.Proofs.Canvas.Changes` — the record of changes is sound and exact

## What is proved

Of every canvas whose record was drained and every list of calls up to the next drain, with `blocks`
what that drain returns (`changes_exact`):

    blocks are distinct blocks of the grid, in raster order
    a pixel looks different, no new size came      it lies in one of `blocks`
    a new size came                                `blocks` are the whole grid
    a block is one of `blocks`                     a new size came, or it overlaps an area that was
                                                   drawn, marked, put back or covered by the cursor
    another drain                                  nothing

and neither a call nor a question about a block touches an entry that is not there.  What looks
different is told of the raster that is seen, the cursor with it, before the calls and after them; of
a pixel that was changed and changed back nothing is asked.

## How it is proved

The record has one entry for every block of the grid.  Marking a rectangle sets the entries of
the blocks that share a pixel with the rectangle's visible part, and no others:

    block i marked by rect   ⟺   some pixel of the visible part has index i        (`marked_markDirty`)

From this comes what a call does to the record.  `Records areas c c'` says that a step from `c`
to `c'` forgets nothing, that it marks every pixel that it changes (sound), and that it marks only
blocks that overlap one of the areas (exact).  Steps compose, so runs are recorded as calls are.
-/
import RemoteFramebuffer.Proofs.Canvas.Access
import RemoteFramebuffer.Proofs.Canvas.Overlay

namespace RemoteFramebuffer

def Rect.Overlaps (a b : Rect) : Prop := ∃ x y, a.Covers x y ∧ b.Covers x y

namespace Canvas

/-! ## The record -/

/-- The blocks of the grid, clipped to the canvas, in raster order. -/
def grid (c : Canvas) : List Rect := c.bounds.tiles blockSize blockSize

/-- The number of the block that a pixel lies in. -/
def blockOf (c : Canvas) (x y : Int) : Nat := c.bounds.tileIndex blockSize blockSize x y

def block (c : Canvas) (i : Nat) : Rect := c.bounds.tileAt blockSize blockSize i

/-- The record says that block number `i` has changed. -/
def Marked (c : Canvas) (i : Nat) : Prop := c.dirty[i]? = some true

instance (c : Canvas) (i : Nat) : Decidable (c.Marked i) := inferInstanceAs (Decidable (_ = _))

/-- Setting entries to true adds their places to those that are true. -/
theorem getElem?_foldl_mark {ι : Type} (l : List ι) (place : ι → Nat) (dirty : Array Bool) {i : Nat}
    (inside : i < dirty.size) :
    (l.foldl (fun dirty j => dirty.setIfInBounds (place j) true) dirty)[i]? = some true ↔
      dirty[i]? = some true ∨ ∃ j ∈ l, place j = i := by
  induction l generalizing dirty with
  | nil => simp
  | cons j l ih =>
      rw [List.foldl_cons, ih _ (by rwa [Array.size_setIfInBounds]), Array.getElem?_setIfInBounds]
      by_cases same : place j = i
      · simp [same, inside]
      · simp [same]

theorem getElem?_foldl_rows (rows columns : List Nat) (across : Nat) (dirty : Array Bool) {i : Nat}
    (inside : i < dirty.size) :
    (rows.foldl (fun dirty y => columns.foldl
      (fun dirty x => dirty.setIfInBounds (y * across + x) true) dirty) dirty)[i]? = some true ↔
      dirty[i]? = some true ∨ ∃ y ∈ rows, ∃ x ∈ columns, y * across + x = i := by
  induction rows generalizing dirty with
  | nil => simp
  | cons y rows ih =>
      rw [List.foldl_cons, ih _ (by rwa [size_foldl_mark]), getElem?_foldl_mark _ _ _ inside]
      simp [or_assoc]

variable {c : Canvas} {rect : Rect}

/-- A span of pixels meets just the blocks from that of its first pixel to that of its last. -/
theorem exists_pixel_iff (first k : Nat) {width : Nat} (pos : 0 < width) :
    (∃ x, (first ≤ x ∧ x < first + width) ∧ x / blockSize = k) ↔
      first / blockSize ≤ k ∧ k ≤ (first + width - 1) / blockSize := by
  unfold blockSize
  constructor
  · rintro ⟨x, span, rfl⟩
    omega
  · intro span
    by_cases starts : first / 16 = k
    · exact ⟨first, by omega, starts⟩
    · exact ⟨16 * k, by omega, by omega⟩

theorem blockOf_eq (c : Canvas) (x y : Nat) :
    c.blockOf x y = y / blockSize * blocksAcross c.raster.width + x / blockSize := by
  have column : ((x : Int) - 0).toNat = x := by omega
  have row : ((y : Int) - 0).toNat = y := by omega
  show ((y : Int) - 0).toNat / 16 * _ + ((x : Int) - 0).toNat / 16 = _
  rw [column, row]
  rfl

/-- **What marking a rectangle marks.** -/
theorem marked_markDirty (h : c.WellFormed) {i : Nat}
    (inside : i < c.bounds.tileCount blockSize blockSize) :
    (c.markDirty rect).Marked i ↔ c.Marked i ∨
      ∃ visible, c.bounds.intersect rect = some visible ∧
        ∃ x y : Nat, visible.Covers x y ∧ c.blockOf x y = i := by
  unfold markDirty
  split
  · rename_i apart
    simp [apart]
  · rename_i visible meets
    obtain ⟨⟨left, fits⟩, top, fits'⟩ := Raster.holds_iff.mp (Raster.holds_of_intersect meets)
    obtain ⟨pos, pos'⟩ := Rect.extent_pos_of_intersect meets
    have width := h.width_le
    have height := h.height_le
    have right : visible.right.toNat = visible.x.toNat + visible.width := by
      rw [Rect.right, signed32_of_lt (by omega)]
      omega
    have bottom : visible.bottom.toNat = visible.y.toNat + visible.height := by
      rw [Rect.bottom, signed32_of_lt (by omega)]
      omega
    have covers (x y : Nat) : visible.Covers x y ↔
        (visible.x.toNat ≤ x ∧ x < visible.x.toNat + visible.width) ∧
          visible.y.toNat ≤ y ∧ y < visible.y.toNat + visible.height := by
      unfold Rect.Covers
      omega
    have columns (k : Nat) := exists_pixel_iff visible.x.toNat k pos
    have rows (k : Nat) := exists_pixel_iff visible.y.toNat k pos'
    refine (getElem?_foldl_rows _ _ _ _ (h.size_dirty ▸ inside)).trans (or_congr Iff.rfl ?_)
    simp only [List.mem_range'_1, right, bottom]
    constructor
    · rintro ⟨k, row, l, column, rfl⟩
      obtain ⟨x, inX, rfl⟩ := (columns l).mpr (by omega)
      obtain ⟨y, inY, rfl⟩ := (rows k).mpr (by omega)
      exact ⟨visible, meets, x, y, (covers x y).mpr ⟨inX, inY⟩, c.blockOf_eq x y⟩
    · rintro ⟨_, same, x, y, covered, rfl⟩
      cases meets.symm.trans same
      obtain ⟨inX, inY⟩ := (covers x y).mp covered
      have column := (columns _).mp ⟨x, inX, rfl⟩
      have row := (rows _).mp ⟨y, inY, rfl⟩
      exact ⟨y / blockSize, by omega, x / blockSize, by omega, (c.blockOf_eq x y).symm⟩

theorem Marked.lt {i : Nat} (h : c.Marked i) : i < c.dirty.size :=
  (Array.getElem?_eq_some_iff.mp h).1

/-! ## Steps that are recorded -/

/-- The step from `c` to `c'` is recorded.  Nothing is forgotten, every pixel that differs lies
in a marked block, and a block is newly marked only if it overlaps one of the areas. -/
structure Records (areas : List Rect) (c c' : Canvas) : Prop where
  width : c'.raster.width = c.raster.width
  height : c'.raster.height = c.raster.height
  kept : ∀ i, c.Marked i → c'.Marked i
  sound : ∀ x y : Nat, c'.raster.pixel? x y ≠ c.raster.pixel? x y → c'.Marked (c.blockOf x y)
  only : ∀ i < c.bounds.tileCount blockSize blockSize, c'.Marked i →
    c.Marked i ∨ ∃ area ∈ areas, area.Overlaps (c.block i)

namespace Records

variable {areas areas' : List Rect} {c c' c'' : Canvas}

theorem bounds (h : Records areas c c') : c'.bounds = c.bounds := by
  unfold Canvas.bounds Raster.bounds
  rw [h.width, h.height]

theorem of_eq (raster : c'.raster = c.raster) (dirty : c'.dirty = c.dirty) : Records [] c c' where
  width := by rw [raster]
  height := by rw [raster]
  kept i h := by rwa [Marked, dirty]
  sound x y differs := absurd (by rw [raster]) differs
  only i _ h := .inl (by rwa [Marked, dirty] at h)

theorem mono (h : Records areas c c') (le : areas ⊆ areas') : Records areas' c c' where
  width := h.width
  height := h.height
  kept := h.kept
  sound := h.sound
  only i inside mem := (h.only i inside mem).imp_right fun ⟨area, within, overlaps⟩ =>
    ⟨area, le within, overlaps⟩

theorem trans (h : Records areas c c') (h' : Records areas' c' c'') :
    Records (areas ++ areas') c c'' where
  width := h'.width.trans h.width
  height := h'.height.trans h.height
  kept i mem := h'.kept i (h.kept i mem)
  sound x y differs := by
    have same : c'.blockOf x y = c.blockOf x y := by rw [blockOf, h.bounds, blockOf]
    by_cases before : c'.raster.pixel? x y = c.raster.pixel? x y
    · rw [← before] at differs
      exact same ▸ h'.sound x y differs
    · exact h'.kept _ (h.sound x y before)
  only i inside mem := by
    have same : c'.block i = c.block i := by rw [block, h.bounds, block]
    rcases h'.only i (h.bounds ▸ inside) mem with mem | ⟨area, within, overlaps⟩
    · rcases h.only i inside mem with mem | ⟨area, within, overlaps⟩
      · exact .inl mem
      · exact .inr ⟨area, List.mem_append_left _ within, overlaps⟩
    · exact .inr ⟨area, List.mem_append_right _ within, same ▸ overlaps⟩

/-- A change of pixels within a rectangle of the canvas, which is then marked. -/
theorem marking (h : c.WellFormed) (width : c'.raster.width = c.raster.width)
    (height : c'.raster.height = c.raster.height) (dirty : c'.dirty = c.dirty) {rect : Rect}
    (word : rect.IsWord)
    (within : ∀ x y : Nat, c'.raster.pixel? x y ≠ c.raster.pixel? x y →
      c.raster.holds rect = true ∧ rect.Covers x y) :
    Records [rect] c (c'.markDirty rect) := by
  have formed : c'.WellFormed := h.of_size width height (by rw [dirty])
  have bounds : c'.bounds = c.bounds := by
    unfold Canvas.bounds Raster.bounds
    rw [width, height]
  have small : c.bounds.width < 0x80000000 ∧ c.bounds.height < 0x80000000 :=
    ⟨Nat.lt_of_le_of_lt h.width_le (by decide), Nat.lt_of_le_of_lt h.height_le (by decide)⟩
  have sized : c.bounds.IsWord :=
    ⟨Nat.lt_of_le_of_lt h.width_le (by decide), Nat.lt_of_le_of_lt h.height_le (by decide)⟩
  have marks {i : Nat} (inside : i < c.bounds.tileCount blockSize blockSize) :
      (c'.markDirty rect).Marked i ↔ c.Marked i ∨
        ∃ visible, c.bounds.intersect rect = some visible ∧
          ∃ x y : Nat, visible.Covers x y ∧ c.blockOf x y = i := by
    have marks : (c'.markDirty rect).Marked i ↔ _ := marked_markDirty formed (bounds ▸ inside)
    simpa only [Marked, blockOf, bounds, dirty] using marks
  refine ⟨by simpa using width, by simpa using height, fun i mem => ?_, fun x y differs => ?_,
    fun i inside mem => ?_⟩
  · have inside := mem.lt
    rw [h.size_dirty] at inside
    exact (marks inside).mpr (.inl mem)
  · rw [raster_markDirty] at differs
    obtain ⟨held, covered⟩ := within x y differs
    obtain ⟨⟨_, fits⟩, _, fits'⟩ := Raster.holds_iff.mp held
    have inside : c.bounds.Covers x y := (c.raster.bounds_covers x y).mpr
      (Raster.lt_of_covers held covered)
    have left := h.width_le
    have top := h.height_le
    obtain ⟨visible, meets⟩ := Rect.intersect_isSome_of_covers small ⟨by omega, by omega⟩ inside covered
    have seen := (Rect.covers_intersect sized word meets x y).mpr ⟨inside, covered⟩
    exact (marks (Rect.tileIndex_lt inside _ _)).mpr (.inr ⟨visible, meets, x, y, seen, rfl⟩)
  · rcases (marks inside).mp mem with mem | ⟨visible, meets, x, y, seen, rfl⟩
    · exact .inl mem
    · obtain ⟨on, covered⟩ := (Rect.covers_intersect sized word meets x y).mp seen
      refine .inr ⟨rect, List.mem_singleton_self _, x, y, covered, ?_⟩
      exact (Rect.covers_tileAt small inside x y).mpr ⟨on, rfl⟩

theorem drawing (h : c.WellFormed) (width : c'.raster.width = c.raster.width)
    (height : c'.raster.height = c.raster.height) (dirty : c'.dirty = c.dirty) {rect : Rect}
    (held : c.raster.holds rect = true)
    (outside : ∀ {x y : Nat}, ¬ rect.Covers x y → c'.raster.pixel? x y = c.raster.pixel? x y) :
    Records [rect] c (c'.markDirty rect) := by
  obtain ⟨⟨_, fits⟩, _, fits'⟩ := Raster.holds_iff.mp held
  have left := h.width_le
  have top := h.height_le
  refine marking h width height dirty ⟨by omega, by omega⟩ fun x y differs => ⟨held, ?_⟩
  exact Decidable.byContradiction fun off => differs (outside off)

end Records

/-! ## The cursor -/

/-- The area that the cursor covers while it is drawn. -/
def underCursor (c : Canvas) : List Rect := (c.saved.map SavedArea.rect).toList

theorem records_hideCursor (h : c.WellFormed) : Records c.underCursor c c.hideCursor := by
  unfold hideCursor underCursor
  cases c.saved with
  | none => exact .of_eq rfl rfl
  | some saved =>
      dsimp only [Option.map_some, Option.toList_some]
      split
      · rename_i passes
        have held : c.raster.holds saved.rect = true := by
          cases answer : c.raster.checkImage saved.rect 0 (4 * saved.pixels.size) with
          | error e =>
              rw [answer] at passes
              cases passes
          | ok => exact Raster.holds_of_checkImage answer
        refine Records.drawing h ?_ ?_ ?_ held ?_
        · exact Raster.width_overlay _ _ _ _
        · exact Raster.height_overlay _ _ _ _
        · rfl
        · exact Raster.overlay_of_not_covers _ held _
      · have forgotten : Records [] c { c with saved := none } := .of_eq rfl rfl
        exact forgotten.mono (List.nil_subset _)

theorem records_showCursor (h : c.WellFormed) (hidden : c.saved = none) :
    Records c.showCursor.underCursor c c.showCursor := by
  have nothing (areas : List Rect) : Records areas c c :=
    (Records.of_eq rfl rfl).mono (List.nil_subset areas)
  unfold showCursor
  rw [hidden]
  cases c.cursor with
  | none => exact nothing _
  | some shape =>
      dsimp only
      split
      · exact nothing _
      · rename_i visible meets
        have held := Raster.holds_of_intersect meets
        unfold underCursor
        rw [saved_markDirty]
        dsimp only [Option.map_some, Option.toList_some]
        refine Records.drawing h ?_ ?_ ?_ held ?_
        · exact Raster.width_overlay _ _ _ _
        · exact Raster.height_overlay _ _ _ _
        · rfl
        · exact Raster.overlay_of_not_covers _ held _

theorem records_redraw (h : c.WellFormed) {changed : Canvas}
    (raster : changed.raster = c.hideCursor.raster) (dirty : changed.dirty = c.hideCursor.dirty)
    (hidden : changed.saved = none) :
    Records (c.underCursor ++ changed.showCursor.underCursor) c changed.showCursor := by
  have formed : changed.WellFormed :=
    h.hideCursor.of_size (by rw [raster]) (by rw [raster]) (by rw [dirty])
  have kept : Records [] c.hideCursor changed := .of_eq raster dirty
  exact (records_hideCursor h).trans (kept.trans (records_showCursor formed hidden))

/-! ## Drawing -/

/-- The area of an operation that was not refused. -/
def drawnArea (answer : Except DrawError Unit) (area : Rect) : List Rect :=
  if answer.isOk then [area] else []

theorem records_draw (h : c.WellFormed) {area : Rect} {check : Raster → Except DrawError Unit}
    {op : Raster → Raster} (size : ∀ r, (op r).width = r.width ∧ (op r).height = r.height)
    (held : ∀ {r}, check r = .ok () → r.holds area = true)
    (keeps : ∀ {r} {x y : Nat}, r.holds area = true → ¬ area.Covers x y →
      (op r).pixel? x y = r.pixel? x y) :
    Records (c.underCursor ++ drawnArea (c.draw area check op).1 area) c (c.draw area check op).2 := by
  refine (records_hideCursor h).trans ?_
  unfold draw
  dsimp only
  split
  · rename_i passes
    have within := held passes
    refine Records.drawing h.hideCursor ?_ ?_ ?_ within ?_
    · exact (size _).1
    · exact (size _).2
    · rfl
    · exact keeps within
  · exact .of_eq rfl rfl

theorem records_paintPlace (h : c.WellFormed) {place : Rect} (color : Rgba)
    (held : ∀ {common}, c.bounds.intersect place = some common → c.raster.holds place = true) :
    Records (if (c.bounds.intersect place).isSome then c.underCursor ++ [place] else []) c
      (c.paintPlace place color) := by
  unfold paintPlace
  cases meets : c.bounds.intersect place with
  | none => exact .of_eq rfl rfl
  | some common =>
      dsimp only [Option.isSome_some]
      rw [if_pos rfl]
      refine (records_hideCursor h).trans ?_
      have within : c.hideCursor.raster.holds place = true := by
        simpa [Raster.holds] using held meets
      refine Records.drawing h.hideCursor ?_ ?_ ?_ within ?_
      · exact Raster.width_paint _ _ _
      · exact Raster.height_paint _ _ _
      · rfl
      · exact Raster.paint_of_not_covers _ within color

/-! ## Calls -/

namespace Call

/-- The areas that a call draws, marks, puts back from under the cursor or covers with it. -/
def areas (c : Canvas) (call : Call) : List Rect :=
  match call with
  | .fill rect _ => c.underCursor ++ drawnArea (call.onCanvas c).1 rect
  | .copy dest _ => c.underCursor ++ drawnArea (call.onCanvas c).1 dest
  | .image dest _ _ => c.underCursor ++ drawnArea (call.onCanvas c).1 dest
  | .setPixel x y _ =>
    let place : Rect := ⟨signed32 x, signed32 y, 1, 1⟩
    if (c.bounds.intersect place).isSome then c.underCursor ++ [place] else []
  | .markDirty rect => [rect]
  | .setCursor _ => c.underCursor ++ (call.onCanvas c).2.underCursor
  | .moveCursor _ => c.underCursor ++ (call.onCanvas c).2.underCursor
  | .hideCursor => c.underCursor
  | .showCursor => if c.saved.isNone then (call.onCanvas c).2.underCursor else []
  | .resize _ _ => []
  | .takeDirty => []

/-- The extents of a rectangle that is marked are words. -/
def MarksWord : Call → Prop
  | .markDirty rect => rect.IsWord
  | _ => True

def IsResize : Call → Prop
  | .resize _ _ => True
  | _ => False

end Call

/-- **One call.**  Unless it resizes the canvas or drains the record, it is recorded. -/
theorem records_onCanvas (h : c.WellFormed) {call : Call} (word : call.MarksWord)
    (same : ¬ call.IsResize) (keeps : call ≠ .takeDirty) :
    Records (call.areas c) c (call.onCanvas c).2 := by
  cases call with
  | fill rect color =>
      refine records_draw h ?_ ?_ ?_
      · exact fun r => ⟨r.width_paint _ _, r.height_paint _ _⟩
      · exact Raster.check_eq_ok.mp
      · exact fun held => Raster.paint_of_not_covers _ held color
  | copy dest offset =>
      refine records_draw h ?_ ?_ ?_
      · exact fun r => ⟨r.width_copyBlock _ _, r.height_copyBlock _ _⟩
      · exact Raster.holds_of_checkCopy
      · exact fun held => Raster.copyBlock_of_not_covers _ held offset
  | image dest data stride =>
      refine records_draw h ?_ ?_ ?_
      · exact fun r => ⟨r.width_overlay _ _ _, r.height_overlay _ _ _⟩
      · exact Raster.holds_of_checkImage
      · intro r x y held outside
        rw [Raster.overlay, Raster.pixel?_recolor r held, if_neg outside]
  | setPixel x y color =>
      have width_lt : c.raster.width < 0x80000000 := Nat.lt_of_le_of_lt h.width_le (by decide)
      have height_lt : c.raster.height < 0x80000000 := Nat.lt_of_le_of_lt h.height_le (by decide)
      rw [Call.areas, Call.onCanvas, Canvas.setPixel]
      generalize signed32 x = column
      generalize signed32 y = row
      exact records_paintPlace h color fun meets =>
        (Raster.meets_place_iff width_lt height_lt).mp ⟨_, meets⟩
  | resize width height => exact absurd trivial same
  | markDirty rect =>
      exact .marking h rfl rfl rfl word fun _ _ differs => absurd rfl differs
  | takeDirty => exact absurd rfl keeps
  | setCursor shape => exact records_redraw h rfl rfl c.saved_hideCursor
  | moveCursor position => exact records_redraw h rfl rfl c.saved_hideCursor
  | hideCursor => exact records_hideCursor h
  | showCursor =>
      rw [Call.areas, Call.onCanvas]
      cases saved : c.saved with
      | none => exact records_showCursor h saved
      | some under =>
          have same : c.showCursor = c := by
            unfold Canvas.showCursor
            rw [saved]
          exact .of_eq (by rw [same]) (by rw [same])

/-! ## Runs -/

def Call.areasOf (c : Canvas) : List Call → List Rect
  | [] => []
  | call :: calls => call.areas c ++ areasOf (call.onCanvas c).2 calls

theorem records_runAll {calls : List Call} (h : c.WellFormed) (fits : ∀ call ∈ calls, call.Fits)
    (words : ∀ call ∈ calls, call.MarksWord) (same : ∀ call ∈ calls, ¬ call.IsResize)
    (keep : ∀ call ∈ calls, call ≠ .takeDirty) :
    Records (Call.areasOf c calls) c (Call.runAll Call.onCanvas c calls).2 := by
  induction calls generalizing c with
  | nil => exact .of_eq rfl rfl
  | cons call calls ih =>
      rw [List.forall_mem_cons] at fits words same keep
      exact (records_onCanvas h words.1 same.1 keep.1).trans
        (ih (h.onCanvas fits.1) fits.2 words.2 same.2 keep.2)

def AllMarked (c : Canvas) : Prop := ∀ i < c.bounds.tileCount blockSize blockSize, c.Marked i

theorem allMarked_resize (c : Canvas) (width height : Nat) : (c.resize width height).AllMarked := by
  intro i inside
  rw [Marked, resize, Array.getElem?_replicate]
  exact if_pos inside

/-- Once every block is marked, calls leave it so until the record is drained. -/
theorem AllMarked.onCanvas (all : c.AllMarked) (h : c.WellFormed) {call : Call}
    (word : call.MarksWord) (keeps : call ≠ .takeDirty) : (call.onCanvas c).2.AllMarked := by
  by_cases resizes : call.IsResize
  · cases call with
    | resize width height => exact c.allMarked_resize width height
    | _ => exact absurd resizes id
  · have records := records_onCanvas h word resizes keeps
    intro i inside
    exact records.kept i (all i (records.bounds ▸ inside))

theorem allMarked_runAll {calls : List Call} (h : c.WellFormed) (fits : ∀ call ∈ calls, call.Fits)
    (words : ∀ call ∈ calls, call.MarksWord) (keep : ∀ call ∈ calls, call ≠ .takeDirty)
    (marked : c.AllMarked ∨ ∃ call ∈ calls, call.IsResize) :
    (Call.runAll Call.onCanvas c calls).2.AllMarked := by
  induction calls generalizing c with
  | nil => exact marked.resolve_right (by simp)
  | cons call calls ih =>
      rw [List.forall_mem_cons] at fits words keep
      refine ih (h.onCanvas fits.1) fits.2 words.2 keep.2 ?_
      rcases marked with all | ⟨resizing, mem, resizes⟩
      · exact .inl (all.onCanvas h words.1 keep.1)
      · rcases List.mem_cons.mp mem with rfl | later
        · cases resizing with
          | resize width height => exact .inl (c.allMarked_resize width height)
          | _ => exact absurd resizes id
        · exact .inr ⟨resizing, later, resizes⟩

/-! ## Draining the record -/

/-- **What draining returns.**  The marked blocks of the grid, in its order. -/
theorem takeDirty_eq (h : c.WellFormed) :
    c.takeDirty.1 =
      ((List.range (c.bounds.tileCount blockSize blockSize)).filter c.Marked).map c.block := by
  have entries : c.dirty.toList = (List.range (c.bounds.tileCount blockSize blockSize)).map
      fun i => decide (c.Marked i) := by
    have size : c.dirty.size = c.bounds.tileCount blockSize blockSize := h.size_dirty
    refine List.ext_getElem (by simpa using size) fun i stored listed => ?_
    rw [List.getElem_map, List.getElem_range, Array.getElem_toList]
    rw [Array.length_toList] at stored
    simp [Marked, stored]
  show List.filterMap _ ((c.bounds.tiles blockSize blockSize).zip c.dirty.toList) = _
  rw [entries, Rect.tiles, List.zip_map', List.filterMap_map, ← List.filterMap_eq_filter,
    List.map_filterMap]
  congr 1
  funext i
  by_cases marked : c.Marked i
  · simp [marked, block]
  · simp [marked, Option.guard]

theorem mem_takeDirty (h : c.WellFormed) {block : Rect} :
    block ∈ c.takeDirty.1 ↔
      ∃ i < c.bounds.tileCount blockSize blockSize, c.Marked i ∧ c.block i = block := by
  simp [takeDirty_eq h, and_assoc]

theorem AllMarked.takeDirty_eq_grid (all : c.AllMarked) (h : c.WellFormed) :
    c.takeDirty.1 = c.grid := by
  rw [takeDirty_eq h, List.filter_eq_self.mpr fun i mem => ?_]
  · rfl
  · exact decide_eq_true (all i (List.mem_range.mp mem))

theorem marked_takeDirty (c : Canvas) (i : Nat) : ¬ c.takeDirty.2.Marked i := by
  rw [Marked, takeDirty, Array.getElem?_replicate]
  split <;> simp

/-- A block that covers a pixel of the canvas is the one that the pixel lies in. -/
theorem covers_block (h : c.WellFormed) {i : Nat}
    (inside : i < c.bounds.tileCount blockSize blockSize) (x y : Int) :
    (c.block i).Covers x y ↔ c.bounds.Covers x y ∧ c.blockOf x y = i := by
  refine Rect.covers_tileAt ⟨?_, ?_⟩ inside x y
  · exact Nat.lt_of_le_of_lt h.width_le (by decide)
  · exact Nat.lt_of_le_of_lt h.height_le (by decide)

theorem exists_covers_block (h : c.WellFormed) {i : Nat}
    (inside : i < c.bounds.tileCount blockSize blockSize) : ∃ x y, (c.block i).Covers x y := by
  have across : 0 < blocksAcross c.raster.width := Nat.pos_of_mul_pos_right (Nat.zero_lt_of_lt inside)
  have column : i % blocksAcross c.raster.width * 16 < c.raster.width :=
    Rect.tile_start_lt (Nat.mod_lt i across)
  have row : i / blocksAcross c.raster.width * 16 < c.raster.height :=
    Rect.tile_start_lt (Nat.div_lt_of_lt_mul inside)
  refine ⟨_, _, (covers_block h inside _ _).mpr
    ⟨(c.raster.bounds_covers _ _).mpr ⟨column, row⟩, ?_⟩⟩
  rw [blockOf_eq, blockSize, Nat.mul_div_cancel _ (by decide), Nat.mul_div_cancel _ (by decide),
    Nat.div_add_mod']

theorem nodup_grid (h : c.WellFormed) : c.grid.Nodup := by
  rw [grid, Rect.tiles, List.Nodup, List.pairwise_map]
  refine List.nodup_range.imp_of_mem fun {i j} mem mem' differ same => differ ?_
  rw [List.mem_range] at mem mem'
  obtain ⟨x, y, covered⟩ := exists_covers_block h mem
  have number := ((covers_block h mem x y).mp covered).2
  rw [block, same] at covered
  exact number.symm.trans ((covers_block h mem' x y).mp covered).2

/-! ## Entries that are there -/

def touchPlace (c : Canvas) (place : Rect) : Guarded Unit :=
  match c.bounds.intersect place with
  | none => return ()
  | some _ => c.touchDraw place fun r =>
    if r.holds place && !place.isEmpty then r.touchSlice place else return ()

def touchShow (c : Canvas) : Guarded Unit :=
  match c.saved, c.cursor with
  | none, some shape => c.touchShape shape c.position
  | _, _ => return ()

def touchIsDirty (c : Canvas) (x y : Nat) : Guarded Unit :=
  let column := x / blockSize
  let row := y / blockSize
  if column < blocksAcross c.raster.width && row < blocksAcross c.raster.height then
    Guarded.index (row * blocksAcross c.raster.width + column) c.dirty.size
  else return ()

/-- What a call touches.  A new size and a drained record are made anew. -/
def Call.touch (c : Canvas) : Call → Guarded Unit
  | .fill rect _ => c.touchFill rect
  | .copy dest offset => c.touchCopy dest offset
  | .image dest data stride => c.touchImage dest (Rgba.unpack data).toArray.size stride
  | .setPixel x y _ => c.touchPlace ⟨signed32 x, signed32 y, 1, 1⟩
  | .resize _ _ => return ()
  | .markDirty rect => c.touchDirty rect
  | .takeDirty => return ()
  | .setCursor shape => c.touchSetCursor shape
  | .moveCursor position => c.touchMoveCursor position
  | .hideCursor => c.touchHide
  | .showCursor => c.touchShow

open Guarded (Safe)

theorem safe_touchPlace (h : c.Tracked) (place : Rect) : Safe (fun _ => True) (c.touchPlace place) := by
  unfold touchPlace
  split
  · exact .pure trivial
  · refine safe_touchDraw h place fun r => ?_
    split
    · rename_i held
      rw [Bool.and_eq_true, Rect.isEmpty] at held
      have rows : 0 < place.height := by
        have := held.2
        simp only [Bool.not_eq_true', Bool.or_eq_false_iff, beq_eq_false_iff_ne] at this
        omega
      exact Raster.safe_touchSlice held.1 rows
    · exact .pure trivial

theorem safe_touchShow (h : c.Tracked) : Safe (fun _ => True) c.touchShow := by
  unfold touchShow
  split
  · exact safe_touchShape h _ _
  · exact .pure trivial

theorem safe_touchIsDirty (h : c.Tracked) (x y : Nat) :
    Safe (fun _ => True) (c.touchIsDirty x y) := by
  unfold touchIsDirty
  dsimp only
  split
  · rename_i inside
    rw [Bool.and_eq_true, decide_eq_true_iff, decide_eq_true_iff] at inside
    refine Guarded.safe_index ?_
    rw [show c.dirty.size = _ from h]
    exact place_lt inside.1 inside.2
  · exact .pure trivial

theorem safe_touch (h : c.Tracked) (call : Call) : Safe (fun _ => True) (call.touch c) := by
  cases call with
  | fill rect color => exact safe_touchDraw h rect fun r => r.safe_touchFill rect
  | copy dest offset => exact safe_touchDraw h dest fun r => r.safe_touchCopy dest offset
  | image dest data stride => exact safe_touchDraw h dest fun r => r.safe_touchImage dest _ stride
  | setPixel x y color =>
      rw [Call.touch]
      generalize signed32 x = column
      generalize signed32 y = row
      exact safe_touchPlace h _
  | resize width height => exact .pure trivial
  | markDirty rect => exact safe_touchDirty h rect
  | takeDirty => exact .pure trivial
  | setCursor shape => exact safe_touchSetCursor h shape
  | moveCursor position => exact safe_touchMoveCursor h position
  | hideCursor => exact safe_touchHide h
  | showCursor => exact safe_touchShow h

/-! ## From one drain to the next -/

/-- Nothing is on record: the canvas is fresh, or its record has just been drained. -/
inductive Drained : Canvas → Prop
  | fresh {width height : Nat} : width ≤ 65535 → height ≤ 65535 → Drained (make width height)
  | taken {c : Canvas} : c.Reached → Drained c.takeDirty.2

theorem Drained.wellFormed (h : c.Drained) : c.WellFormed := by
  cases h with
  | fresh width height => exact .make width height
  | taken reached => exact reached.wellFormed.takeDirty

theorem Drained.not_marked (h : c.Drained) (i : Nat) : ¬ c.Marked i := by
  cases h with
  | fresh width height =>
      rw [Marked, make, Array.getElem?_replicate]
      split <;> simp
  | taken reached => exact marked_takeDirty _ i

/-- **The record of changes is sound and exact.**  From one drain to the next, whatever calls
come between: the next returns distinct blocks of the grid in raster order.  Without a new size,
every pixel that looks different lies in one of them; after a new size they are the whole grid.
Each of them comes from a new size or overlaps an area that was drawn, marked, put back from
under the cursor or covered by it.  One more drain returns nothing, and neither a call nor a
question about a block ever touches an entry that is not there. -/
theorem changes_exact (drained : c.Drained) {calls : List Call} (fits : ∀ call ∈ calls, call.Fits)
    (words : ∀ call ∈ calls, call.MarksWord) (keep : ∀ call ∈ calls, call ≠ .takeDirty) :
    let after := (Call.runAll Call.onCanvas c calls).2
    (after.takeDirty.1.Sublist after.grid ∧ after.grid.Nodup) ∧
    ((∀ call ∈ calls, ¬ call.IsResize) → ∀ x y : Nat,
      after.raster.pixel? x y ≠ c.raster.pixel? x y →
        ∃ block ∈ after.takeDirty.1, block.Covers x y) ∧
    ((∃ call ∈ calls, call.IsResize) → after.takeDirty.1 = after.grid) ∧
    (∀ block ∈ after.takeDirty.1, (∃ call ∈ calls, call.IsResize) ∨
      ∃ area ∈ Call.areasOf c calls, area.Overlaps block) ∧
    after.takeDirty.2.takeDirty.1 = [] ∧
    (∀ call : Call, Safe (fun _ => True) (call.touch after)) ∧
    ∀ x y, Safe (fun _ => True) (after.touchIsDirty x y) := by
  intro after
  have start := drained.wellFormed
  have formed : after.WellFormed := WellFormed.runAll fits start
  have records (same : ∀ call ∈ calls, ¬ call.IsResize) :
      Records (Call.areasOf c calls) c after := records_runAll start fits words same keep
  have taken := takeDirty_eq formed
  refine ⟨⟨?_, nodup_grid formed⟩, fun same x y differs => ?_, fun resized => ?_,
    fun block mem => ?_, ?_, safe_touch formed.tracked, safe_touchIsDirty formed.tracked⟩
  · rw [takeDirty_eq formed]
    exact List.filter_sublist.map _
  · have records := records same
    have marked := records.sound x y differs
    have inside := marked.lt
    rw [formed.size_dirty] at inside
    have place : x < after.raster.width ∧ y < after.raster.height := by
      refine Decidable.byContradiction fun outside => differs ?_
      rw [Raster.pixel?_eq_none _ outside, Raster.pixel?_eq_none]
      rwa [← records.width, ← records.height]
    refine ⟨after.block (c.blockOf x y), (mem_takeDirty formed).mpr ⟨_, inside, marked, rfl⟩, ?_⟩
    refine (covers_block formed inside x y).mpr ⟨(after.raster.bounds_covers x y).mpr place, ?_⟩
    rw [blockOf, records.bounds, blockOf]
  · exact (allMarked_runAll start fits words keep (.inr resized)).takeDirty_eq_grid formed
  · by_cases resized : ∃ call ∈ calls, call.IsResize
    · exact .inl resized
    · have records := records fun call mem resizes => resized ⟨call, mem, resizes⟩
      obtain ⟨i, inside, marked, rfl⟩ := (mem_takeDirty formed).mp mem
      have same : after.block i = c.block i := by rw [block, records.bounds, block]
      rw [records.bounds] at inside
      rcases records.only i inside marked with before | ⟨area, within, overlaps⟩
      · exact absurd before (drained.not_marked i)
      · exact .inr ⟨area, within, by rwa [same]⟩
  · refine List.eq_nil_iff_forall_not_mem.mpr fun block mem => ?_
    obtain ⟨i, -, marked, -⟩ := (mem_takeDirty formed.takeDirty).mp mem
    exact marked_takeDirty after i marked

/-- A color across the edge of two blocks, on a canvas of two blocks and a part of a third. -/
def acrossEdge : List Call := [.fill ⟨15, 0, 2, 1⟩ ⟨255, 255, 255, 255⟩, .fill ⟨40, 0, 1, 1⟩ Rgba.black]

theorem changes_exact_acrossEdge :
    let after := (Call.runAll Call.onCanvas (make 36 2) acrossEdge).2
    (make 36 2).Drained ∧ (∀ call ∈ acrossEdge, call.Fits) ∧ (∀ call ∈ acrossEdge, call.MarksWord) ∧
      (∀ call ∈ acrossEdge, call ≠ .takeDirty) ∧
      after.takeDirty.1 = [⟨0, 0, 16, 2⟩, ⟨16, 0, 16, 2⟩] ∧ after.takeDirty.2.takeDirty.1 = [] := by
  intro after
  have drained : (make 36 2).Drained := .fresh (by decide) (by decide)
  have fits : ∀ call ∈ acrossEdge, call.Fits := by simp [acrossEdge, Call.Fits]
  have words : ∀ call ∈ acrossEdge, call.MarksWord := by simp [acrossEdge, Call.MarksWord]
  have keep : ∀ call ∈ acrossEdge, call ≠ .takeDirty := by simp [acrossEdge]
  obtain ⟨-, -, -, -, again, -⟩ := changes_exact drained fits words keep
  exact ⟨drained, fits, words, keep, by decide, again⟩

end Canvas

end RemoteFramebuffer
