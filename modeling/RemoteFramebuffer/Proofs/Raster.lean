/-
# `RemoteFramebuffer.Proofs.Raster` — drawing, pixel by pixel

Every drawing operation is a `recolor`, so one law says what any of them does: a pixel of the
block gets the color that `f` makes of its old one, and every other pixel keeps its own.

    (r.recolor rect f).pixel? x y  =  (r.pixel? x y).map (f (x - rect.x) (y - rect.y))   inside
                                   =   r.pixel? x y                                      outside
-/
import RemoteFramebuffer.Proofs.Geometry
import RemoteFramebuffer.Raster

namespace RemoteFramebuffer.Raster

/-! ## Pixels -/

/-- A place of the raster: its column and row are those of a pixel. -/
theorem index_lt (r : Raster) {x y : Nat} (hx : x < r.width) (hy : y < r.height) :
    r.index x y < r.pixels.size := by
  rw [r.size_pixels]
  exact place_lt hx hy

theorem mem_run_iff {width left count x y v : Nat} (hx : x < width) (fits : left + count ≤ width) :
    (y * width + left ≤ v * width + x ∧ v * width + x < y * width + left + count) ↔
      v = y ∧ left ≤ x ∧ x < left + count := by
  rcases Nat.lt_trichotomy v y with lt | rfl | gt
  · have := Nat.mul_le_mul_right width lt
    rw [Nat.succ_mul] at this
    omega
  · omega
  · have := Nat.mul_le_mul_right width gt
    rw [Nat.succ_mul] at this
    omega

theorem pixel?_of_lt (r : Raster) {x y : Nat} (hx : x < r.width) (hy : y < r.height) :
    r.pixel? x y = r.pixels[r.index x y]? := by
  rw [pixel?, if_pos ⟨hx, hy⟩]

theorem pixel?_eq_some (r : Raster) {x y : Nat} (hx : x < r.width) (hy : y < r.height) :
    ∃ color, r.pixel? x y = some color := by
  rw [pixel?_of_lt r hx hy]
  exact ⟨_, Array.getElem?_eq_getElem (r.index_lt hx hy)⟩

theorem pixel?_eq_none (r : Raster) {x y : Nat} (h : ¬ (x < r.width ∧ y < r.height)) :
    r.pixel? x y = none := by
  rw [pixel?, if_neg h]

theorem ext_pixel? {r s : Raster} (hw : r.width = s.width) (hh : r.height = s.height)
    (h : ∀ x y, x < r.width → y < r.height → r.pixel? x y = s.pixel? x y) : r = s := by
  obtain ⟨width, height, pixels, size⟩ := r
  obtain ⟨width', height', pixels', size'⟩ := s
  obtain rfl : width = width' := hw
  obtain rfl : height = height' := hh
  have same : pixels = pixels' := by
    refine Array.ext (by rw [size, size']) fun i hi hi' => ?_
    rw [size] at hi
    have pos : 0 < width := by
      rcases Nat.eq_zero_or_pos width with rfl | pos
      · simp at hi
      · exact pos
    have hx : i % width < width := Nat.mod_lt _ pos
    have hy : i / width < height := Nat.div_lt_of_lt_mul hi
    have at_i := h _ _ hx hy
    have place : i / width * width + i % width = i := Nat.div_add_mod' i width
    simp only [pixel?, index, hx, hy, and_self, if_true, place] at at_i
    rw [Array.getElem?_eq_getElem (by rw [size]; exact hi),
      Array.getElem?_eq_getElem (by rw [size']; exact hi)] at at_i
    exact Option.some.inj at_i
  subst same
  rfl

theorem bounds_covers (r : Raster) (x y : Nat) :
    r.bounds.Covers x y ↔ x < r.width ∧ y < r.height := by
  unfold Rect.Covers bounds
  dsimp only
  omega

theorem holds_iff {r : Raster} {rect : Rect} :
    r.holds rect = true ↔ (0 ≤ rect.x ∧ rect.x + rect.width ≤ r.width) ∧
      0 ≤ rect.y ∧ rect.y + rect.height ≤ r.height := by
  simp only [holds, Bool.and_eq_true, decide_eq_true_eq]
  omega

theorem lt_of_covers {r : Raster} {rect : Rect} (held : r.holds rect = true) {x y : Nat}
    (covered : rect.Covers x y) : x < r.width ∧ y < r.height := by
  have held := holds_iff.mp held
  unfold Rect.Covers at covered
  omega

theorem holds_tileAt {r : Raster} {rect : Rect} (held : r.holds rect = true)
    (small : rect.width < 0x80000000 ∧ rect.height < 0x80000000) {tileWidth tileHeight index : Nat}
    (h : index < rect.tileCount tileWidth tileHeight) :
    r.holds (rect.tileAt tileWidth tileHeight index) = true := by
  have columns : 0 < Rect.tilesAcross rect.width tileWidth :=
    Nat.pos_of_mul_pos_right (Nat.zero_lt_of_lt h)
  have dx := Rect.tile_start_lt (Nat.mod_lt index columns)
  have dy := Rect.tile_start_lt (Nat.div_lt_of_lt_mul h)
  rw [holds_iff] at held ⊢
  dsimp only [Rect.tileAt]
  rw [signed32_of_lt (Nat.lt_trans dx small.1), signed32_of_lt (Nat.lt_trans dy small.2)]
  omega

theorem holds_of_intersect {r : Raster} {rect visible : Rect}
    (h : r.bounds.intersect rect = some visible) : r.holds visible = true := by
  obtain ⟨⟨left, -, right⟩, top, -, bottom⟩ := Rect.intersect_eq_some.mp h
  have right_le : visible.x + visible.width ≤ r.bounds.right := right ▸ Int.min_le_left _ _
  have bottom_le : visible.y + visible.height ≤ r.bounds.bottom := bottom ▸ Int.min_le_left _ _
  have across : r.bounds.right ≤ r.width := by
    rw [Rect.right, bounds, Int.zero_add]
    exact signed32_le _
  have down : r.bounds.bottom ≤ r.height := by
    rw [Rect.bottom, bounds, Int.zero_add]
    exact signed32_le _
  have x_nonneg : 0 ≤ visible.x := left ▸ Int.le_max_left _ _
  have y_nonneg : 0 ≤ visible.y := top ▸ Int.le_max_left _ _
  exact holds_iff.mpr ⟨⟨x_nonneg, Int.le_trans right_le across⟩, y_nonneg,
    Int.le_trans bottom_le down⟩

theorem check_eq_ok {r : Raster} {rect : Rect} : r.check rect = .ok () ↔ r.holds rect = true := by
  unfold check
  split <;> simp_all

theorem holds_of_checkCopy {r : Raster} {dest : Rect} {offset : Point}
    (h : r.checkCopy dest offset = .ok ()) : r.holds dest = true := by
  refine check_eq_ok.mp ?_
  cases first : r.check dest with
  | error e =>
      rw [checkCopy, first] at h
      cases h
  | ok => rfl

theorem holds_of_checkImage {r : Raster} {dest : Rect} {stride length : Nat}
    (h : r.checkImage dest stride length = .ok ()) : r.holds dest = true := by
  refine check_eq_ok.mp ?_
  cases first : r.check dest with
  | error e =>
      rw [checkImage, first] at h
      cases h
  | ok => rfl

/-! ## Recoloring -/

theorem getElem?_recolorRun (pixels : Array Rgba) (start count : Nat) (f : Nat → Rgba → Rgba)
    (k : Nat) :
    (recolorRun pixels start count f)[k]? =
      if start ≤ k ∧ k < start + count then pixels[k]?.map (f (k - start)) else pixels[k]? := by
  induction count with
  | zero =>
      rw [if_neg (by omega)]
      rfl
  | succ count ih =>
      have step : recolorRun pixels start (count + 1) f =
          (recolorRun pixels start count f).modify (start + count) (f count) := by
        simp [recolorRun, List.range_succ]
      rw [step, Array.getElem?_modify, ih]
      by_cases last : start + count = k
      · subst last
        rw [if_pos rfl, if_neg (by omega), if_pos (by omega), Nat.add_sub_cancel_left]
      · rw [if_neg last]
        by_cases inside : start ≤ k ∧ k < start + count
        · rw [if_pos inside, if_pos (by omega)]
        · rw [if_neg inside, if_neg (by omega)]

theorem pixel?_recolorRow (r : Raster) {left y count : Nat} (fits : left + count ≤ r.width)
    (f : Nat → Rgba → Rgba) (x' y' : Nat) :
    (r.recolorRow left y count f).pixel? x' y' =
      if y' = y ∧ left ≤ x' ∧ x' < left + count then (r.pixel? x' y').map (f (x' - left))
      else r.pixel? x' y' := by
  by_cases inside : x' < r.width ∧ y' < r.height
  · have run := mem_run_iff (y := y) (v := y') inside.1 fits
    rw [pixel?_of_lt r inside.1 inside.2,
      pixel?_of_lt (r.recolorRow left y count f) inside.1 inside.2]
    show (recolorRun _ (y * r.width + left) _ _)[y' * r.width + x']? = _
    rw [getElem?_recolorRun]
    by_cases row : y' = y ∧ left ≤ x' ∧ x' < left + count
    · rw [if_pos (run.mpr row), if_pos row]
      obtain ⟨rfl, -, -⟩ := row
      rw [Nat.add_sub_add_left]
      rfl
    · rw [if_neg (fun mem => row (run.mp mem)), if_neg row]
      rfl
  · rw [pixel?_eq_none r inside, pixel?_eq_none (r.recolorRow left y count f) inside]
    simp

/-- Steps that keep the size of a raster keep it one after another. -/
theorem size_foldl {step : Raster → Nat → Raster}
    (keeps : ∀ r j, (step r j).width = r.width ∧ (step r j).height = r.height) (rows : List Nat)
    (r : Raster) :
    (rows.foldl step r).width = r.width ∧ (rows.foldl step r).height = r.height := by
  induction rows generalizing r with
  | nil => exact ⟨rfl, rfl⟩
  | cons j rows ih =>
      obtain ⟨width, height⟩ := ih (step r j)
      obtain ⟨width', height'⟩ := keeps r j
      exact ⟨width.trans width', height.trans height'⟩

@[simp] theorem width_recolor (r : Raster) (rect : Rect) (f : Nat → Nat → Rgba → Rgba) :
    (r.recolor rect f).width = r.width := by
  refine (size_foldl ?_ (List.range rect.height) r).1
  exact fun _ _ => ⟨rfl, rfl⟩

@[simp] theorem height_recolor (r : Raster) (rect : Rect) (f : Nat → Nat → Rgba → Rgba) :
    (r.recolor rect f).height = r.height := by
  refine (size_foldl ?_ (List.range rect.height) r).2
  exact fun _ _ => ⟨rfl, rfl⟩

@[simp] theorem width_copyBlock (r : Raster) (dest : Rect) (offset : Point) :
    (r.copyBlock dest offset).width = r.width := by
  refine (size_foldl ?_ _ r).1
  exact fun _ _ => ⟨rfl, rfl⟩

@[simp] theorem height_copyBlock (r : Raster) (dest : Rect) (offset : Point) :
    (r.copyBlock dest offset).height = r.height := by
  refine (size_foldl ?_ _ r).2
  exact fun _ _ => ⟨rfl, rfl⟩

/-- The block of the first `height + 1` rows is that of the first `height` and one row more. -/
theorem recolor_succ (r : Raster) (x y : Int) (width height : Nat) (f : Nat → Nat → Rgba → Rgba) :
    r.recolor ⟨x, y, width, height + 1⟩ f =
      (r.recolor ⟨x, y, width, height⟩ f).recolorRow x.toNat (y.toNat + height) width
        (fun i => f i height) := by
  simp [recolor, List.range_succ]

/-- **What recoloring a block does to a pixel.** -/
theorem pixel?_recolor (r : Raster) {rect : Rect} (h : r.holds rect = true)
    (f : Nat → Nat → Rgba → Rgba) (x y : Nat) :
    (r.recolor rect f).pixel? x y =
      if rect.Covers x y then (r.pixel? x y).map (f (x - rect.x.toNat) (y - rect.y.toNat))
      else r.pixel? x y := by
  obtain ⟨left, top, width, height⟩ := rect
  obtain ⟨⟨left_nonneg, left_fits⟩, top_nonneg, -⟩ := holds_iff.mp h
  dsimp only at left_nonneg left_fits top_nonneg
  clear h
  induction height with
  | zero =>
      rw [if_neg (by rw [Rect.covers_mk]; omega)]
      rfl
  | succ height ih =>
      rw [recolor_succ, pixel?_recolorRow _ (by rw [width_recolor]; omega), ih]
      simp only [Rect.covers_mk]
      by_cases column : left.toNat ≤ x ∧ x < left.toNat + width
      · by_cases last : y = top.toNat + height
        · rw [if_pos ⟨last, column⟩, if_neg (by omega), if_pos (by omega), last,
            Nat.add_sub_cancel_left]
        · rw [if_neg (fun at_row => last at_row.1)]
          by_cases before : top.toNat ≤ y ∧ y < top.toNat + height
          · rw [if_pos (by omega), if_pos (by omega)]
          · rw [if_neg (by omega), if_neg (by omega)]
      · rw [if_neg (fun at_row => column at_row.2), if_neg (by omega), if_neg (by omega)]

/-! ## Drawing -/

@[simp] theorem width_paint (r : Raster) (rect : Rect) (color : Rgba) :
    (r.paint rect color).width = r.width := width_recolor _ _ _

@[simp] theorem height_paint (r : Raster) (rect : Rect) (color : Rgba) :
    (r.paint rect color).height = r.height := height_recolor _ _ _

@[simp] theorem width_overlay (r : Raster) (rect : Rect) (source : Array Rgba) (stride : Nat) :
    (r.overlay rect source stride).width = r.width := width_recolor _ _ _

@[simp] theorem height_overlay (r : Raster) (rect : Rect) (source : Array Rgba) (stride : Nat) :
    (r.overlay rect source stride).height = r.height := height_recolor _ _ _

/-- Where `source` covers a block without gaps, a pixel of the block gets its color from it. -/
theorem pixel?_overlay (r : Raster) {rect : Rect} (h : r.holds rect = true) (source : Array Rgba)
    (x y : Nat) :
    (r.overlay rect source 0).pixel? x y =
      if rect.Covers x y then
        (r.pixel? x y).map
          (source[(y - rect.y.toNat) * rect.width + (x - rect.x.toNat)]?.getD ·)
      else r.pixel? x y :=
  pixel?_recolor r h _ x y

theorem overlay_of_not_covers (r : Raster) {rect : Rect} (h : r.holds rect = true)
    (source : Array Rgba) {x y : Nat} (outside : ¬ rect.Covers x y) :
    (r.overlay rect source 0).pixel? x y = r.pixel? x y := by
  rw [pixel?_overlay r h, if_neg outside]

theorem paint_of_not_covers (r : Raster) {rect : Rect} (h : r.holds rect = true) (color : Rgba)
    {x y : Nat} (outside : ¬ rect.Covers x y) : (r.paint rect color).pixel? x y = r.pixel? x y := by
  rw [paint, pixel?_recolor r h, if_neg outside]

/-- Copying to a block touches no pixel outside it, in whatever order the rows go. -/
theorem copyBlock_of_not_covers (r : Raster) {dest : Rect} (h : r.holds dest = true)
    (offset : Point) {x y : Nat} (outside : ¬ dest.Covers x y) :
    (r.copyBlock dest offset).pixel? x y = r.pixel? x y := by
  obtain ⟨⟨left, right⟩, top, -⟩ := holds_iff.mp h
  have rows {j : Nat} (mem : j ∈ if offset.y < 0 then (List.range dest.height).reverse
      else List.range dest.height) : j < dest.height := by
    split at mem
    · exact List.mem_range.mp (List.mem_reverse.mp mem)
    · exact List.mem_range.mp mem
  refine (List.foldlRecOn (motive := fun s : Raster =>
    s.width = r.width ∧ s.pixel? x y = r.pixel? x y) _ _ ⟨rfl, rfl⟩ ?_).2
  rintro s ⟨width, same⟩ j mem
  have row := rows mem
  refine ⟨width, ?_⟩
  rw [copyRow, pixel?_recolorRow _ (by omega), if_neg, same]
  unfold Rect.Covers at outside
  omega

@[simp] theorem holds_overlay (r : Raster) (dest rect : Rect) (source : Array Rgba) (stride : Nat) :
    (r.overlay dest source stride).holds rect = r.holds rect := by
  simp only [holds, width_overlay, height_overlay]

/-! ## Row by row -/

/-- What `f` says of each column and row, row by row. -/
def rowMajor {α : Type} (width height : Nat) (f : Nat → Nat → α) : List α :=
  (List.range height).flatMap fun j => (List.range width).map fun i => f i j

section

variable {α β : Type} (width height : Nat) (f : Nat → Nat → α)

theorem rowMajor_succ : rowMajor width (height + 1) f =
    rowMajor width height f ++ (List.range width).map fun i => f i height := by
  simp [rowMajor, List.range_succ]

@[simp] theorem length_rowMajor : (rowMajor width height f).length = width * height := by
  induction height with
  | zero => rfl
  | succ height ih => rw [rowMajor_succ, List.length_append, ih, Nat.mul_succ]; simp

theorem map_rowMajor (g : α → β) :
    (rowMajor width height f).map g = rowMajor width height fun i j => g (f i j) := by
  simp only [rowMajor, List.map_flatMap, List.map_map]
  rfl

theorem map_range_eq_rowMajor :
    (List.range (width * height)).map (fun i => f (i % width) (i / width)) =
      rowMajor width height f := by
  induction height with
  | zero => rfl
  | succ height ih =>
      rw [Nat.mul_succ, List.range_add, List.map_append, ih, rowMajor_succ, List.map_map]
      refine congrArg (rowMajor width height f ++ ·) (List.map_congr_left fun i mem => ?_)
      have lt := List.mem_range.mp mem
      show f ((width * height + i) % width) ((width * height + i) / width) = f i height
      rw [Nat.mul_add_mod, Nat.mod_eq_of_lt lt, Nat.mul_add_div (Nat.zero_lt_of_lt lt),
        Nat.div_eq_of_lt lt, Nat.add_zero]

variable {width height}

theorem getElem?_rowMajor {i j : Nat} (hi : i < width) (hj : j < height) :
    (rowMajor width height f)[j * width + i]? = some (f i j) := by
  induction height with
  | zero => omega
  | succ height ih =>
      have length := length_rowMajor width height f
      rw [Nat.mul_comm] at length
      rw [rowMajor_succ]
      by_cases last : j = height
      · subst last
        rw [List.getElem?_append_right (by omega), length, Nat.add_sub_cancel_left]
        simp [hi]
      · have before : j < height := by omega
        have row := place_lt hi before
        rw [Nat.mul_comm width] at row
        rw [List.getElem?_append_left (by omega), ih before]

/-- What an image says of the pixels of a block, row by row. -/
def valuesOf (rect : Rect) (image : Nat → Nat → α) : List α :=
  rowMajor rect.width rect.height fun i j => image (rect.x.toNat + i) (rect.y.toNat + j)

@[simp] theorem length_valuesOf (rect : Rect) (image : Nat → Nat → α) :
    (valuesOf rect image).length = rect.area := length_rowMajor _ _ _

theorem map_valuesOf (rect : Rect) (image : Nat → Nat → α) (g : α → β) :
    (valuesOf rect image).map g = valuesOf rect fun x y => g (image x y) := map_rowMajor _ _ _ _

theorem mem_valuesOf {rect : Rect} (right : 0 ≤ rect.x) (below : 0 ≤ rect.y)
    {image : Nat → Nat → α} {a : α} :
    a ∈ valuesOf rect image ↔ ∃ x y : Nat, rect.Covers x y ∧ image x y = a := by
  simp only [valuesOf, rowMajor, List.mem_flatMap, List.mem_map, List.mem_range]
  unfold Rect.Covers
  constructor
  · rintro ⟨j, hj, i, hi, rfl⟩
    exact ⟨_, _, by omega, rfl⟩
  · rintro ⟨x, y, covered, rfl⟩
    refine ⟨y - rect.y.toNat, by omega, x - rect.x.toNat, by omega, ?_⟩
    rw [show rect.x.toNat + (x - rect.x.toNat) = x by omega,
      show rect.y.toNat + (y - rect.y.toNat) = y by omega]

theorem getElem?_valuesOf {r : Raster} {rect : Rect} (held : r.holds rect = true)
    (image : Nat → Nat → α) {x y : Nat} (covered : rect.Covers x y) :
    (valuesOf rect image)[(y - rect.y.toNat) * rect.width + (x - rect.x.toNat)]? =
      some (image x y) := by
  have held := holds_iff.mp held
  unfold Rect.Covers at covered
  rw [valuesOf, getElem?_rowMajor _ (by omega) (by omega),
    show rect.x.toNat + (x - rect.x.toNat) = x by omega,
    show rect.y.toNat + (y - rect.y.toNat) = y by omega]

end

/-! ## The pixels of a block -/

/-- The pixels of the first `height + 1` rows are those of the first `height` and one row more. -/
theorem block_succ (r : Raster) (x y : Int) (width height : Nat) :
    r.block ⟨x, y, width, height + 1⟩ = r.block ⟨x, y, width, height⟩ ++
      r.pixels.extract (r.index x.toNat (y.toNat + height))
        (r.index x.toNat (y.toNat + height) + width) := by
  simp [block, List.range_succ]

theorem row_le (r : Raster) {left row width : Nat} (hx : left + width ≤ r.width)
    (hy : row < r.height) : r.index left row + width ≤ r.pixels.size := by
  rcases Nat.eq_zero_or_pos width with rfl | pos
  · have step := Nat.mul_le_mul_right r.width hy
    rw [r.size_pixels, Nat.mul_comm r.width, index]
    rw [Nat.succ_mul] at step
    omega
  · have last := r.index_lt (x := left + width - 1) (by omega) hy
    unfold index at last ⊢
    omega

theorem size_row (r : Raster) {left row width : Nat} (hx : left + width ≤ r.width)
    (hy : row < r.height) :
    (r.pixels.extract (r.index left row) (r.index left row + width)).size = width := by
  have stop := r.row_le hx hy
  rw [Array.size_extract]
  omega

theorem size_block (r : Raster) {rect : Rect} (h : r.holds rect = true) :
    (r.block rect).size = rect.height * rect.width := by
  obtain ⟨left, top, width, height⟩ := rect
  obtain ⟨⟨-, left_fits⟩, -, top_fits⟩ := holds_iff.mp h
  dsimp only at left_fits top_fits
  have top_nonneg := (holds_iff.mp h).2.1
  have left_nonneg := (holds_iff.mp h).1.1
  dsimp only at top_nonneg left_nonneg ⊢
  clear h
  induction height with
  | zero => simp [block]
  | succ height ih =>
      rw [block_succ, Array.size_append, ih (by omega), size_row r (by omega) (by omega),
        Nat.succ_mul]

/-- Number `j * width + i` of a block's pixels is the one of column `i` and row `j` in it. -/
theorem getElem?_block (r : Raster) {rect : Rect} (h : r.holds rect = true) {i j : Nat}
    (hi : i < rect.width) (hj : j < rect.height) :
    (r.block rect)[j * rect.width + i]? = r.pixel? (rect.x.toNat + i) (rect.y.toNat + j) := by
  obtain ⟨left, top, width, height⟩ := rect
  dsimp only at hi hj ⊢
  induction height with
  | zero => omega
  | succ height ih =>
      have held := holds_iff.mp h
      dsimp only at held
      have init : r.holds ⟨left, top, width, height⟩ = true := by
        rw [holds_iff]
        dsimp only
        omega
      have size := r.size_block init
      dsimp only at size
      rw [block_succ]
      by_cases last : j = height
      · subst last
        rw [Array.getElem?_append_right (by omega), size, Nat.add_sub_cancel_left,
          Array.getElem?_extract_of_lt
            (by rw [← Array.size_extract, size_row r (by omega) (by omega)]; exact hi),
          pixel?_of_lt r (by omega) (by omega), ← Array.getElem?_eq_getElem]
        simp only [index]
        congr 1
        omega
      · have before : j < height := by omega
        have row := Nat.mul_le_mul_right width before
        rw [Nat.succ_mul] at row
        rw [Array.getElem?_append_left (by omega), ih init before]

end RemoteFramebuffer.Raster
