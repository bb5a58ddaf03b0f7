/-
# `RemoteFramebuffer.Proofs.Geometry.Tiling` — a rectangle is cut into its tiles

A walk over a rectangle knows no indices.  Before the tile of an index it stands where that tile
starts, and its step goes to where the next one does:

    next (walkAt i) = some (tileAt i, walkAt (i + 1))      for the indices of tiles
    next (walkAt n) = none                                 for their number n

so a walk yields the tiles in the order of their indices and ends (`yields_tiles`).  The tiles make
up the rectangle: each pixel of it is covered by one of them and no other pixel by any, and their
areas, summed up by columns and rows, are its area (`isCutInto_tiles`).

Both are told of rectangles and tiles for which no sum on the way leaves its word.
-/
import Mathlib.Algebra.Order.Floor.Div
import Mathlib.Algebra.BigOperators.Ring.List
import RemoteFramebuffer.Proofs.Raster

namespace RemoteFramebuffer
namespace Rect

/-! ## Sums that fit -/

/-- What is added up along one side while an extent is cut into tiles: the edges and the places
where tiles start are signed words, and what is counted up to is an unsigned one. -/
structure SpanFits (start : Int) (extent step : Nat) : Prop where
  first : -0x80000000 ≤ start
  last : start + extent < 0x80000000
  starts : ∀ k < tilesAcross extent step, k * max step 1 < 0x80000000
  counter : tilesAcross extent step * max step 1 < 0x100000000

/-- The sums of both sides fit. -/
structure EdgesFit (r : Rect) (tileWidth tileHeight : Nat) : Prop where
  across : SpanFits r.x r.width tileWidth
  down : SpanFits r.y r.height tileHeight

/-- They do if the extent is a signed word and the step is one of 31 bits. -/
theorem spanFits_of_small {start : Int} {extent step : Nat} (first : -0x80000000 ≤ start)
    (last : start + extent < 0x80000000) (small : extent < 0x80000000)
    (step_le : step ≤ 0x80000000) : SpanFits start extent step := by
  refine ⟨first, last, fun k among => Nat.lt_trans (tile_start_lt among) small, ?_⟩
  have whole : tilesAcross extent step * max step 1 ≤ extent + max step 1 - 1 :=
    Nat.div_mul_le_self _ _
  omega

theorem SpanFits.counter_lt {start : Int} {extent step k : Nat} (fits : SpanFits start extent step)
    (among : k < tilesAcross extent step) : k * max step 1 + max step 1 < 0x100000000 := by
  rw [← Nat.succ_mul]
  exact Nat.lt_of_le_of_lt (Nat.mul_le_mul_right _ among) fits.counter

/-- The place where a tile starts, which lies before the edge behind it. -/
theorem SpanFits.place {start : Int} {extent step k : Nat} (fits : SpanFits start extent step)
    (among : k < tilesAcross extent step) :
    -0x80000000 ≤ start + signed32 (k * max step 1) ∧
      start + signed32 (k * max step 1) < 0x80000000 := by
  have before := tile_start_lt among
  obtain ⟨first, last, starts, -⟩ := fits
  rw [signed32_of_lt (starts k among)]
  omega

namespace Walk

/-- All that a step adds up or takes away is a word. -/
structure Fits (w : Walk) : Prop where
  counter : w.dx + w.tileWidth < 0x100000000 ∧ w.dy + w.tileHeight < 0x100000000
  inside : w.dx ≤ w.area.width ∧ w.dy ≤ w.area.height
  place : (-0x80000000 ≤ w.area.x + signed32 w.dx ∧ w.area.x + signed32 w.dx < 0x80000000) ∧
    -0x80000000 ≤ w.area.y + signed32 w.dy ∧ w.area.y + signed32 w.dy < 0x80000000

/-- A walk that goes over these tiles and ends, by steps whose sums fit. -/
inductive Yields : Walk → List Rect → Prop
  | done {w : Walk} : w.next = none → Yields w []
  | step {w rest : Walk} {tile : Rect} {tiles : List Rect} :
      w.Fits → w.next = some (tile, rest) → Yields rest tiles → Yields w (tile :: tiles)

end Walk

/-! ## From tile to tile -/

variable {r : Rect} {tileWidth tileHeight index : Nat}

def walkAt (r : Rect) (tileWidth tileHeight index : Nat) : Walk where
  area := r
  tileWidth := max tileWidth 1
  tileHeight := max tileHeight 1
  dx := index % tilesAcross r.width tileWidth * max tileWidth 1
  dy := index / tilesAcross r.width tileWidth * max tileHeight 1

theorem walkAt_zero : r.walkAt tileWidth tileHeight 0 = r.walk tileWidth tileHeight := by
  rw [walkAt, walk, Nat.zero_mod, Nat.zero_div, Nat.zero_mul, Nat.zero_mul]

theorem next_in_row {columns : Nat} (goesOn : index % columns + 1 < columns) :
    (index + 1) / columns = index / columns ∧ (index + 1) % columns = index % columns + 1 := by
  have place := Nat.div_add_mod index columns
  exact (Nat.div_mod_unique (by omega)).mpr ⟨by omega, goesOn⟩

theorem next_row {columns : Nat} (last : index % columns + 1 = columns) :
    (index + 1) / columns = index / columns + 1 ∧ (index + 1) % columns = 0 := by
  have place := Nat.div_add_mod index columns
  refine (Nat.div_mod_unique (by omega)).mpr ⟨?_, by omega⟩
  rw [Nat.mul_succ]
  omega

/-- A walk that has not come to the end finds the tile where it stands. -/
theorem Walk.next_of_lt {w : Walk} (inX : w.dx < w.area.width) (inY : w.dy < w.area.height) :
    w.next = some (w.tile, w.moveOn) := by
  have hasPixels : w.area.isEmpty = false := isEmpty_eq_false.mpr ⟨by omega, by omega⟩
  rw [next, hasPixels, Bool.false_or, decide_eq_false (Nat.not_le.mpr inY)]
  rfl

theorem Walk.next_of_le {w : Walk} (below : w.area.isEmpty = true ∨ w.area.height ≤ w.dy) :
    w.next = none := by
  rw [next, if_pos]
  rw [Bool.or_eq_true, decide_eq_true_eq]
  exact below

/-- **One step.**  The walk before a tile finds it and goes on before the next. -/
theorem next_walkAt (h : index < r.tileCount tileWidth tileHeight) :
    (r.walkAt tileWidth tileHeight index).next =
      some (r.tileAt tileWidth tileHeight index, r.walkAt tileWidth tileHeight (index + 1)) := by
  obtain ⟨startX, startY⟩ := starts_lt h
  have columns : 0 < tilesAcross r.width tileWidth := Nat.pos_of_mul_pos_right (Nat.zero_lt_of_lt h)
  have within := Nat.mod_lt index columns
  -- The row ends at this tile just if no column is left.
  have ends : r.width ≤ index % tilesAcross r.width tileWidth * max tileWidth 1 + max tileWidth 1 ↔
      index % tilesAcross r.width tileWidth + 1 = tilesAcross r.width tileWidth := by
    rw [← Nat.succ_mul, ← tilesAcross_le_iff]
    omega
  rw [Walk.next_of_lt startX startY]
  refine congrArg (fun rest => some (r.tileAt tileWidth tileHeight index, rest)) ?_
  rw [walkAt, walkAt, Walk.moveOn]
  dsimp only
  split
  · rename_i edge
    obtain ⟨row, column⟩ := next_row (ends.mp edge)
    rw [row, column, Nat.zero_mul, Nat.succ_mul]
  · rename_i inner
    obtain ⟨row, column⟩ := next_in_row (Nat.lt_of_le_of_ne within fun last => inner (ends.mpr last))
    rw [row, column, Nat.succ_mul]

theorem next_walkAt_tileCount :
    (r.walkAt tileWidth tileHeight (r.tileCount tileWidth tileHeight)).next = none := by
  refine Walk.next_of_le (or_iff_not_imp_left.mpr fun hasPixels => ?_)
  have columns : 0 < tilesAcross r.width tileWidth := by
    have wide := (isEmpty_eq_false.mp (Bool.eq_false_iff.mpr hasPixels)).1
    exact Nat.zero_lt_of_lt (div_lt_tilesAcross wide)
  show r.height ≤ tilesAcross r.width tileWidth * tilesAcross r.height tileHeight /
    tilesAcross r.width tileWidth * max tileHeight 1
  rw [Nat.mul_div_cancel_left _ columns]
  exact tilesAcross_le_iff.mp (Nat.le_refl _)

/-- The column and the row of a tile are among those of the rectangle. -/
theorem column_row_lt (h : index < r.tileCount tileWidth tileHeight) :
    index % tilesAcross r.width tileWidth < tilesAcross r.width tileWidth ∧
      index / tilesAcross r.width tileWidth < tilesAcross r.height tileHeight :=
  ⟨Nat.mod_lt index (Nat.pos_of_mul_pos_right (Nat.zero_lt_of_lt h)), Nat.div_lt_of_lt_mul h⟩

theorem fits_walkAt (fits : r.EdgesFit tileWidth tileHeight)
    (h : index < r.tileCount tileWidth tileHeight) :
    (r.walkAt tileWidth tileHeight index).Fits := by
  obtain ⟨startX, startY⟩ := starts_lt h
  obtain ⟨column, row⟩ := column_row_lt h
  exact ⟨⟨fits.across.counter_lt column, fits.down.counter_lt row⟩, ⟨startX.le, startY.le⟩,
    fits.across.place column, fits.down.place row⟩

theorem yields_walkAt (fits : r.EdgesFit tileWidth tileHeight) (left : Nat) :
    ∀ index, index + left = r.tileCount tileWidth tileHeight →
      (r.walkAt tileWidth tileHeight index).Yields
        ((List.range' index left).map (r.tileAt tileWidth tileHeight)) := by
  induction left with
  | zero =>
    rintro index rfl
    exact .done next_walkAt_tileCount
  | succ left ih =>
    intro index total
    have among : index < r.tileCount tileWidth tileHeight := by omega
    rw [List.range'_succ, List.map_cons]
    exact .step (fits_walkAt fits among) (next_walkAt among) (ih (index + 1) (by omega))

/-- **A walk over a rectangle goes over its tiles and ends.** -/
theorem yields_tiles (fits : r.EdgesFit tileWidth tileHeight) :
    (r.walk tileWidth tileHeight).Yields (r.tiles tileWidth tileHeight) := by
  rw [← walkAt_zero, tiles, List.range_eq_range']
  exact yields_walkAt fits _ 0 (Nat.zero_add _)

/-- Running over the tiles one at a time is running over the list of them. -/
theorem foldTiles_eq_foldlM {m : Type → Type} [Monad m] {σ : Type} (body : σ → Rect → m σ) (s : σ) :
    r.foldTiles tileWidth tileHeight body s = (r.tiles tileWidth tileHeight).foldlM body s := by
  have go (count : Nat) : ∀ index s, r.foldTilesFrom tileWidth tileHeight body count index s =
      ((List.range' index count).map (r.tileAt tileWidth tileHeight)).foldlM body s := by
    induction count with
    | zero => exact fun _ _ => rfl
    | succ count ih =>
      intro index s
      rw [List.range'_succ, List.map_cons, List.foldlM_cons, foldTilesFrom]
      exact bind_congr fun s => ih (index + 1) s
  rw [foldTiles, tiles, List.range_eq_range', go]

/-! ## What the tiles make up -/

/-- The tiles of a size that a rectangle is cut into, row by row. -/
structure IsCutInto (r : Rect) (width height : Nat) (tiles : List Rect) : Prop where
  /-- As many as the rectangle has columns and rows of tiles, the last ones perhaps narrower. -/
  length_eq : tiles.length =
    if r.isEmpty = true then 0 else (r.width ⌈/⌉ width) * (r.height ⌈/⌉ height)
  hasPixels : ∀ tile ∈ tiles, tile.HasPixels
  /-- Only at the right edge is a tile narrower, and there it ends at the edge. -/
  width_eq : ∀ tile ∈ tiles, tile.width = width ∨
    tile.width < width ∧ tile.x + tile.width = r.x + r.width
  height_eq : ∀ tile ∈ tiles, tile.height = height ∨
    tile.height < height ∧ tile.y + tile.height = r.y + r.height
  rasterOrder : tiles.Pairwise fun before behind =>
    before.y < behind.y ∨ before.y = behind.y ∧ before.x < behind.x
  /-- A pixel of the rectangle is covered by just one tile, any other pixel by none. -/
  covered : ∀ x y, tiles.countP (fun tile => tile.Covers x y) = if r.Covers x y then 1 else 0
  /-- The same of the points that are contained, which the edges of a rectangle decide. -/
  contained : r.width < 0x80000000 → r.height < 0x80000000 →
    ∀ p, tiles.countP (fun tile => tile.contains p) = if r.contains p = true then 1 else 0
  area_eq : (tiles.map area).sum = r.area

theorem tileAt_eq (fits : r.EdgesFit tileWidth tileHeight)
    (h : index < r.tileCount tileWidth tileHeight) :
    r.tileAt tileWidth tileHeight index =
      { x := r.x + (index % tilesAcross r.width tileWidth * max tileWidth 1 : Nat)
        y := r.y + (index / tilesAcross r.width tileWidth * max tileHeight 1 : Nat)
        width := min (max tileWidth 1)
          (r.width - index % tilesAcross r.width tileWidth * max tileWidth 1)
        height := min (max tileHeight 1)
          (r.height - index / tilesAcross r.width tileWidth * max tileHeight 1) } := by
  obtain ⟨column, row⟩ := column_row_lt h
  rw [tileAt, signed32_of_lt (fits.across.starts _ column), signed32_of_lt (fits.down.starts _ row)]

theorem forall_mem_tiles {P : Rect → Prop} :
    (∀ tile ∈ r.tiles tileWidth tileHeight, P tile) ↔
      ∀ index < r.tileCount tileWidth tileHeight, P (r.tileAt tileWidth tileHeight index) := by
  simp only [tiles, List.forall_mem_map, List.mem_range]

/-- The tiles stand in raster order: later ones lie in a later column of the row, or in a later
row. -/
theorem rasterOrder_tiles (fits : r.EdgesFit tileWidth tileHeight) :
    (r.tiles tileWidth tileHeight).Pairwise fun before behind =>
      before.y < behind.y ∨ before.y = behind.y ∧ before.x < behind.x := by
  rw [tiles, List.pairwise_map]
  refine List.pairwise_lt_range.imp_of_mem fun {i j} memI memJ lt => ?_
  rw [List.mem_range] at memI memJ
  rw [tileAt_eq fits memI, tileAt_eq fits memJ]
  dsimp only
  rcases Nat.lt_or_eq_of_le (Nat.div_le_div_right (c := tilesAcross r.width tileWidth) lt.le)
    with row | row
  · have rows := Nat.mul_lt_mul_of_pos_right row (show 0 < max tileHeight 1 by omega)
    omega
  · have placeI := Nat.div_add_mod i (tilesAcross r.width tileWidth)
    have placeJ := Nat.div_add_mod j (tilesAcross r.width tileWidth)
    rw [row] at placeI ⊢
    have column : i % tilesAcross r.width tileWidth < j % tilesAcross r.width tileWidth := by omega
    have columns := Nat.mul_lt_mul_of_pos_right column (show 0 < max tileWidth 1 by omega)
    omega

/-- Each pixel of the rectangle is covered by the tile of its index and by no other. -/
theorem countP_covers (fits : r.EdgesFit tileWidth tileHeight) (x y : Int) :
    (r.tiles tileWidth tileHeight).countP (fun tile => tile.Covers x y) =
      if r.Covers x y then 1 else 0 := by
  have covers {i : Nat} (h : i ∈ List.range (r.tileCount tileWidth tileHeight)) :
      (r.tileAt tileWidth tileHeight i).Covers x y ↔
        r.Covers x y ∧ r.tileIndex tileWidth tileHeight x y = i := by
    rw [List.mem_range] at h
    obtain ⟨column, row⟩ := column_row_lt h
    exact covers_tileAt_of_starts ⟨fits.across.starts _ column, fits.down.starts _ row⟩ h x y
  rw [tiles, List.countP_map]
  split
  · rename_i inside
    have one : List.countP ((fun tile => decide (tile.Covers x y)) ∘ r.tileAt tileWidth tileHeight)
        (List.range (r.tileCount tileWidth tileHeight)) =
        List.count (r.tileIndex tileWidth tileHeight x y)
          (List.range (r.tileCount tileWidth tileHeight)) := by
      refine List.countP_congr fun i mem => ?_
      simp only [Function.comp_apply, decide_eq_true_eq, covers mem, inside, true_and, beq_iff_eq]
      exact eq_comm
    rw [one, List.count_range, if_pos (tileIndex_lt inside tileWidth tileHeight)]
  · rename_i outside
    refine List.countP_eq_zero.mpr fun i mem => ?_
    simp only [Function.comp_apply, decide_eq_true_eq, covers mem, outside, false_and,
      not_false_eq_true]

/-! ## Areas -/

/-- Along one side, so many tiles reach as far as they do, or to the end. -/
theorem sum_clipped (extent step count : Nat) :
    ((List.range count).map fun k => min step (extent - k * step)).sum = min extent (count * step) := by
  induction count with
  | zero => simp
  | succ count ih =>
    rw [List.range_succ, List.map_append, List.sum_append, ih, List.map_singleton,
      List.sum_singleton, Nat.succ_mul]
    omega

/-- The products of what belongs to columns and rows, summed up row by row. -/
theorem sum_rowMajor_mul (columns rows : Nat) (f g : Nat → Nat) :
    (Raster.rowMajor columns rows fun i j => f i * g j).sum =
      ((List.range columns).map f).sum * ((List.range rows).map g).sum := by
  induction rows with
  | zero => simp [Raster.rowMajor]
  | succ rows ih =>
    rw [Raster.rowMajor_succ, List.sum_append, ih, List.sum_map_mul_right, List.range_succ,
      List.map_append, List.sum_append, List.map_singleton, List.sum_singleton, Nat.mul_add]

theorem sum_area_tiles :
    ((r.tiles tileWidth tileHeight).map area).sum = r.area := by
  have all (extent step : Nat) :
      ((List.range (tilesAcross extent step)).map
        fun k => min (max step 1) (extent - k * max step 1)).sum = extent := by
    rw [sum_clipped, Nat.min_eq_left (tilesAcross_le_iff.mp (Nat.le_refl _))]
  have areas : (r.tiles tileWidth tileHeight).map area =
      Raster.rowMajor (tilesAcross r.width tileWidth) (tilesAcross r.height tileHeight) fun i j =>
        min (max tileWidth 1) (r.width - i * max tileWidth 1) *
          min (max tileHeight 1) (r.height - j * max tileHeight 1) := by
    rw [tiles, List.map_map, ← Raster.map_range_eq_rowMajor, tileCount]
    rfl
  rw [areas, sum_rowMajor_mul, all, all, area]

/-! ## The cut -/

theorem length_tiles : (r.tiles tileWidth tileHeight).length =
    if r.isEmpty = true then 0
    else (r.width ⌈/⌉ max tileWidth 1) * (r.height ⌈/⌉ max tileHeight 1) := by
  have across (extent step : Nat) : tilesAcross extent step = extent ⌈/⌉ max step 1 :=
    (Nat.ceilDiv_eq_add_pred_div _ _).symm
  rw [tiles, List.length_map, List.length_range]
  split
  · rename_i empty
    rw [isEmpty, Bool.or_eq_true, beq_iff_eq, beq_iff_eq] at empty
    have none_across (step : Nat) : tilesAcross 0 step = 0 :=
      Nat.le_zero.mp (tilesAcross_le_iff.mpr (Nat.zero_le _))
    rcases empty with none | none <;> simp [tileCount, none, none_across]
  · rw [tileCount, across, across]

theorem clipped {start : Int} {extent step k : Nat} (starts : k * max step 1 < extent) :
    min (max step 1) (extent - k * max step 1) = max step 1 ∨
      min (max step 1) (extent - k * max step 1) < max step 1 ∧
        start + (k * max step 1 : Nat) + (min (max step 1) (extent - k * max step 1) : Nat) =
          start + extent := by
  omega

theorem countP_contains (fits : r.EdgesFit tileWidth tileHeight)
    (small : r.width < 0x80000000 ∧ r.height < 0x80000000) (p : Point) :
    (r.tiles tileWidth tileHeight).countP (fun tile => tile.contains p) =
      if r.contains p = true then 1 else 0 := by
  have same : (r.tiles tileWidth tileHeight).countP (fun tile => tile.contains p) =
      (r.tiles tileWidth tileHeight).countP (fun tile => tile.Covers p.x p.y) := by
    refine List.countP_congr ((forall_mem_tiles).mpr fun index among => ?_)
    have narrow : (r.tileAt tileWidth tileHeight index).width < 0x80000000 ∧
        (r.tileAt tileWidth tileHeight index).height < 0x80000000 := by
      rw [tileAt_eq fits among]
      dsimp only
      omega
    rw [contains_iff_covers narrow, decide_eq_true_eq]
  rw [same, countP_covers fits]
  exact if_congr (contains_iff_covers small).symm rfl rfl

/-- **The tiles make up the rectangle.** -/
theorem isCutInto_tiles (fits : r.EdgesFit tileWidth tileHeight) :
    r.IsCutInto (max tileWidth 1) (max tileHeight 1) (r.tiles tileWidth tileHeight) where
  length_eq := length_tiles
  hasPixels := forall_mem_tiles.mpr fun index among => by
    obtain ⟨startX, startY⟩ := starts_lt among
    rw [tileAt_eq fits among, HasPixels]
    dsimp only
    omega
  width_eq := forall_mem_tiles.mpr fun index among => by
    rw [tileAt_eq fits among]
    exact clipped (starts_lt among).1
  height_eq := forall_mem_tiles.mpr fun index among => by
    rw [tileAt_eq fits among]
    exact clipped (starts_lt among).2
  rasterOrder := rasterOrder_tiles fits
  covered := countP_covers fits
  contained := fun width height => countP_contains fits ⟨width, height⟩
  area_eq := sum_area_tiles

/-- **A walk over a rectangle ends and has cut it into its tiles.**  No sum of any step leaves its
word.  The tiles have pixels, are of the size asked for but for those that the right or the bottom
edge clips, come in raster order, and are as many as the columns times the rows that they make;
each pixel of the rectangle is in one of them and no other pixel in any; and their areas sum up to
that of the rectangle.  A side of 0 counts as 1. -/
theorem tiles_partition (fits : r.EdgesFit tileWidth tileHeight) :
    (r.walk tileWidth tileHeight).Yields (r.tiles tileWidth tileHeight) ∧
      r.IsCutInto (max tileWidth 1) (max tileHeight 1) (r.tiles tileWidth tileHeight) :=
  ⟨yields_tiles fits, isCutInto_tiles fits⟩

/-- Two columns and three rows of tiles, the last of either narrower, left of and above the origin;
a pixel of the last tile is in no other. -/
theorem tiles_partition_clipped :
    let r : Rect := ⟨-70, -3, 70, 5⟩
    r.EdgesFit 64 2 ∧ (r.walk 64 2).Yields (r.tiles 64 2) ∧
      (r.tiles 64 2).length = 6 ∧ ((r.tiles 64 2).map area).sum = 350 ∧
      (r.tiles 64 2).countP (fun tile => tile.contains ⟨-1, 1⟩) = 1 := by
  intro r
  have fits : r.EdgesFit 64 2 :=
    ⟨spanFits_of_small (by decide) (by decide) (by decide) (by decide),
      spanFits_of_small (by decide) (by decide) (by decide) (by decide)⟩
  obtain ⟨yields, cut⟩ := tiles_partition fits
  have inside : r.contains ⟨-1, 1⟩ = true := by decide
  exact ⟨fits, yields, by decide, cut.area_eq,
    (cut.contained (by decide) (by decide) ⟨-1, 1⟩).trans (if_pos inside)⟩

end Rect
end RemoteFramebuffer
