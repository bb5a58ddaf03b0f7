/-
# `RemoteFramebuffer.Proofs.Geometry` — which pixels a rectangle covers

The edges of a rectangle read its extents as signed words, so they say which pixels it
covers only as long as an extent is below `2^31`.  An extent past that puts the edge before
the position, and the rectangle meets nothing.
-/
import RemoteFramebuffer.Geometry

namespace RemoteFramebuffer

theorem signed32_of_lt {n : Nat} (h : n < 0x80000000) : signed32 n = n := by
  unfold signed32
  rw [Int.bmod_def]
  omega

theorem signed32_le (n : Nat) : signed32 n ≤ n := by
  unfold signed32
  rw [Int.bmod_def]
  omega

theorem signed32_lt (n : Nat) : signed32 n < 0x80000000 := by
  unfold signed32
  rw [Int.bmod_def]
  omega

theorem signed32_of_pos {n : Nat} (word : n < 0x100000000) (pos : 0 < signed32 n) :
    signed32 n = n := by
  unfold signed32 at pos ⊢
  rw [Int.bmod_def] at pos ⊢
  omega

/-- The place of a column and row among so many rows, counted row by row. -/
theorem place_lt {x y width height : Nat} (hx : x < width) (hy : y < height) :
    y * width + x < width * height := by
  have row : (y + 1) * width ≤ height * width := Nat.mul_le_mul_right _ hy
  rw [Nat.succ_mul, Nat.mul_comm height] at row
  omega

namespace Rect

/-- The pixel of column `x` and row `y` lies in the rectangle. -/
def Covers (r : Rect) (x y : Int) : Prop :=
  (r.x ≤ x ∧ x < r.x + r.width) ∧ r.y ≤ y ∧ y < r.y + r.height

instance (r : Rect) (x y : Int) : Decidable (r.Covers x y) := by
  unfold Covers
  infer_instance

theorem covers_mk {x y : Int} {width height : Nat} {i j : Int} :
    (⟨x, y, width, height⟩ : Rect).Covers i j ↔
      (x ≤ i ∧ i < x + width) ∧ y ≤ j ∧ j < y + height := Iff.rfl

def HasPixels (block : Rect) : Prop := 0 < block.width ∧ 0 < block.height

theorem isEmpty_eq_false {block : Rect} : block.isEmpty = false ↔ block.HasPixels := by
  unfold isEmpty HasPixels
  rw [Bool.or_eq_false_iff, beq_eq_false_iff_ne, beq_eq_false_iff_ne]
  omega

theorem right_eq {r : Rect} (small : r.width < 0x80000000) : r.right = r.x + r.width := by
  rw [Rect.right, signed32_of_lt small]

theorem bottom_eq {r : Rect} (small : r.height < 0x80000000) : r.bottom = r.y + r.height := by
  rw [Rect.bottom, signed32_of_lt small]

/-- A rectangle of extents that are signed words contains what it covers. -/
theorem contains_iff_covers {r : Rect} (small : r.width < 0x80000000 ∧ r.height < 0x80000000)
    {p : Point} : r.contains p = true ↔ r.Covers p.x p.y := by
  simp only [contains, right_eq small.1, bottom_eq small.2, Bool.and_eq_true, decide_eq_true_eq,
    Covers, and_assoc]

/-- The extents are words. -/
def IsWord (r : Rect) : Prop := r.width < 0x100000000 ∧ r.height < 0x100000000

theorem intersect_eq_some {a b common : Rect} :
    a.intersect b = some common ↔
      (common.x = max a.x b.x ∧ common.x < min a.right b.right ∧
        common.x + common.width = min a.right b.right) ∧
      common.y = max a.y b.y ∧ common.y < min a.bottom b.bottom ∧
        common.y + common.height = min a.bottom b.bottom := by
  obtain ⟨x, y, width, height⟩ := common
  dsimp only [intersect]
  by_cases apart : min a.right b.right ≤ max a.x b.x ∨ min a.bottom b.bottom ≤ max a.y b.y
  · rw [if_pos apart]
    simp only [reduceCtorEq, false_iff]
    omega
  · rw [if_neg apart, Option.some.injEq, mk.injEq]
    omega

theorem extent_pos_of_intersect {a b common : Rect} (h : a.intersect b = some common) :
    0 < common.width ∧ 0 < common.height := by
  have := intersect_eq_some.mp h
  omega

/-- The common part of two spans.  An edge that lies beyond its span's position is one that
the extent reaches. -/
theorem mem_common_span {a b c aEdge bEdge x : Int} {m n k : Nat} (ha : 0 < aEdge → aEdge = m)
    (hb : 0 < bEdge → bEdge = n) (starts : c = max a b) (meets : c < min (a + aEdge) (b + bEdge))
    (ends : c + k = min (a + aEdge) (b + bEdge)) :
    (c ≤ x ∧ x < c + k) ↔ (a ≤ x ∧ x < a + m) ∧ b ≤ x ∧ x < b + n := by
  have ha : aEdge = m := ha (by omega)
  have hb : bEdge = n := hb (by omega)
  subst ha hb
  omega

/-- What two rectangles have in common covers the pixels that both of them cover. -/
theorem covers_intersect {a b common : Rect} (ha : a.IsWord) (hb : b.IsWord)
    (h : a.intersect b = some common) (x y : Int) :
    common.Covers x y ↔ a.Covers x y ∧ b.Covers x y := by
  obtain ⟨⟨left, meetsX, right⟩, top, meetsY, bottom⟩ := intersect_eq_some.mp h
  unfold Covers
  rw [mem_common_span (signed32_of_pos ha.1) (signed32_of_pos hb.1) left meetsX right,
    mem_common_span (signed32_of_pos ha.2) (signed32_of_pos hb.2) top meetsY bottom]
  exact and_and_and_comm

theorem intersect_isSome_of_covers {a b : Rect} (ha : a.width < 0x80000000 ∧ a.height < 0x80000000)
    (hb : b.width < 0x80000000 ∧ b.height < 0x80000000) {x y : Int} (inA : a.Covers x y)
    (inB : b.Covers x y) : ∃ common, a.intersect b = some common := by
  have aw := signed32_of_lt ha.1
  have ah := signed32_of_lt ha.2
  have bw := signed32_of_lt hb.1
  have bh := signed32_of_lt hb.2
  unfold Covers at inA inB
  refine ⟨⟨max a.x b.x, max a.y b.y, (min a.right b.right - max a.x b.x).toNat,
    (min a.bottom b.bottom - max a.y b.y).toNat⟩, intersect_eq_some.mpr ?_⟩
  unfold right bottom
  rw [aw, ah, bw, bh]
  clear aw ah bw bh
  dsimp only
  omega

/-! ## Tiles -/

/-- So many tiles are enough just if they reach the end of the extent. -/
theorem tilesAcross_le_iff {extent step k : Nat} :
    tilesAcross extent step ≤ k ↔ extent ≤ k * max step 1 := by
  have pos : 0 < max step 1 := by omega
  rw [tilesAcross, ← Nat.lt_succ_iff, Nat.div_lt_iff_lt_mul pos, Nat.succ_mul]
  omega

/-- One of the tiles that an extent needs starts before the extent ends. -/
theorem tile_start_lt {i extent step : Nat} (h : i < tilesAcross extent step) :
    i * max step 1 < extent :=
  Nat.lt_of_not_le fun enough => Nat.not_le_of_lt h (tilesAcross_le_iff.mpr enough)

/-- A pixel of an extent lies in one of the tiles that the extent needs. -/
theorem div_lt_tilesAcross {i extent step : Nat} (h : i < extent) :
    i / max step 1 < tilesAcross extent step := by
  have pos : 0 < max step 1 := by omega
  rw [Nat.div_lt_iff_lt_mul pos]
  exact Nat.lt_of_lt_of_le h (tilesAcross_le_iff.mp (Nat.le_refl _))

theorem starts_lt {r : Rect} {tileWidth tileHeight index : Nat}
    (h : index < r.tileCount tileWidth tileHeight) :
    index % tilesAcross r.width tileWidth * max tileWidth 1 < r.width ∧
      index / tilesAcross r.width tileWidth * max tileHeight 1 < r.height := by
  have columns : 0 < tilesAcross r.width tileWidth := Nat.pos_of_mul_pos_right (Nat.zero_lt_of_lt h)
  exact ⟨tile_start_lt (Nat.mod_lt index columns), tile_start_lt (Nat.div_lt_of_lt_mul h)⟩

theorem tileAt_start_lt {r : Rect} {tileWidth tileHeight index : Nat}
    (small : r.width < 0x80000000 ∧ r.height < 0x80000000) (h : index < r.tileCount tileWidth tileHeight) :
    ((r.tileAt tileWidth tileHeight index).x - r.x).toNat < r.width ∧
      ((r.tileAt tileWidth tileHeight index).y - r.y).toNat < r.height := by
  obtain ⟨dx, dy⟩ := starts_lt h
  dsimp only [tileAt]
  rw [signed32_of_lt (Nat.lt_trans dx small.1), signed32_of_lt (Nat.lt_trans dy small.2)]
  omega

/-- The index of the tile that the pixel of column `x` and row `y` lies in. -/
def tileIndex (r : Rect) (tileWidth tileHeight : Nat) (x y : Int) : Nat :=
  (y - r.y).toNat / max tileHeight 1 * tilesAcross r.width tileWidth +
    (x - r.x).toNat / max tileWidth 1

theorem mem_tile_span {start p : Int} {extent step k : Nat} (small : k * max step 1 < 0x80000000)
    (starts : k * max step 1 < extent) :
    (start + signed32 (k * max step 1) ≤ p ∧
        p < start + signed32 (k * max step 1) +
          (min (max step 1) (extent - k * max step 1) : Nat)) ↔
      (start ≤ p ∧ p < start + extent) ∧ (p - start).toNat / max step 1 = k := by
  have pos : 0 < max step 1 := by omega
  have among : (p - start).toNat / max step 1 = k ↔
      k * max step 1 ≤ (p - start).toNat ∧ (p - start).toNat < k * max step 1 + max step 1 := by
    rw [← Nat.le_div_iff_mul_le pos, ← Nat.succ_mul, ← Nat.div_lt_iff_lt_mul pos]
    omega
  rw [signed32_of_lt small, among]
  omega

theorem tileIndex_lt {r : Rect} {x y : Int} (h : r.Covers x y) (tileWidth tileHeight : Nat) :
    r.tileIndex tileWidth tileHeight x y < r.tileCount tileWidth tileHeight := by
  obtain ⟨⟨left, right⟩, top, bottom⟩ := h
  exact place_lt (div_lt_tilesAcross (by omega)) (div_lt_tilesAcross (by omega))

/-- **The tiles divide the rectangle.**  A tile that starts at signed words covers those pixels of
the rectangle that lie in the tile of its index. -/
theorem covers_tileAt_of_starts {r : Rect} {tileWidth tileHeight index : Nat}
    (small : index % tilesAcross r.width tileWidth * max tileWidth 1 < 0x80000000 ∧
      index / tilesAcross r.width tileWidth * max tileHeight 1 < 0x80000000)
    (h : index < r.tileCount tileWidth tileHeight) (x y : Int) :
    (r.tileAt tileWidth tileHeight index).Covers x y ↔
      r.Covers x y ∧ r.tileIndex tileWidth tileHeight x y = index := by
  have columns : 0 < tilesAcross r.width tileWidth := Nat.pos_of_mul_pos_right (Nat.zero_lt_of_lt h)
  obtain ⟨startX, startY⟩ := starts_lt h
  have place := Nat.div_add_mod' index (tilesAcross r.width tileWidth)
  unfold Covers
  dsimp only [tileAt]
  rw [mem_tile_span small.1 startX, mem_tile_span small.2 startY, tileIndex]
  constructor
  · rintro ⟨⟨inX, column⟩, inY, row⟩
    rw [column, row]
    exact ⟨⟨inX, inY⟩, place⟩
  · rintro ⟨⟨inX, inY⟩, rfl⟩
    have column : (x - r.x).toNat / max tileWidth 1 < tilesAcross r.width tileWidth :=
      div_lt_tilesAcross (by omega)
    refine ⟨⟨inX, ?_⟩, inY, ?_⟩
    · rw [Nat.mul_add_mod_self_right, Nat.mod_eq_of_lt column]
    · rw [Nat.mul_comm, Nat.mul_add_div columns, Nat.div_eq_of_lt column, Nat.add_zero]

theorem covers_tileAt {r : Rect} (small : r.width < 0x80000000 ∧ r.height < 0x80000000)
    {tileWidth tileHeight index : Nat} (h : index < r.tileCount tileWidth tileHeight) (x y : Int) :
    (r.tileAt tileWidth tileHeight index).Covers x y ↔
      r.Covers x y ∧ r.tileIndex tileWidth tileHeight x y = index :=
  covers_tileAt_of_starts ⟨Nat.lt_trans (starts_lt h).1 small.1,
    Nat.lt_trans (starts_lt h).2 small.2⟩ h x y

/-- **What is so of every tile is so of a run over them all,** if it is so of doing nothing and of
one thing done after another. -/
theorem foldTiles_of_closed {m : Type → Type} [Monad m] {σ : Type} {P : m σ → Prop}
    (nothing : ∀ s, P (pure s))
    (after : ∀ {first : m σ} {more : σ → m σ}, P first → (∀ s, P (more s)) → P (first >>= more))
    {r : Rect} {tileWidth tileHeight : Nat} {body : σ → Rect → m σ}
    (h : ∀ s, ∀ index < r.tileCount tileWidth tileHeight,
      P (body s (r.tileAt tileWidth tileHeight index))) (s : σ) :
    P (r.foldTiles tileWidth tileHeight body s) := by
  -- The induction is on the tiles that are left.
  have go (count index : Nat) (fits : index + count ≤ r.tileCount tileWidth tileHeight) :
      ∀ s, P (r.foldTilesFrom tileWidth tileHeight body count index s) := by
    induction count generalizing index with
    | zero => exact nothing
    | succ count ih => exact fun s => after (h s index (by omega)) (ih (index + 1) (by omega))
  exact go _ 0 (by omega) s

end Rect

end RemoteFramebuffer
