/-
# `RemoteFramebuffer.Proofs.Raster.Copying` — a block is copied whatever it shares with its source

The rows of a block are copied one by one within the raster, so a row that is written may be one
that is still to be read.  The order of the rows sees to it that this does not happen:

    offset.y < 0     from the bottom     row `j` is read at `j + offset.y`, above all that is written
    offset.y ≥ 0     from the top        row `j` is read at `j + offset.y`, below all that is written

A row is read as a whole before it is written, so that a row may be its own source.

`Copied rows` is what holds after some of the rows: these show what their sources showed at first,
and everything else is as it was.  One row more keeps it (`Copied.row`), hence so does any order of
rows in which no row is written before it is read (`Copied.rows`), and both orders above are such
(`pairwise_copyOrder`).
-/
import RemoteFramebuffer.Proofs.Raster.Drawing

namespace RemoteFramebuffer.Raster

open Canvas (Call)

variable {r s : Raster} {dest : Rect} {offset : Point}

/-! ## One row -/

theorem pixel?_copyRow (r : Raster) {fromX fromY toX toY count : Nat}
    (reads : fromX + count ≤ r.width ∧ fromY < r.height)
    (writes : toX + count ≤ r.width ∧ toY < r.height) (x y : Nat) :
    (r.copyRow fromX fromY toX toY count).pixel? x y =
      if y = toY ∧ toX ≤ x ∧ x < toX + count then r.pixel? (fromX + (x - toX)) fromY
      else r.pixel? x y := by
  rw [copyRow, pixel?_recolorRow r writes.1]
  by_cases here : y = toY ∧ toX ≤ x ∧ x < toX + count
  · rw [if_pos here, if_pos here]
    obtain ⟨rfl, left, right⟩ := here
    have stop := r.row_le reads.1 reads.2
    have place : r.index fromX fromY + (x - toX) = r.index (fromX + (x - toX)) fromY := by
      unfold index
      omega
    obtain ⟨old, was⟩ := r.pixel?_eq_some (x := x) (y := y) (by omega) writes.2
    obtain ⟨color, source⟩ :=
      r.pixel?_eq_some (x := fromX + (x - toX)) (y := fromY) (by omega) reads.2
    rw [was, source, Option.map_some]
    rw [pixel?_of_lt r (by omega) reads.2, ← place] at source
    rw [Array.getElem?_extract_of_lt (by omega), ← Array.getElem?_eq_getElem, source,
      Option.getD_some]
  · rw [if_neg here, if_neg here]

def copyOne (dest : Rect) (offset : Point) (r : Raster) (j : Nat) : Raster :=
  r.copyRow (sourceOf dest offset).x.toNat ((sourceOf dest offset).y.toNat + j) dest.x.toNat
    (dest.y.toNat + j) dest.width

theorem pixel?_copyOne (inside : dest.Inside r) (source : (sourceOf dest offset).Inside r) {j : Nat}
    (lt : j < dest.height) (x y : Nat) :
    (copyOne dest offset r j).pixel? x y =
      if dest.Covers x y ∧ y - dest.y.toNat = j then
        r.pixel? (x + offset.x).toNat (y + offset.y).toNat
      else r.pixel? x y := by
  obtain ⟨⟨left, right⟩, top, bottom⟩ := inside
  obtain ⟨⟨left', right'⟩, top', bottom'⟩ := source
  dsimp only [sourceOf] at left' right' top' bottom'
  unfold copyOne sourceOf Rect.Covers
  dsimp only
  rw [pixel?_copyRow r ⟨by omega, by omega⟩ ⟨by omega, by omega⟩]
  by_cases here : y = dest.y.toNat + j ∧ dest.x.toNat ≤ x ∧ x < dest.x.toNat + dest.width
  · have column : (dest.x + offset.x).toNat + (x - dest.x.toNat) = (x + offset.x).toNat := by omega
    have row : (dest.y + offset.y).toNat + j = (y + offset.y).toNat := by omega
    rw [if_pos here, if_pos (by omega), column, row]
  · rw [if_neg here, if_neg (by omega)]

/-! ## Row after row -/

/-- Some rows of a block are copied: they show what their sources showed at first, and every other
pixel is as it was. -/
structure Copied (r : Raster) (dest : Rect) (offset : Point) (rows : List Nat) (s : Raster) :
    Prop where
  width : s.width = r.width
  height : s.height = r.height
  copied : ∀ x y : Nat, dest.Covers x y → y - dest.y.toNat ∈ rows →
    s.pixel? x y = r.pixel? (x + offset.x).toNat (y + offset.y).toNat
  kept : ∀ x y : Nat, ¬ (dest.Covers x y ∧ y - dest.y.toNat ∈ rows) → s.pixel? x y = r.pixel? x y

theorem copied_nil (r : Raster) (dest : Rect) (offset : Point) : Copied r dest offset [] r where
  width := rfl
  height := rfl
  copied _ _ _ mem := nomatch mem
  kept _ _ _ := rfl

section

variable {written order : List Nat} (inside : dest.Inside r) (source : (sourceOf dest offset).Inside r)

include inside source

/-- **One row more.**  Its source must not be among the rows that are written already. -/
theorem Copied.row (h : Copied r dest offset written s) {j : Nat} (lt : j < dest.height)
    (unread : ∀ i ∈ written, (i : Int) ≠ j + offset.y) :
    Copied r dest offset (j :: written) (copyOne dest offset s j) := by
  have step := pixel?_copyOne (inside.of_size h.width h.height) (source.of_size h.width h.height) lt
  refine ⟨h.width, h.height, ?_, ?_⟩
  · intro x y covered mem
    rw [step]
    by_cases here : y - dest.y.toNat = j
    · rw [if_pos ⟨covered, here⟩]
      -- the source is read as it was at first
      refine h.kept _ _ ?_
      rintro ⟨within, before⟩
      refine unread _ before ?_
      unfold Rect.Covers at covered within
      have top := inside.2.1
      have top' : 0 ≤ dest.y + offset.y := source.2.1
      omega
    · rw [if_neg fun both => here both.2]
      refine h.copied x y covered ?_
      rcases List.mem_cons.mp mem with eq | before
      · exact absurd eq here
      · exact before
  · intro x y others
    rw [step, if_neg ?_]
    · refine h.kept x y ?_
      rintro ⟨covered, before⟩
      exact others ⟨covered, List.mem_cons_of_mem j before⟩
    · rintro ⟨covered, rfl⟩
      exact others ⟨covered, List.mem_cons_self⟩

/-- **Row after row**, in an order in which no row is written before it is read. -/
theorem Copied.rows (h : Copied r dest offset written s) (lt : ∀ j ∈ order, j < dest.height)
    (pairwise : order.Pairwise fun i j : Nat => (i : Int) ≠ j + offset.y)
    (unread : ∀ i ∈ written, ∀ j ∈ order, (i : Int) ≠ j + offset.y) :
    Copied r dest offset (order.reverse ++ written) (order.foldl (copyOne dest offset) s) := by
  induction order generalizing written s with
  | nil => exact h
  | cons j order ih =>
      obtain ⟨first, pairwise⟩ := List.pairwise_cons.mp pairwise
      have row := h.row inside source (lt j List.mem_cons_self) fun i before =>
        unread i before j List.mem_cons_self
      rw [List.foldl_cons, List.reverse_cons, List.append_assoc, List.singleton_append]
      refine ih row (fun k later => lt k (List.mem_cons_of_mem j later)) pairwise ?_
      intro i before k later
      rcases List.mem_cons.mp before with rfl | before
      · exact first k later
      · exact unread i before k (List.mem_cons_of_mem j later)

end

/-! ## The whole block -/

/-- The rows of a block in the order in which they are copied. -/
def copyOrder (height : Nat) (offset : Point) : List Nat :=
  if offset.y < 0 then (List.range height).reverse else List.range height

theorem copyBlock_eq (r : Raster) (dest : Rect) (offset : Point) :
    r.copyBlock dest offset = (copyOrder dest.height offset).foldl (copyOne dest offset) r := rfl

theorem mem_copyOrder {height j : Nat} : j ∈ copyOrder height offset ↔ j < height := by
  unfold copyOrder
  split
  · rw [List.mem_reverse, List.mem_range]
  · rw [List.mem_range]

theorem pairwise_copyOrder (height : Nat) (offset : Point) :
    (copyOrder height offset).Pairwise fun i j : Nat => (i : Int) ≠ j + offset.y := by
  have ascending := @List.pairwise_lt_range height
  unfold copyOrder
  split
  · rw [List.pairwise_reverse]
    refine ascending.imp ?_
    intro i j lt
    omega
  · refine ascending.imp ?_
    intro i j lt
    omega

theorem copied_copyBlock (inside : dest.Inside r) (source : (sourceOf dest offset).Inside r) :
    Copied r dest offset (copyOrder dest.height offset).reverse (r.copyBlock dest offset) := by
  have all := (copied_nil r dest offset).rows inside source (fun _ => mem_copyOrder.mp)
    (pairwise_copyOrder dest.height offset) nofun
  rw [List.append_nil] at all
  rw [copyBlock_eq]
  exact all

theorem checkCopy_eq_ok_iff :
    r.checkCopy dest offset = .ok () ↔ dest.Inside r ∧ (sourceOf dest offset).Inside r := by
  rw [← check_eq_ok_iff, ← check_eq_ok_iff, checkCopy]
  cases r.check dest with
  | error e =>
      constructor
      · rintro ⟨⟩
      · rintro ⟨⟨⟩, -⟩
  | ok =>
      rw [eq_self, true_and]
      rfl

/-- **Overlapping copies are exact.**  Of every raster, block and offset: the copy is accepted exactly
if the block and its source lie inside.  Then every pixel of the block shows what the pixel at the
offset from it showed before, however the block and its source overlap, and no other pixel changes.
A copy that is refused changes nothing, and nothing is touched that is not there. -/
theorem copy_exact (r : Raster) (dest : Rect) (offset : Point) :
    AllOrNothing r dest
      (dest.Inside r ∧
        (⟨dest.x + offset.x, dest.y + offset.y, dest.width, dest.height⟩ : Rect).Inside r)
      (fun x y => r.pixel? (x + offset.x).toNat (y + offset.y).toNat)
      (Call.onRaster r (.copy dest offset)) ∧
    r.touchCopy dest offset = .ok () := by
  refine ⟨?_, (r.safe_touchCopy dest offset).eq_unit⟩
  refine .of_check checkCopy_eq_ok_iff (r.width_copyBlock _ _) (r.height_copyBlock _ _) ?_ ?_
  · rintro ⟨inside, source⟩ x y covered
    refine (copied_copyBlock inside source).copied x y covered ?_
    rw [List.mem_reverse, mem_copyOrder]
    unfold Rect.Covers at covered
    omega
  · rintro ⟨inside, -⟩ x y outside
    exact copyBlock_of_not_covers r (holds_iff.mpr inside) offset outside

end RemoteFramebuffer.Raster
