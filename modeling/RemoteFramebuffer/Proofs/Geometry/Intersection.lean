/-
# `RemoteFramebuffer.Proofs.Geometry.Intersection` — cutting rectangles is cutting sets of points

A rectangle whose edges are signed words contains just the points that it covers.  What two such
rectangles have in common is again one of them or nothing, and is told apart from any other
answer by its points alone:

    IsRegion points none        there is no such point
    IsRegion points (some r)    r is not empty, and has just these points

At most one answer is the region of a set of points (`IsRegion.unique`), and `intersect` gives
the region of the points that both rectangles contain (`isRegion_intersect`).  So whatever holds
of sets of points, and says nothing else, holds of the answers themselves.
-/
import RemoteFramebuffer.Proofs.Geometry

namespace RemoteFramebuffer
namespace Rect

/-- The extents of the rectangle and all four of its edges are signed words. -/
structure IsSigned (r : Rect) : Prop where
  width : r.width < 0x80000000
  height : r.height < 0x80000000
  left : -0x80000000 ≤ r.x
  top : -0x80000000 ≤ r.y
  right : r.x + r.width < 0x80000000
  bottom : r.y + r.height < 0x80000000

variable {a b c r s : Rect} {points others : Point → Prop}

/-! ## The points of a rectangle -/

theorem IsSigned.contains_iff (signed : r.IsSigned) {p : Point} :
    r.contains p = true ↔ r.Covers p.x p.y :=
  contains_iff_covers ⟨signed.width, signed.height⟩

/-- A rectangle that has its points in another lies between the edges of that one.  Its first
point and its last say so. -/
theorem edges_of_subset (hr : r.IsSigned) (hs : s.IsSigned) (some_point : r.isEmpty = false)
    (within : ∀ p, r.contains p = true → s.contains p = true) :
    (s.x ≤ r.x ∧ r.x + r.width ≤ s.x + s.width) ∧
      s.y ≤ r.y ∧ r.y + r.height ≤ s.y + s.height := by
  obtain ⟨columns, rows⟩ := isEmpty_eq_false.mp some_point
  have inside {x y : Int} (covered : r.Covers x y) : s.Covers x y :=
    hs.contains_iff.mp (within ⟨x, y⟩ (hr.contains_iff.mpr covered))
  obtain ⟨⟨left, -⟩, top, -⟩ := inside (covers_mk.mpr ⟨⟨Int.le_refl r.x, by omega⟩,
    Int.le_refl r.y, by omega⟩)
  obtain ⟨⟨-, right⟩, -, bottom⟩ := inside (x := r.x + r.width - 1) (y := r.y + r.height - 1)
    (covers_mk.mpr ⟨⟨by omega, by omega⟩, by omega, by omega⟩)
  omega

theorem eq_of_contains_iff (hr : r.IsSigned) (hs : s.IsSigned) (pointsR : r.isEmpty = false)
    (pointsS : s.isEmpty = false) (same : ∀ p, r.contains p = true ↔ s.contains p = true) :
    r = s := by
  have inner := edges_of_subset hr hs pointsR fun p => (same p).mp
  have outer := edges_of_subset hs hr pointsS fun p => (same p).mpr
  obtain ⟨x, y, width, height⟩ := r
  obtain ⟨x', y', width', height'⟩ := s
  dsimp only at inner outer
  rw [mk.injEq]
  omega

/-! ## Sets of points that are rectangles -/

/-- A set of points as a rectangle, or as nothing if no point is in it. -/
def IsRegion (points : Point → Prop) : Option Rect → Prop
  | none => ∀ p, ¬ points p
  | some r => r.IsSigned ∧ r.isEmpty = false ∧ ∀ p, r.contains p = true ↔ points p

theorem exists_point (signed : r.IsSigned) (some_point : r.isEmpty = false) :
    ∃ p, r.contains p = true := by
  obtain ⟨columns, rows⟩ := isEmpty_eq_false.mp some_point
  exact ⟨⟨r.x, r.y⟩, signed.contains_iff.mpr (covers_mk.mpr (by dsimp only; omega))⟩

namespace IsRegion

theorem congr (same : ∀ p, points p ↔ others p) {answer : Option Rect}
    (region : IsRegion points answer) : IsRegion others answer := by
  cases answer with
  | none => exact fun p other => region p ((same p).mpr other)
  | some r =>
    obtain ⟨signed, some_point, exact_points⟩ := region
    exact ⟨signed, some_point, fun p => (exact_points p).trans (same p)⟩

theorem unique {answer answer' : Option Rect} (region : IsRegion points answer)
    (region' : IsRegion points answer') : answer = answer' := by
  cases answer with
  | none =>
    cases answer' with
    | none => rfl
    | some s =>
      obtain ⟨p, inside⟩ := exists_point region'.1 region'.2.1
      exact absurd ((region'.2.2 p).mp inside) (region p)
  | some r =>
    cases answer' with
    | none =>
      obtain ⟨p, inside⟩ := exists_point region.1 region.2.1
      exact absurd ((region.2.2 p).mp inside) (region' p)
    | some s =>
      obtain ⟨signedR, pointsR, exactR⟩ := region
      obtain ⟨signedS, pointsS, exactS⟩ := region'
      exact congrArg some (eq_of_contains_iff signedR signedS pointsR pointsS
        fun p => (exactR p).trans (exactS p).symm)

end IsRegion

/-- What two rectangles have in common lies between the edges of both. -/
theorem isSigned_of_intersect (ha : a.IsSigned) (hb : b.IsSigned) (h : a.intersect b = some r) :
    r.IsSigned := by
  obtain ⟨⟨left, meetsX, right⟩, top, meetsY, bottom⟩ := intersect_eq_some.mp h
  rw [right_eq ha.width, right_eq hb.width] at meetsX right
  rw [bottom_eq ha.height, bottom_eq hb.height] at meetsY bottom
  obtain ⟨widthA, heightA, leftA, topA, rightA, bottomA⟩ := ha
  obtain ⟨widthB, heightB, leftB, topB, rightB, bottomB⟩ := hb
  constructor <;> omega

/-- **Intersection is that of the points.** -/
theorem isRegion_intersect (ha : a.IsSigned) (hb : b.IsSigned) :
    IsRegion (fun p => a.contains p = true ∧ b.contains p = true) (a.intersect b) := by
  cases h : a.intersect b with
  | none =>
    rintro p ⟨inA, inB⟩
    rw [ha.contains_iff] at inA
    rw [hb.contains_iff] at inB
    obtain ⟨common, meets⟩ := intersect_isSome_of_covers ⟨ha.width, ha.height⟩
      ⟨hb.width, hb.height⟩ inA inB
    exact absurd (h.symm.trans meets) (Option.some_ne_none common).symm
  | some r =>
    have signed := isSigned_of_intersect ha hb h
    refine ⟨signed, isEmpty_eq_false.mpr (extent_pos_of_intersect h), fun p => ?_⟩
    have wordA : a.IsWord := ⟨Nat.lt_trans ha.width (by decide), Nat.lt_trans ha.height (by decide)⟩
    have wordB : b.IsWord := ⟨Nat.lt_trans hb.width (by decide), Nat.lt_trans hb.height (by decide)⟩
    show r.contains p = true ↔ a.contains p = true ∧ b.contains p = true
    rw [signed.contains_iff, ha.contains_iff, hb.contains_iff]
    exact covers_intersect wordA wordB h p.x p.y

theorem isRegion_intersect_bind {answer : Option Rect} (region : IsRegion points answer)
    (hc : c.IsSigned) :
    IsRegion (fun p => points p ∧ c.contains p = true) (answer.bind (·.intersect c)) := by
  cases answer with
  | none => exact fun p both => region p both.1
  | some r =>
    obtain ⟨signed, -, exact_points⟩ := region
    exact (isRegion_intersect signed hc).congr fun p => and_congr_left' (exact_points p)

theorem intersect_comm (ha : a.IsSigned) (hb : b.IsSigned) : a.intersect b = b.intersect a :=
  (isRegion_intersect ha hb).unique ((isRegion_intersect hb ha).congr fun _ => and_comm)

theorem intersect_assoc (ha : a.IsSigned) (hb : b.IsSigned) (hc : c.IsSigned) :
    (a.intersect b).bind (·.intersect c) = (b.intersect c).bind a.intersect := by
  have left := isRegion_intersect_bind (isRegion_intersect ha hb) hc
  have right := isRegion_intersect_bind (isRegion_intersect hb hc) ha
  have turned : (b.intersect c).bind (·.intersect a) = (b.intersect c).bind a.intersect := by
    refine Option.bind_congr fun r h => ?_
    exact intersect_comm (isSigned_of_intersect hb hc h) ha
  rw [← turned]
  exact left.unique (right.congr fun p => and_comm.trans and_assoc.symm)

/-- **Intersecting rectangles is intersecting their points.**  Nothing comes out just if no point
is in both, and else a rectangle that is not empty and has just the points that are in both, with
edges that are signed words again.  So the order of the two does not matter, nor that in which
three are cut with each other, and a rectangle that is not empty and lies inside another is what
the two have in common. -/
theorem intersect_exact (ha : a.IsSigned) (hb : b.IsSigned) (hc : c.IsSigned) :
    (a.intersect b = none ↔ ∀ p, ¬ (a.contains p = true ∧ b.contains p = true)) ∧
      (∀ r, a.intersect b = some r → r.IsSigned ∧ r.isEmpty = false ∧
        ∀ p, r.contains p = true ↔ a.contains p = true ∧ b.contains p = true) ∧
      a.intersect b = b.intersect a ∧
      (a.intersect b).bind (·.intersect c) = (b.intersect c).bind a.intersect ∧
      (b.isEmpty = false → (∀ p, b.contains p = true → a.contains p = true) →
        a.intersect b = some b) := by
  have region := isRegion_intersect ha hb
  refine ⟨⟨fun apart => ?_, fun apart => ?_⟩, fun r common => ?_, intersect_comm ha hb,
    intersect_assoc ha hb hc, fun some_point within => ?_⟩
  · rw [apart] at region
    exact region
  · have nothing : IsRegion (fun p => a.contains p = true ∧ b.contains p = true) none := apart
    exact region.unique nothing
  · rw [common] at region
    exact region
  · have inner : IsRegion (fun p => a.contains p = true ∧ b.contains p = true) (some b) :=
      ⟨hb, some_point, fun p => ⟨fun inB => ⟨within p inB, inB⟩, And.right⟩⟩
    exact region.unique inner

/-- Two rectangles that share their corner pixel alone, and one without rows on it. -/
theorem intersect_exact_corner :
    let a : Rect := ⟨-3, -2, 5, 4⟩
    let b : Rect := ⟨1, 1, 7, 3⟩
    let c : Rect := ⟨1, 1, 1, 0⟩
    (a.IsSigned ∧ b.IsSigned ∧ c.IsSigned) ∧ a.intersect b = some ⟨1, 1, 1, 1⟩ ∧
      (∀ p, (Rect.mk 1 1 1 1).contains p = true ↔ a.contains p = true ∧ b.contains p = true) ∧
      (b.intersect c).bind a.intersect = none := by
  intro a b c
  have ha : a.IsSigned := by constructor <;> decide
  have hb : b.IsSigned := by constructor <;> decide
  have hc : c.IsSigned := by constructor <;> decide
  have corner : a.intersect b = some ⟨1, 1, 1, 1⟩ := by decide
  obtain ⟨-, exact_points, -, turned, -⟩ := intersect_exact ha hb hc
  refine ⟨⟨ha, hb, hc⟩, corner, (exact_points _ corner).2.2, turned.symm.trans ?_⟩
  rw [corner]
  decide

end Rect

end RemoteFramebuffer
