/-
# `RemoteFramebuffer.Proofs.Encoding.Zrle.Coding` — the ways to send the pixels of a tile

`Coding encode width height pixels bytes` says that `bytes` are one of the ways to send the pixels
of a tile, row by row, where `encode` spells a single pixel:

    raw            0, every pixel
    solid          1, the one pixel that all are
    packed         size, a palette of 2 to 16, rows of indices of 1, 2 or 4 bits from fresh bytes
    plain runs     128, runs of a pixel and a length
    palette runs   128 + size, a palette of 2 to 127, runs of an index with or without a length

A tile can be sent in many ways, as a palette may hold entries that are used twice or not at all,
the bits behind a row of indices may be any, and runs may be split anywhere.  Whichever was taken,
reading takes exactly these bytes and finds the color of every pixel (`takes_readTile`).
-/
import RemoteFramebuffer.Proofs.Encoding.Painting
import RemoteFramebuffer.Proofs.Encoding.Zrle
import RemoteFramebuffer.Proofs.Raster

namespace RemoteFramebuffer.Zrle

open Payload (Takes takes_guarded takes_pure takes_u8)
open Raster (rowMajor)

/-! ## Runs -/

/-- The bytes of a length: their sum is one less. -/
def runBytes (more : Nat) : Bytes := List.replicate (more / 255) 255 ++ [UInt8.ofNat (more % 255)]

theorem takes_runLength (more : Nat) : runLength.Takes (runBytes more) more := by
  intro rest
  have go (count : Nat) : ∀ sum, runLengthFrom sum
      (List.replicate count 255 ++ [UInt8.ofNat (more % 255)] ++ rest) =
        .ok (sum + 255 * count + more % 255, rest) := by
    have last : (UInt8.ofNat (more % 255)).toNat = more % 255 := by
      rw [UInt8.toNat_ofNat']
      omega
    induction count with
    | zero =>
        intro sum
        have ends : UInt8.ofNat (more % 255) ≠ 255 := fun eq => by
          have : more % 255 = 255 := last.symm.trans (congrArg UInt8.toNat eq)
          omega
        simp only [List.replicate_zero, List.nil_append, List.cons_append, runLengthFrom, if_neg ends,
          last, Nat.mul_zero, Nat.add_zero]
    | succ count ih =>
        intro sum
        simp only [List.replicate_succ, List.cons_append, runLengthFrom, if_pos]
        rw [ih, Nat.mul_succ, Nat.add_assoc sum, Nat.add_comm 255]
  have total : 0 + 255 * (more / 255) + more % 255 = more := by omega
  rw [runLength, runBytes, go, total]

/-- The values of runs, each of which is one value and how many more of it there are. -/
def expand {α : Type} (runs : List (α × Nat)) : List α :=
  runs.flatMap fun run => List.replicate (run.2 + 1) run.1

theorem map_expand {α β : Type} (f : α → β) (runs : List (α × Nat)) :
    (expand runs).map f = expand (runs.map fun run => (f run.1, run.2)) := by
  simp [expand, List.map_flatMap, List.flatMap_map]

/-- Runs that fill what is left of a tile are read one after another. -/
theorem takes_runsOnto {run : Payload (Rgba × Nat)} {ι : Type} {runs : List ι} {bytes : ι → Bytes}
    {value : ι → Rgba × Nat} (h : ∀ i ∈ runs, run.Takes (bytes i) (value i)) {count : Nat}
    {seen : Array Rgba} (fills : seen.size + (expand (runs.map value)).length = count) :
    (runsOnto run count seen).Takes (runs.flatMap bytes)
      (seen ++ (expand (runs.map value)).toArray) := by
  induction runs generalizing seen with
  | nil =>
      have full : ¬ seen.size < count := by
        simp only [List.map_nil, expand, List.flatMap_nil, List.length_nil] at fills
        omega
      rw [runsOnto, if_neg full]
      simpa [expand] using takes_pure seen
  | cons i runs ih =>
      have split : expand ((i :: runs).map value) =
          List.replicate ((value i).2 + 1) (value i).1 ++ expand (runs.map value) := rfl
      rw [split, List.length_append, List.length_replicate] at fills
      have less : seen.size < count := by omega
      have fits : min ((value i).2 + 1) (count - seen.size) = (value i).2 + 1 := by omega
      have room : Guarded.require (decide (seen.size ≤ count)) .underflow = .ok () := by
        rw [Guarded.require, if_pos (decide_eq_true (Nat.le_of_lt less))]
      have left : (seen ++ Array.replicate ((value i).2 + 1) (value i).1).size +
          (expand (runs.map value)).length = count := by
        rw [Array.size_append, Array.size_replicate]
        omega
      have rest := ih (fun i mem => h i (List.mem_cons_of_mem _ mem)) left
      have all : seen ++ (expand ((i :: runs).map value)).toArray =
          seen ++ Array.replicate ((value i).2 + 1) (value i).1 ++
            (expand (runs.map value)).toArray := by
        rw [split, ← List.append_toArray, ← Array.append_assoc, List.toArray_replicate]
      rw [runsOnto, if_pos less, all]
      refine (h i List.mem_cons_self).bind ?_
      dsimp only
      rw [fits]
      exact (takes_guarded room).bind rest

/-! ## Packed indices -/

/-- The first `count` indices, the first of them highest. -/
def packed (bits : Nat) (index : Nat → Nat) (count : Nat) : Nat :=
  (List.range count).foldl (fun byte i => byte <<< bits + index i) 0

def packByte (bits : Nat) (index : Nat → Nat) : UInt8 := UInt8.ofNat (packed bits index (8 / bits))

/-- The bytes of a row of indices, from its first byte on. -/
def packRow (bits width : Nat) (index : Nat → Nat) : Bytes :=
  (List.range ((width + 8 / bits - 1) / (8 / bits))).map fun i =>
    packByte bits fun k => index (i * (8 / bits) + k)

section

variable {bits : Nat} {index : Nat → Nat}

theorem packed_succ (bits : Nat) (index : Nat → Nat) (count : Nat) :
    packed bits index (count + 1) = packed bits index count <<< bits + index count := by
  simp [packed, List.range_succ]

variable (small : ∀ k, index k < 1 <<< bits)

include small

theorem packed_lt (count : Nat) : packed bits index count < 1 <<< (bits * count) := by
  induction count with
  | zero => exact Nat.one_pos
  | succ count ih =>
      have last := small count
      rw [packed_succ, Nat.mul_succ, Nat.shiftLeft_add, Nat.shiftLeft_eq, Nat.shiftLeft_eq _ bits]
      rw [Nat.shiftLeft_eq, Nat.one_mul] at last
      have room := Nat.mul_le_mul_right (Nat.pow 2 bits) (Nat.succ_le_of_lt ih)
      rw [Nat.succ_mul] at room
      exact Nat.lt_of_lt_of_le (Nat.add_lt_add_left last _) room

theorem shiftRight_packed (count later : Nat) :
    packed bits index (count + later) >>> (bits * later) = packed bits index count := by
  induction later with
  | zero => rfl
  | succ later ih =>
      have last := small (count + later)
      rw [Nat.shiftLeft_eq, Nat.one_mul] at last
      have shifted : packed bits index (count + (later + 1)) >>> bits =
          packed bits index (count + later) := by
        rw [← Nat.add_assoc, packed_succ, Nat.shiftLeft_eq, Nat.shiftRight_eq_div_pow,
          Nat.mul_comm, Nat.mul_add_div (Nat.two_pow_pos bits), Nat.div_eq_of_lt last, Nat.add_zero]
      rw [Nat.mul_succ, Nat.add_comm (bits * later), Nat.shiftRight_add, shifted, ih]

theorem shiftRight_packByte (whole : bits * (8 / bits) = 8) {i : Nat} (lt : i < 8 / bits) :
    (packByte bits index).toNat >>> (8 - bits * (i + 1)) % 1 <<< bits = index i := by
  have byte : (packByte bits index).toNat = packed bits index (i + 1 + (8 / bits - (i + 1))) := by
    have fits := packed_lt small (8 / bits)
    rw [whole] at fits
    rw [packByte, UInt8.toNat_ofNat_of_lt' fits, Nat.add_sub_cancel' lt]
  have available : 8 - bits * (i + 1) = bits * (8 / bits - (i + 1)) := by
    rw [Nat.mul_sub, whole]
  have last := small i
  rw [Nat.shiftLeft_eq, Nat.one_mul] at last
  rw [byte, available, shiftRight_packed small, packed_succ, Nat.shiftLeft_eq, Nat.shiftLeft_eq,
    Nat.one_mul, Nat.mul_add_mod_self_right, Nat.mod_eq_of_lt last]

theorem indexAt_packByte (h : 0 < bits ∧ bits ≤ 4) (whole : bits * (8 / bits) = 8) {i : Nat}
    (lt : i < 8 / bits) : indexAt bits i (packByte bits index) = .ok (index i) := by
  have cut := shiftRight_packByte small whole lt
  have fits : bits * (i + 1) ≤ 8 := whole ▸ Nat.mul_le_mul_left bits lt
  have some : bits ≤ bits * (i + 1) := Nat.le_mul_of_pos_right bits i.succ_pos
  obtain ⟨_, sub, rfl⟩ := (Guarded.safe_sub fits).eq_ok
  obtain ⟨_, first, -⟩ := (Guarded.safe_shift (show 8 - bits * (i + 1) < 8 by omega)).eq_ok
  obtain ⟨_, second, -⟩ := (Guarded.safe_shift (show bits < 8 by omega)).eq_ok
  simp only [indexAt, sub, bind, Except.bind, first, second, pure, Except.pure, cut]

end

/-- Cutting a row into pieces of a size and joining them gives the row back. -/
theorem flatMap_pieces {α : Type} (size width : Nat) (f : Nat → α) (count : Nat) :
    ((List.range count).flatMap fun i =>
      (List.range (min size (width - i * size))).map fun k => f (i * size + k)) =
        (List.range (min (count * size) width)).map f := by
  induction count with
  | zero => simp
  | succ count ih =>
      rw [List.range_succ, List.flatMap_append, ih, List.flatMap_singleton]
      by_cases within : count * size ≤ width
      · have all : min ((count + 1) * size) width =
            min (count * size) width + min size (width - count * size) := by
          rw [Nat.succ_mul]
          omega
        rw [all, Nat.min_eq_left within, List.range_add, List.map_append, List.map_map]
        rfl
      · have none : min size (width - count * size) = 0 := by omega
        have all : min ((count + 1) * size) width = min (count * size) width := by
          rw [Nat.succ_mul]
          omega
        rw [none, all, List.range_zero, List.map_nil, List.append_nil]

theorem le_pieces_mul {size : Nat} (pos : 0 < size) (width : Nat) :
    width ≤ (width + size - 1) / size * size := by
  have rest := Nat.div_add_mod' (width + size - 1) size
  have less := Nat.mod_lt (width + size - 1) pos
  omega

theorem takes_entry {palette : Array Rgba} {index : Nat} {color : Rgba}
    (h : palette[index]? = some color) : (entry palette index).Takes [] color := by
  rw [entry, h]
  exact takes_pure color

theorem takes_readPackedRow {palette : Array Rgba} {bits width : Nat} {index : Nat → Nat}
    {color : Nat → Rgba} (h : 0 < bits ∧ bits ≤ 4) (whole : bits * (8 / bits) = 8)
    (small : ∀ k, index k < 1 <<< bits)
    (entries : ∀ k < width, palette[index k]? = some (color k)) :
    (readPackedRow palette bits width).Takes (packRow bits width index)
      ((List.range width).map color) := by
  have perByte : 0 < 8 / bits := Nat.pos_of_mul_pos_left (by rw [whole]; decide)
  have enough := le_pieces_mul perByte width
  have joined := flatMap_pieces (8 / bits) width color ((width + 8 / bits - 1) / (8 / bits))
  rw [Nat.min_eq_right enough, List.flatMap_def] at joined
  rw [readPackedRow, ← joined, packRow, List.map_eq_flatMap]
  refine Takes.bind_nil (Takes.mapM fun i _ => ?_) (takes_pure _)
  refine (takes_u8 _).bind_nil ?_
  have shown : (unpackByte palette bits (min (8 / bits) (width - i * (8 / bits)))
      (packByte bits fun k => index (i * (8 / bits) + k))).Takes
        ((List.range (min (8 / bits) (width - i * (8 / bits)))).flatMap fun _ => [])
        ((List.range (min (8 / bits) (width - i * (8 / bits)))).map fun k =>
          color (i * (8 / bits) + k)) := by
    refine Takes.mapM fun k mem => ?_
    have lt := List.mem_range.mp mem
    have cut := indexAt_packByte (fun k => small (i * (8 / bits) + k)) h whole
      (show k < 8 / bits by omega)
    exact (takes_guarded cut).bind (takes_entry (entries _ (by omega)))
  rwa [List.flatMap_eq_nil_iff.mpr fun _ _ => rfl] at shown

/-! ## Tiles -/

variable {π : Type}

/-- A run of a palette entry; without a length it is a single pixel. -/
structure PaletteRun (palette : List π) where
  entry : Fin palette.length
  more : Option Nat

namespace PaletteRun

variable {palette : List π} (run : PaletteRun palette)

def value : π × Nat := (palette[run.entry], run.more.getD 0)

def bytes : Bytes :=
  match run.more with
  | none => [UInt8.ofNat run.entry]
  | some more => UInt8.ofNat (128 + run.entry) :: runBytes more

end PaletteRun

/-- The bytes are one of the ways to send the pixels of a tile, row by row. -/
inductive Coding (encode : π → Bytes) (width height : Nat) : List π → Bytes → Prop
  | raw {pixels : List π} : pixels.length = width * height →
      Coding encode width height pixels (0 :: pixels.flatMap encode)
  | solid (pixel : π) :
      Coding encode width height (List.replicate (width * height) pixel) (1 :: encode pixel)
  | packed {palette : List π} {pixel : Nat → Nat → π} {index : Nat → Nat → Nat} :
      2 ≤ palette.length → palette.length ≤ 16 →
      (∀ i j, i < width → j < height → palette[index i j]? = some (pixel i j)) →
      (∀ i j, index i j < 1 <<< indexBits palette.length) →
      Coding encode width height (rowMajor width height pixel)
        (UInt8.ofNat palette.length :: palette.flatMap encode ++
          (List.range height).flatMap fun j =>
            packRow (indexBits palette.length) width fun i => index i j)
  | plainRuns {runs : List (π × Nat)} : (expand runs).length = width * height →
      Coding encode width height (expand runs)
        (128 :: runs.flatMap fun run => encode run.1 ++ runBytes run.2)
  | paletteRuns {palette : List π} {runs : List (PaletteRun palette)} :
      2 ≤ palette.length → palette.length ≤ 127 →
      (expand (runs.map PaletteRun.value)).length = width * height →
      Coding encode width height (expand (runs.map PaletteRun.value))
        (UInt8.ofNat (128 + palette.length) :: palette.flatMap encode ++
          runs.flatMap PaletteRun.bytes)

def Tile.colors (area : Nat) : Tile → List Rgba
  | .solid color => List.replicate area color
  | .pixels colors => colors.toList

section

variable {encode : π → Bytes} {color : π → Rgba} {pixel : Payload Rgba}
  (reads : ∀ p, pixel.Takes (encode p) (color p))

include reads

theorem takes_readPalette (palette : List π) :
    (readPalette pixel palette.length).Takes (palette.flatMap encode) (palette.map color).toArray :=
  (Takes.values fun p _ => reads p).map List.toArray

theorem takes_plainRun (run : π × Nat) :
    (plainRun pixel).Takes (encode run.1 ++ runBytes run.2) (color run.1, run.2) :=
  (reads run.1).bind ((takes_runLength run.2).bind_nil (takes_pure _))

omit reads in
theorem takes_paletteRun {palette : List π} (few : palette.length ≤ 127) (run : PaletteRun palette) :
    (paletteRun (palette.map color).toArray).Takes run.bytes (color run.value.1, run.value.2) := by
  have lt := run.entry.isLt
  have found {code : UInt8} (at_entry : code.toNat % 128 = run.entry) :
      (entry (palette.map color).toArray (code.toNat % 128)).Takes [] (color run.value.1) := by
    refine takes_entry ?_
    rw [at_entry, List.getElem?_toArray, List.getElem?_map, List.getElem?_eq_getElem lt]
    rfl
  cases more : run.more with
  | none =>
      have code : (UInt8.ofNat run.entry).toNat = run.entry :=
        UInt8.toNat_ofNat_of_lt' (show _ < 256 by omega)
      have single : UInt8.ofNat run.entry < 128 := by
        rw [UInt8.lt_iff_toNat_lt, code]
        exact Nat.lt_of_lt_of_le lt (Nat.le_trans few (by decide))
      rw [PaletteRun.bytes, PaletteRun.value, more]
      refine (takes_u8 _).bind_nil ?_
      refine (found (by rw [code]; omega)).bind ?_
      rw [if_pos single]
      exact takes_pure _
  | some length =>
      have code : (UInt8.ofNat (128 + run.entry)).toNat = 128 + run.entry :=
        UInt8.toNat_ofNat_of_lt' (show _ < 256 by omega)
      have long : ¬ UInt8.ofNat (128 + run.entry) < 128 := by
        rw [UInt8.lt_iff_toNat_lt, code]
        exact Nat.not_lt.mpr (Nat.le_add_right 128 _)
      rw [PaletteRun.bytes, PaletteRun.value, more]
      refine (takes_u8 _).bind ?_
      refine (found (by rw [code]; omega)).bind ?_
      rw [if_neg long]
      exact (takes_runLength length).bind_nil (takes_pure _)

omit reads in
theorem indexBits_mul_div (size : Nat) : indexBits size * (8 / indexBits size) = 8 := by
  rw [indexBits]
  split
  · rfl
  · split <;> rfl

omit reads in
theorem code_ne {n : Nat} {code : UInt8} (lt : n < 256) (h : n ≠ code.toNat) :
    UInt8.ofNat n ≠ code := fun eq => h (by rw [← eq, UInt8.toNat_ofNat_of_lt' lt])

omit reads in
theorem code_le {n : Nat} {code : UInt8} (lt : n < 256) : UInt8.ofNat n ≤ code ↔ n ≤ code.toNat := by
  rw [UInt8.le_iff_toNat_le, UInt8.toNat_ofNat_of_lt' lt]

omit reads in
theorem takes_rows {palette : List π} {width height : Nat} {p : Nat → Nat → π}
    {index : Nat → Nat → Nat}
    (entries : ∀ i j, i < width → j < height → palette[index i j]? = some (p i j))
    (small : ∀ i j, index i j < 1 <<< indexBits palette.length) :
    (Payload.values (readPackedRow (palette.map color).toArray (indexBits palette.length) width)
        height).Takes
      ((List.range height).flatMap fun j =>
        packRow (indexBits palette.length) width fun i => index i j)
      ((List.range height).map fun j => (List.range width).map fun i => color (p i j)) := by
  have row {j : Nat} (mem : j ∈ List.range height) :
      (readPackedRow (palette.map color).toArray (indexBits palette.length) width).Takes
        (packRow (indexBits palette.length) width fun i => index i j)
        ((List.range width).map fun i => color (p i j)) := by
    refine takes_readPackedRow (indexBits_pos _) (indexBits_mul_div _) (small · j) fun i hi => ?_
    have found := entries i j hi (List.mem_range.mp mem)
    rw [List.getElem?_toArray, List.getElem?_map, found]
    rfl
  have all := Takes.values fun j mem => row mem
  rwa [List.length_range] at all

omit reads in
theorem takes_runTile {ι : Type} {run : Payload (Rgba × Nat)} {runs : List ι} {bytes : ι → Bytes}
    {value : ι → π × Nat} {area : Nat}
    (h : ∀ i ∈ runs, run.Takes (bytes i) (color (value i).1, (value i).2))
    (fills : (expand (runs.map value)).length = area) :
    Takes (do return Tile.pixels (← runsOnto run area #[])) (runs.flatMap bytes)
      (.pixels ((expand (runs.map value)).map color).toArray) := by
  have colors : expand (runs.map fun i => (color (value i).1, (value i).2)) =
      (expand (runs.map value)).map color := by
    rw [map_expand, List.map_map]
    rfl
  have all : (#[] : Array Rgba).size +
      (expand (runs.map fun i => (color (value i).1, (value i).2))).length = area := by
    rw [colors, List.length_map, fills]
    exact Nat.zero_add _
  have whole := takes_runsOnto h all
  rw [colors, Array.empty_append] at whole
  exact whole.bind_nil (takes_pure _)

/-- **Reading a tile.**  However its pixels were sent, exactly their bytes are taken, and the tile
has their colors. -/
theorem takes_readTile {tile : Rect} {pixels : List π} {bytes : Bytes}
    (coding : Coding encode tile.width tile.height pixels bytes) :
    ∃ shown, (readTile pixel tile).Takes bytes shown ∧ shown.colors tile.area = pixels.map color := by
  cases coding with
  | raw length =>
      have area : tile.area = pixels.length := length.symm
      refine ⟨.pixels (pixels.map color).toArray, (takes_u8 0).bind ?_, rfl⟩
      rw [if_pos rfl, area]
      exact (Takes.values fun p _ => reads p).bind_nil (takes_pure _)
  | solid p =>
      refine ⟨.solid (color p), (takes_u8 1).bind ?_, (List.map_replicate ..).symm⟩
      rw [if_neg (by decide), if_pos rfl]
      exact (reads p).bind_nil (takes_pure _)
  | @packed palette p index two few entries small =>
      have lt : palette.length < 256 := by omega
      have not_raw : ¬ UInt8.ofNat palette.length = 0 := code_ne lt (show _ ≠ 0 by omega)
      have not_solid : ¬ UInt8.ofNat palette.length = 1 := code_ne lt (show _ ≠ 1 by omega)
      have packed : UInt8.ofNat palette.length ≤ 16 := (code_le lt).mpr few
      have size : (palette.map color).toArray.size = palette.length := by simp
      refine ⟨.pixels (rowMajor tile.width tile.height fun i j => color (p i j)).toArray,
        (takes_u8 _).bind ?_, (Raster.map_rowMajor _ _ _ _).symm⟩
      rw [if_neg not_raw, if_neg not_solid, if_pos packed, UInt8.toNat_ofNat_of_lt' lt]
      refine (takes_readPalette reads palette).bind ?_
      rw [size]
      exact (takes_rows entries small).bind_nil (takes_pure _)
  | @plainRuns runs fills =>
      refine ⟨.pixels ((expand runs).map color).toArray, (takes_u8 128).bind ?_, rfl⟩
      rw [if_neg (by decide), if_neg (by decide), if_neg (by decide), if_pos rfl]
      have filled : (expand (runs.map id)).length = tile.area := by rwa [List.map_id]
      have each (run : π × Nat) (_ : run ∈ runs) : (plainRun pixel).Takes
          (encode run.1 ++ runBytes run.2) (color (id run).1, (id run).2) := takes_plainRun reads run
      have whole := takes_runTile each filled
      rwa [List.map_id] at whole
  | @paletteRuns palette runs two few fills =>
      have lt : 128 + palette.length < 256 := by omega
      have not_raw : ¬ UInt8.ofNat (128 + palette.length) = 0 := code_ne lt (show _ ≠ 0 by omega)
      have not_solid : ¬ UInt8.ofNat (128 + palette.length) = 1 := code_ne lt (show _ ≠ 1 by omega)
      have not_packed : ¬ UInt8.ofNat (128 + palette.length) ≤ 16 := fun le => by
        have : 128 + palette.length ≤ 16 := (code_le lt).mp le
        omega
      have not_plain : ¬ UInt8.ofNat (128 + palette.length) = 128 :=
        code_ne lt (show _ ≠ 128 by omega)
      have indexed : 130 ≤ UInt8.ofNat (128 + palette.length) := by
        rw [UInt8.le_iff_toNat_le, UInt8.toNat_ofNat_of_lt' lt]
        show 130 ≤ 128 + palette.length
        omega
      have size : Guarded.sub (128 + palette.length) 128 = .ok palette.length := by
        rw [Guarded.sub_of_le (Nat.le_add_right 128 _), Nat.add_sub_cancel_left]
      refine ⟨.pixels ((expand (runs.map PaletteRun.value)).map color).toArray,
        (takes_u8 _).bind ?_, rfl⟩
      rw [if_neg not_raw, if_neg not_solid, if_neg not_packed, if_neg not_plain, if_pos indexed,
        UInt8.toNat_ofNat_of_lt' lt]
      refine (takes_guarded size).bind ?_
      refine (takes_readPalette reads palette).bind ?_
      exact takes_runTile (fun run _ => takes_paletteRun few run) fills

end

end RemoteFramebuffer.Zrle
