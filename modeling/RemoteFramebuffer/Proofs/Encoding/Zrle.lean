/-
# `RemoteFramebuffer.Proofs.Encoding.Zrle` — tile data can be short, but leads to no fault

The captured data of a ZRLE rectangle is a length and as many bytes; what these inflate to was
never measured, so a tile may find it too short.  Whatever it finds, it never takes a step that
cannot be taken: a byte holds every index that is cut from it, an index that a palette does not
have is refused, and runs end with their tile.
-/
import RemoteFramebuffer.Proofs.Encoding.Walks

namespace RemoteFramebuffer

open DecodeError (Clean CleanOutsideTiles Faultless clean_of)
open Guarded (Safe)
open Render

variable {α β : Type}

/-! ## Readers of tile data -/

namespace Payload

/-- Whatever the data is, takes every step that it comes to, and gives a value with `Q` unless
it fails. -/
def Sat (Q : α → Prop) (p : Payload α) : Prop :=
  ∀ data, Outcome Faultless (fun out => Q out.1) (p data)

variable {Q : α → Prop} {R : β → Prop} {p : Payload α}

theorem sat_pure {a : α} (h : Q a) : Sat Q (pure a) := fun _ => h

theorem sat_fail {cause : DecodeCause} (h : ∀ kind, cause ≠ .fault kind) :
    Sat Q (fail cause : Payload α) := fun _ => h

theorem sat_take (n : Nat) : Sat (fun piece => piece.length = n) (take n) := by
  intro data
  dsimp only [take]
  split
  · exact nofun
  · rename_i enough
    rw [List.length_take] at enough
    exact List.length_take_of_le (by omega)

theorem sat_guarded {g : Guarded α} (h : Safe Q g) : Sat Q (guarded g) := fun _ =>
  Outcome.bind h.orFault fun _ ha => .pure ha

namespace Sat

theorem bind {f : α → Payload β} (hp : Sat Q p) (hf : ∀ a, Q a → Sat R (f a)) :
    Sat R (p >>= f) := fun data => Outcome.bind (hp data) fun out h => hf out.1 h out.2

theorem map {f : α → β} (hp : Sat Q p) (hf : ∀ a, Q a → R (f a)) : Sat R (f <$> p) :=
  bind hp fun a ha => sat_pure (hf a ha)

theorem forget (hp : Sat Q p) : Sat (fun _ => True) p := fun data =>
  (hp data).mono (fun _ => id) fun _ _ => trivial

theorem mapM {ι : Type} {f : ι → Payload α} {l : List ι} (hf : ∀ i ∈ l, Sat Q (f i)) :
    Sat (fun _ => True) (l.mapM f) := by
  induction l with
  | nil => exact sat_pure trivial
  | cons i l ih =>
      rw [List.mapM_cons]
      refine bind (hf i List.mem_cons_self) fun _ _ => ?_
      exact bind (ih fun i mem => hf i (List.mem_cons_of_mem _ mem)) fun _ _ => sat_pure trivial

theorem values (hp : Sat Q p) (count : Nat) : Sat (fun _ => True) (Payload.values p count) := by
  have go (count : Nat) : ∀ seen, Sat (fun _ => True) (valuesOnto p seen count) := by
    induction count with
    | zero => exact fun seen => sat_pure trivial
    | succ count ih => exact fun seen => bind hp fun a _ => ih (a :: seen)
  exact go count []

end Sat

theorem sat_word (n : Nat) : Sat (fun _ => True) (word n) := by
  refine (sat_take n).bind fun piece length => ?_
  exact (sat_guarded (Guarded.safe_first (Nat.le_of_eq length.symm))).bind fun _ _ =>
    sat_pure trivial

theorem sat_u8 : Sat (fun _ => True) u8 := (sat_word 1).map fun _ _ => trivial

end Payload

open Payload (sat_pure sat_fail sat_take sat_guarded sat_u8)

theorem CompactPixel.sat_read (form : CompactPixel) (style : Style) :
    Payload.Sat (fun _ => True) (form.read style) := by
  have three : Payload.Sat (fun _ => True) read.three :=
    (sat_take 3).bind fun sent length =>
      (sat_guarded (Guarded.safe_first (Nat.le_of_eq length.symm))).forget
  cases form with
  | full => exact (sat_take _).map fun _ _ => trivial
  | first => exact three.map fun _ _ => trivial
  | last => exact three.map fun _ _ => trivial

/-! ## Tiles -/

namespace Zrle

theorem sat_entry (palette : Array Rgba) (index : Nat) :
    Payload.Sat (fun _ => True) (entry palette index) := by
  rw [entry]
  split
  · exact sat_pure trivial
  · exact sat_fail nofun

theorem sat_readPalette {pixel : Payload Rgba} (h : pixel.Sat fun _ => True) (size : Nat) :
    Payload.Sat (fun _ => True) (readPalette pixel size) := (h.values size).map fun _ _ => trivial

theorem indexBits_pos (size : Nat) : 0 < indexBits size ∧ indexBits size ≤ 4 := by
  rw [indexBits]
  split
  · decide
  · split <;> decide

theorem safe_indexAt {bits i : Nat} (h : 0 < bits ∧ bits ≤ 4) (lt : i < 8 / bits) (byte : UInt8) :
    Safe (fun _ => True) (indexAt bits i byte) := by
  have fits : (i + 1) * bits ≤ 8 := (Nat.le_div_iff_mul_le h.1).mp lt
  have some : bits ≤ (i + 1) * bits := Nat.le_mul_of_pos_left bits i.succ_pos
  rw [Nat.mul_comm] at fits some
  refine Outcome.bind (Guarded.safe_sub fits) fun available eq => ?_
  subst eq
  refine Outcome.bind (Guarded.safe_shift (by omega)) fun _ _ => ?_
  exact Outcome.bind (Guarded.safe_shift (by omega)) fun _ _ => .pure trivial

theorem sat_unpackByte (palette : Array Rgba) {bits count : Nat} (h : 0 < bits ∧ bits ≤ 4)
    (le : count ≤ 8 / bits) (byte : UInt8) :
    Payload.Sat (fun _ => True) (unpackByte palette bits count byte) := by
  refine Payload.Sat.mapM (Q := fun _ => True) fun i mem => ?_
  have lt := List.mem_range.mp mem
  exact (sat_guarded (safe_indexAt h (by omega) byte)).bind fun index _ => sat_entry palette index

theorem sat_readPackedRow (palette : Array Rgba) {bits : Nat} (h : 0 < bits ∧ bits ≤ 4)
    (width : Nat) : Payload.Sat (fun _ => True) (readPackedRow palette bits width) := by
  refine Payload.Sat.bind (Payload.Sat.mapM (Q := fun _ => True) fun i _ => ?_) fun _ _ =>
    sat_pure trivial
  exact sat_u8.bind fun byte _ => sat_unpackByte palette h (Nat.min_le_left _ _) byte

theorem sat_runLengthFrom (sum : Nat) : Payload.Sat (fun _ => True) (runLengthFrom sum) := by
  intro data
  induction data generalizing sum with
  | nil => exact nofun
  | cons byte rest ih =>
      rw [runLengthFrom]
      split
      · exact ih _
      · trivial

theorem sat_plainRun {pixel : Payload Rgba} (h : pixel.Sat fun _ => True) :
    Payload.Sat (fun _ => True) (plainRun pixel) :=
  h.bind fun _ _ => (sat_runLengthFrom 0).bind fun _ _ => sat_pure trivial

theorem sat_paletteRun (palette : Array Rgba) :
    Payload.Sat (fun _ => True) (paletteRun palette) := by
  refine sat_u8.bind fun byte _ => ?_
  refine (sat_entry palette _).bind fun color _ => ?_
  split
  · exact sat_pure trivial
  · exact (sat_runLengthFrom 0).bind fun _ _ => sat_pure trivial

theorem sat_runsOnto {run : Payload (Rgba × Nat)} (h : run.Sat fun _ => True) (count : Nat)
    (seen : Array Rgba) : Payload.Sat (fun _ => True) (runsOnto run count seen) := by
  induction seen using runsOnto.induct count with
  | case1 seen less ih =>
      rw [runsOnto, if_pos less]
      refine h.bind fun out _ => ?_
      have room : Safe (fun _ => True) (Guarded.require (seen.size ≤ count) .underflow) :=
        Guarded.safe_require (decide_eq_true (Nat.le_of_lt less))
      exact (sat_guarded room).bind fun _ _ => ih out.1 out.2
  | case2 seen full =>
      rw [runsOnto, if_neg full]
      exact sat_pure trivial

theorem sat_readTile {pixel : Payload Rgba} (h : pixel.Sat fun _ => True) (tile : Rect) :
    Payload.Sat (fun _ => True) (readTile pixel tile) := by
  refine sat_u8.bind fun code _ => ?_
  split
  · exact (h.values _).bind fun _ _ => sat_pure trivial
  split
  · exact h.bind fun _ _ => sat_pure trivial
  split
  · refine (sat_readPalette h _).bind fun palette _ => ?_
    refine ((sat_readPackedRow palette (indexBits_pos _) _).values _).bind fun _ _ => ?_
    exact sat_pure trivial
  split
  · exact (sat_runsOnto (sat_plainRun h) _ _).bind fun _ _ => sat_pure trivial
  split
  · rename_i high
    have enough : 128 ≤ code.toNat := Nat.le_trans (by decide) (UInt8.le_iff_toNat_le.mp high)
    refine (sat_guarded (Guarded.safe_sub enough)).bind fun size _ => ?_
    refine (sat_readPalette h size).bind fun palette _ => ?_
    exact (sat_runsOnto (sat_paletteRun palette) _ _).bind fun _ _ => sat_pure trivial
  · exact sat_fail nofun

/-! ## Rendering -/

variable [StreamDecoder]

theorem sat_renderTile {pixel : Payload Rgba} (h : pixel.Sat fun _ => True) (tile : Rect)
    (data : Bytes) : Draw.Sat CleanOutsideTiles (fun _ => True) (renderTile pixel tile data) := by
  refine Draw.Sat.within (P := Faultless) (Q := fun _ => True) ?_ fun e he => he.within_tile tile
  have drawn (shown : Tile) : Draw.Sat Clean (fun _ => True) (drawTile tile shown) := by
    cases shown with
    | solid color => exact Draw.sat_fill _ _
    | pixels colors => exact Draw.sat_image _ _
  refine Draw.Sat.bind (Draw.sat_ofExcept (sat_readTile h tile data)) fun out _ => ?_
  exact (sat_drawOnly (drawn out.1) out.2).mono (fun _ h => h.faultless) fun _ => id

theorem sat_renderTiles (style : Style) (area : Area) (data : Bytes) :
    Draw.Sat CleanOutsideTiles (fun _ => True) (renderTiles style area data) := by
  have pixel := CompactPixel.sat_read (.ofFormat style.format) style
  refine Draw.Sat.bind (sat_foldTiles area.extent_lt tileSize
    (fun _ => sat_renderTile pixel) () data) fun out _ => ?_
  refine sat_get ?_
  by_cases all : out.2.isEmpty
  · rw [if_pos all]
    exact Draw.sat_pure trivial
  · rw [if_neg all]
    have trailing : Draw.Sat Clean (fun _ : Unit => True) (Draw.fail (.trailing out.2.length)) :=
      Draw.sat_fail (clean_of nofun nofun)
    exact (sat_drawOnly trailing out.2).mono (fun _ h => h.outsideTiles) fun _ => id

theorem follows_render (style : Style) (area : Area) :
    Follows Zlib.capture CleanOutsideTiles (fun _ _ => True) (render style area) := by
  refine Zlib.follows_body.bind_after fun _ compressed _ => ?_
  refine follows_draw (Draw.Sat.bind (Draw.sat_inflate (Q := fun _ => True) fun streams => ?_)
    fun inflated _ => sat_whole (sat_renderTiles style area inflated))
  exact (Streams.outcome_inflate _ _ _).mono (fun _ h => h.outsideTiles) fun _ => id

end Zrle

end RemoteFramebuffer
