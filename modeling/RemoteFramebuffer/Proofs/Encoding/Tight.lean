/-
# `RemoteFramebuffer.Proofs.Encoding.Tight` — fills and filtered data are walked to their end

Both readers of a Tight rectangle come to the same filter, the same palette size and the same
length of the data, so that the data has the length that the filter needs.  Under the palette
filter it then holds a bit or a byte for every pixel, and under the gradient filter a
difference.  Files are the exception: drawing reads their length and leaves the rest.
-/
import RemoteFramebuffer.Proofs.Encoding.Walks
import RemoteFramebuffer.Proofs.Pixel.Format

namespace RemoteFramebuffer

open DecodeError (Clean clean_of)
open Guarded (Safe)
open Render

variable {P : DecodeError → Prop}

/-! ## Pieces -/

theorem length_chunksOf (size count : Nat) (bytes : Bytes) :
    (chunksOf size count bytes).length = count := by
  induction count generalizing bytes with
  | zero => rfl
  | succ count ih => rw [chunksOf, List.length_cons, ih]

theorem length_of_mem_chunksOf {size count : Nat} {bytes piece : Bytes}
    (enough : count * size ≤ bytes.length) (mem : piece ∈ chunksOf size count bytes) :
    piece.length = size := by
  induction count generalizing bytes with
  | zero => exact absurd mem List.not_mem_nil
  | succ count ih =>
      rw [Nat.succ_mul] at enough
      rcases List.mem_cons.mp mem with rfl | mem
      · exact List.length_take_of_le (by omega)
      · exact ih (by rw [List.length_drop]; omega) mem

theorem chunks_of_length {size count : Nat} {bytes : Bytes} (pos : 0 < size)
    (length : bytes.length = count * size) :
    (chunks size bytes).length = count ∧ ∀ piece ∈ chunks size bytes, piece.length = size := by
  have whole : bytes.length / max size 1 = count := by
    rw [Nat.max_eq_left pos, length, Nat.mul_div_cancel _ pos]
  rw [chunks, whole, Nat.max_eq_left pos]
  refine ⟨length_chunksOf _ _ _, fun piece mem => ?_⟩
  exact length_of_mem_chunksOf (Nat.le_of_eq length.symm) mem

/-! ## Lengths -/

section

variable [StreamDecoder]

theorem CompactLength.follows_parse :
    Follows CompactLength.capture P (fun length length' => length' = length)
      (Render.read CompactLength.parse) := by
  rw [CompactLength.parse, CompactLength.read, read_bind]
  refine follows_u8.bind fun _ first eq => ?_
  subst eq
  split
  · exact follows_pure rfl
  rw [read_bind]
  refine follows_u8.bind fun _ second eq => ?_
  subst eq
  split
  · exact follows_pure rfl
  rw [read_bind]
  refine follows_u8.bind fun _ third eq => ?_
  subst eq
  exact follows_pure rfl

end

namespace Tight

/-! ## Reading the parts -/

section

variable [StreamDecoder]

theorem follows_readFilter (explicit : Bool) :
    Follows (captureFilter explicit) P (fun filter filter' => filter' = filter)
      (read (readFilter explicit)) := by
  rw [captureFilter, readFilter]
  split
  · rw [read_bind]
    refine follows_u8.bind fun _ code eq => ?_
    subst eq
    exact follows_pure rfl
  · exact follows_pure rfl

theorem follows_readPalette (style : Style) (pixelSize : Nat) (filter : Filter) :
    Follows (capturePalette pixelSize filter) Clean (fun size palette => palette.size = size)
      (read (readPalette style pixelSize filter)) := by
  rw [capturePalette, readPalette]
  split
  · rw [read_bind]
    refine follows_u8.bind fun _ last eq => ?_
    subst eq
    simp only [read_bind, read_pure]
    have one : Follows (Capture.skip pixelSize) Clean (fun _ _ => True)
        (read (color style <$> Payload.take pixelSize)) := by
      rw [read_map]
      exact (follows_take _).map fun _ _ _ => trivial
    exact (follows_values one _).bind fun _ colors length => follows_pure length
  · exact follows_pure rfl

theorem follows_readData (stream : Fin 4) (size : Nat) :
    Follows (captureData size) Clean (fun _ data => data.length = size) (readData stream size) := by
  rw [captureData, readData]
  split
  · exact follows_take size
  · refine CompactLength.follows_parse.bind fun _ length eq => ?_
    subst eq
    refine (follows_take _).bind_after fun _ compressed _ => ?_
    refine .bind_draw (Draw.sat_inflate fun streams =>
      Streams.outcome_atLeast (Streams.outcome_inflate _ _ _)) fun inflated enough => ?_
    refine .bind_draw (Draw.sat_guarded (Guarded.safe_slice (Nat.zero_le _) enough)) fun _ _ => ?_
    exact follows_pure (List.length_take_of_le enough)

end

/-! ## Palette -/

theorem outcome_entry (palette : Array Rgba) (index : Nat) :
    Outcome Clean (fun _ => True) (entry palette index) := by
  rw [entry]
  split
  · trivial
  · exact clean_of nofun nofun

theorem outcome_expandRow (palette : Array Rgba) {width : Nat} {row : Array UInt8}
    (size : row.size = (width + 7) / 8) :
    Outcome Clean (fun _ => True) (expandRow palette width row) := by
  refine (Outcome.mapM (R := fun _ => True) fun x mem => ?_).mono (fun _ => id) fun _ _ => trivial
  have column := List.mem_range.mp mem
  have bit : Safe (fun _ => True) (bitAt row x) := by
    refine Outcome.bind (Guarded.safe_get (by omega)) fun byte _ => ?_
    refine Outcome.bind (Guarded.safe_sub (by omega)) fun amount eq => ?_
    exact Outcome.bind (Guarded.safe_shift (by omega)) fun _ _ => .pure trivial
  exact Outcome.bind bit.orFault fun bit _ => outcome_entry palette bit

theorem outcome_expandPalette (palette : Array Rgba) {area : Area} {indices : Bytes}
    (size : palette.size ≤ 2 →
      indices.length = area.height.toNat * ((area.width.toNat + 7) / 8)) :
    Outcome Clean (fun _ => True) (expandPalette palette area indices) := by
  rw [expandPalette]
  split
  · rename_i few
    refine Outcome.bind (Outcome.mapM (R := fun _ => True) fun y mem => ?_) fun _ _ => .pure trivial
    have row := List.mem_range.mp mem
    have last : (y + 1) * ((area.width.toNat + 7) / 8) ≤ indices.toArray.size := by
      rw [List.size_toArray, size few]
      exact Nat.mul_le_mul_right _ row
    have first : y * ((area.width.toNat + 7) / 8) ≤ (y + 1) * ((area.width.toNat + 7) / 8) :=
      Nat.mul_le_mul_right _ (Nat.le_succ y)
    refine Outcome.bind (Guarded.safe_extract first last).orFault fun row length => ?_
    refine outcome_expandRow palette ?_
    rw [length, Nat.succ_mul, Nat.add_sub_cancel_left]
  · exact Outcome.map (Outcome.mapM (R := fun _ => True) fun _ _ => outcome_entry palette _)
      fun _ _ => trivial

/-! ## Gradient -/

theorem safe_restoreRow (maxes : Sample) : ∀ {differences above : List Sample} (left corner),
    differences.length ≤ above.length →
      Safe (fun row => row.length = differences.length)
        (restoreRow maxes left corner above differences)
  | [], [], _, _, _ => .pure rfl
  | [], _ :: _, _, _, _ => .pure rfl
  | _ :: _, up :: _, _, _, le =>
      Outcome.bind (safe_restoreRow maxes _ up (Nat.le_of_succ_le_succ le)) fun _ length =>
        .pure (congrArg Nat.succ length)

theorem safe_restoreFirst (maxes : Sample) {differences above : List Sample}
    (le : differences.length ≤ above.length) :
    Safe (fun row => row.length = differences.length)
      (restoreFirst maxes above differences) := by
  cases differences with
  | nil => cases above <;> exact .pure rfl
  | cons difference differences =>
      cases above with
      | nil => exact absurd le (Nat.not_succ_le_zero _)
      | cons up above =>
          refine Outcome.bind (safe_restoreRow maxes _ up (Nat.le_of_succ_le_succ le)) ?_
          exact fun _ length => .pure (congrArg Nat.succ length)

theorem safe_restoreRows (maxes : Sample) {width : Nat} {rows : List (List Sample)}
    (widths : ∀ row ∈ rows, row.length = width) :
    ∀ {above}, above.length = width → Safe (fun _ => True) (restoreRows maxes above rows) := by
  induction rows with
  | nil => exact fun _ => .pure trivial
  | cons differences rows ih =>
      intro above length
      have first : differences.length = width := widths differences List.mem_cons_self
      refine Outcome.bind (safe_restoreFirst maxes (by omega)) fun row same => ?_
      have rest : Safe (fun _ => True) (restoreRows maxes row rows) :=
        ih (fun row mem => widths row (List.mem_cons_of_mem _ mem)) (by omega)
      exact Outcome.bind rest fun _ _ => .pure trivial

/-- What pixels of a size hold can be taken out and put back. -/
structure SampleForm.Fits (form : SampleForm) (size : Nat) : Prop where
  ofPixel : ∀ pixel : Bytes, pixel.length = size → Safe (fun _ => True) (form.ofPixel pixel)
  color : ∀ sample, Safe (fun _ => True) (form.color sample)

theorem SampleForm.fits_ofStyle {style : Style} (valid : style.format.validate = .ok ())
    (color : style.format.isTrueColor = true) (size : Nat) :
    (SampleForm.ofStyle style size).Fits size := by
  rw [SampleForm.ofStyle]
  split
  · rename_i three
    refine ⟨fun pixel length => ?_, fun _ => .pure trivial⟩
    have level {i : Nat} (h : i < 3) : Safe (fun _ => True) (Guarded.get pixel.toArray i) :=
      (Guarded.safe_get (by rw [List.size_toArray]; omega)).forget
    refine Outcome.bind (level (by omega)) fun red _ => ?_
    refine Outcome.bind (level (by omega)) fun green _ => ?_
    exact Outcome.bind (level (by omega)) fun blue _ => .pure trivial
  · obtain ⟨red, green, blue⟩ := PixelFormat.shift_lt_of_validate valid color
    have taken {c : Channel} (h : c.shift.toNat < 32) (value : Nat) :
        Safe (fun _ => True) (component c value) :=
      Outcome.bind (Guarded.safe_shift h) fun _ _ => .pure trivial
    have put {c : Channel} (h : c.shift.toNat < 32) (value : Nat) :
        Safe (fun _ => True) (placed c value) :=
      Outcome.bind (Guarded.safe_shift h) fun _ _ => .pure trivial
    constructor
    · intro pixel _
      refine Outcome.bind (taken red _) fun _ _ => ?_
      refine Outcome.bind (taken green _) fun _ _ => ?_
      exact Outcome.bind (taken blue _) fun _ _ => .pure trivial
    · intro sample
      refine Outcome.bind (put red _) fun _ _ => ?_
      refine Outcome.bind (put green _) fun _ _ => ?_
      exact Outcome.bind (put blue _) fun _ _ => .pure trivial

theorem safe_differences {form : SampleForm} {size width : Nat} (fits : form.Fits size)
    (pos : 0 < size) {row : Bytes} (length : row.length = width * size) :
    Safe (fun samples => samples.length = width) (differences form size row) := by
  obtain ⟨count, sizes⟩ := chunks_of_length pos length
  refine Outcome.bind (Guarded.safe_pieces (by omega)) fun _ _ => ?_
  refine (Outcome.mapM fun pixel mem => fits.ofPixel pixel (sizes pixel mem)).mono (fun _ => id) ?_
  exact fun samples same => same.1.trans count

theorem safe_undoDifferences {form : SampleForm} {size width height : Nat} (fits : form.Fits size)
    (pos : 0 < width * size) {data : Bytes} (length : data.length = height * (width * size)) :
    Safe (fun _ => True) (undoDifferences form width size data) := by
  obtain ⟨-, sizes⟩ := chunks_of_length pos length
  refine Outcome.bind (Guarded.safe_pieces (by omega)) fun _ _ => ?_
  refine Outcome.bind (Outcome.mapM fun row mem =>
    safe_differences fits (Nat.pos_of_mul_pos_left pos) (sizes row mem)) fun rows widths => ?_
  refine Outcome.bind (safe_restoreRows _ widths.2 List.length_replicate) fun rows _ => ?_
  exact Outcome.bind (Outcome.mapM (R := fun _ => True) fun sample _ => fits.color sample)
    fun _ _ => .pure trivial

/-! ## Rendering -/

variable {style : Style}

theorem pixelSize_pos {pf : PixelFormat} (valid : pf.validate = .ok ()) : 0 < pixelSize pf := by
  have := PixelFormat.bytesPerPixel_of_validate valid
  rw [pixelSize]
  split <;> omega

theorem outcome_colors (valid : style.format.validate = .ok ()) {area : Area}
    (present : area.pixels ≠ 0) {palette : Array Rgba} {data : Bytes} {filter : Filter}
    (length : data.length = dataSize area filter palette.size (pixelSize style.format)) :
    Outcome Clean (fun _ => True)
      (colors style area (pixelSize style.format) palette data filter) := by
  have pos := pixelSize_pos valid
  cases filter with
  | copy =>
      exact Outcome.bind (Guarded.safe_pieces (by omega)).orFault fun _ _ => .pure trivial
  | palette =>
      refine outcome_expandPalette palette fun few => ?_
      rw [length, dataSize, if_pos few]
  | gradient =>
      show Outcome _ _ (undoGradient _ _ _ _)
      rw [undoGradient]
      split
      · exact clean_of nofun nofun
      · rename_i right
        have color : style.format.isTrueColor = true :=
          Decidable.not_not.mp fun h => right (.inl h)
        have columns : 0 < area.width.toNat :=
          Nat.pos_of_mul_pos_right (Nat.pos_of_ne_zero present)
        have rows : data.length =
            area.height.toNat * (area.width.toNat * pixelSize style.format) := by
          rw [length]
          show area.width.toNat * area.height.toNat * pixelSize style.format = _
          rw [Nat.mul_comm area.width.toNat, Nat.mul_assoc]
        exact (safe_undoDifferences (SampleForm.fits_ofStyle valid color _)
          (Nat.mul_pos columns pos) rows).orFault
  | unknown code => exact clean_of nofun nofun

variable [StreamDecoder]

/-- A filter that is known is read and its data drawn alike by capture and drawing. -/
theorem follows_renderFiltered (valid : style.format.validate = .ok ()) (area : Area)
    (stream : Fin 4) (filter : Filter) :
    Follows (captureFiltered area (pixelSize style.format) filter) Clean (fun _ _ => True)
      (renderFiltered style area stream filter) := by
  refine (follows_readPalette style _ filter).bind fun _ palette eq => ?_
  subst eq
  refine (follows_readData stream _).bind_after fun _ data length => ?_
  split
  · exact follows_pure trivial
  · rename_i present
    refine follows_draw (Draw.Sat.bind (Draw.sat_ofExcept (outcome_colors valid present length)) ?_)
    exact fun _ _ => Draw.sat_image _ _

theorem follows_renderBasic (valid : style.format.validate = .ok ()) (area : Area)
    (stream : Fin 4) (explicit : Bool) :
    Follows (captureBasic area (pixelSize style.format) explicit) Clean (fun _ _ => True)
      (renderBasic style area stream explicit) := by
  rw [captureBasic]
  split
  · exact follows_captureFail
  refine (follows_readFilter explicit).bind fun filter _ eq => ?_
  rw [eq]
  cases filter with
  | unknown code => exact follows_captureFail
  | _ => exact follows_renderFiltered valid area stream _

theorem follows_renderFill (style : Style) (area : Area) :
    Follows (Capture.skip (pixelSize style.format)) Clean (fun _ _ => True)
      (renderFill style area) := by
  refine (follows_take _).bind_after fun _ pixel _ => ?_
  split
  · exact follows_pure trivial
  · exact follows_draw (Draw.sat_fill _ _)

/-- Drawing goes through the data of this kind to its end. -/
def Control.walks : Control → Bool
  | .fill | .basic _ _ => true
  | .jpeg | .png | .reserved _ _ => false

theorem sat_renderFile {data rest : Bytes} (run : captureFile.run data = (.ok (), rest)) :
    Draw.Sat P (fun _ => True) (renderFile data) := by
  obtain ⟨length, mid, first, -⟩ := Reader.run_bind_ok.mp run
  refine Draw.Sat.bind (CompactLength.follows_parse _ _ _ first) fun _ _ => ?_
  exact Draw.sat_pure trivial

theorem sat_renderKind (valid : style.format.validate = .ok ()) {area : Area} {isPng : Bool}
    {control : UInt8} {data rest : Bytes}
    (run : (captureKind area style.format isPng control).run data = (.ok (), rest)) :
    Draw.Sat Clean (fun out => (Control.ofByte control).walks → out.2 = rest)
      (renderKind style area (Control.ofByte control) data) := by
  unfold captureKind at run
  -- A kind that the capture refuses leaves nothing to show: its run is an error.
  generalize Control.ofByte control = kind at run ⊢
  cases kind with
  | fill => exact (follows_renderFill style area _ _ _ run).mono (fun _ => id) fun _ h _ => h.1
  | jpeg =>
      cases isPng with
      | true => cases run
      | false =>
          by_cases indexed : style.format.bitsPerPixel = 8
          · rw [if_pos indexed] at run
            cases run
          · rw [if_neg indexed] at run
            exact (sat_renderFile run).mono (fun _ => id) fun _ _ => nofun
  | png =>
      cases isPng with
      | true => exact (sat_renderFile run).mono (fun _ => id) fun _ _ => nofun
      | false => cases run
  | basic stream explicit =>
      cases isPng with
      | true => cases run
      | false =>
          exact (follows_renderBasic valid area stream explicit _ _ _ run).mono (fun _ => id)
            fun _ h _ => h.1
  | reserved stream explicit => cases isPng <;> cases run

theorem sat_render (valid : style.format.validate = .ok ()) {area : Area} {isPng : Bool}
    {control : UInt8} {data rest : Bytes}
    (run : (capture area style.format isPng).run (control :: data) = (.ok (), rest)) :
    Draw.Sat Clean (fun out => (Control.ofByte control).walks → out.2 = rest)
      (render style area (control :: data)) := by
  obtain ⟨control', mid, first, run⟩ := Reader.run_bind_ok.mp run
  have split := first
  rw [Capture.u8, Reader.run_mapError_ok, Reader.run_u8_ok] at split
  cases split
  refine Draw.Sat.bind (follows_u8 _ _ _ first) ?_
  rintro ⟨_, _⟩ ⟨⟨⟩, ⟨⟩⟩
  refine Draw.Sat.bind (sat_draw (Draw.sat_changeStreams _) _) ?_
  rintro ⟨_, _⟩ ⟨⟨⟩, -⟩
  exact sat_renderKind valid run

end Tight

end RemoteFramebuffer
