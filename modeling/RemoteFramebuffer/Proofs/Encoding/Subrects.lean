/-
# `RemoteFramebuffer.Proofs.Encoding.Subrects` — the last sub-rectangle over a pixel is seen

## What is proved

Of every format and rectangle on the canvas, a background and any list of parts over it, in the wide
form and in the narrow one (`decode_paints`):

    reading them                     takes just their bytes, whatever follows
    every part fits                  drawing succeeds; a pixel shows the last part over it, or the
                                     background
    the first that does not is k     drawing fails and names part k; the background and the parts
                                     before k are to be seen

No pixel outside the rectangle changes.

## How it is proved

An RRE or CoRRE rectangle is sent as

    count        four bytes
    background   one pixel
    parts        for each a pixel and its place: column, row, width and height

A part fits if it does not stick out of the rectangle on the right or below; one without pixels
may lie on the very edge.  Drawing paints the background and then part after part, so that before
part `k` the layer over the picture is that of the parts before it.  The first part that does not
fit ends the drawing; what was painted before it stays.
-/
import Mathlib.Data.List.Induction
import RemoteFramebuffer.Deflate.Decoder
import RemoteFramebuffer.Proofs.Encoding.Capture
import RemoteFramebuffer.Proofs.Encoding.Frame
import RemoteFramebuffer.Proofs.Encoding.Painting
import RemoteFramebuffer.Proofs.Pixel.Format

namespace RemoteFramebuffer.Subrects

open Payload (takes_number takes_pure takes_take takes_u32 takes_u8)
open Render (Paints paints_fill paints_pure paints_read)

variable {kind : Subrects} {format : PixelFormat} {style : Style} {area : Area}

/-! ## What is sent -/

def encoding : Subrects → Encoding
  | words => .rre
  | bytes => .coRre

def limit (kind : Subrects) : Nat := Nat.pow 256 kind.coordinateSize

/-- A pixel and the place within the rectangle that it is to fill. -/
structure Part (kind : Subrects) (format : PixelFormat) where
  pixel : format.Pixel
  x : Nat
  y : Nat
  width : Nat
  height : Nat
  small : x < kind.limit ∧ y < kind.limit ∧ width < kind.limit ∧ height < kind.limit

namespace Part

variable (part : Part kind format) (area : Area)

def placeBytes : Bytes :=
  Bytes.ofNat kind.coordinateSize part.x ++ (Bytes.ofNat kind.coordinateSize part.y ++
    (Bytes.ofNat kind.coordinateSize part.width ++ Bytes.ofNat kind.coordinateSize part.height))

def bytes : Bytes := part.pixel.bytes ++ part.placeBytes

def place : Rect := ⟨part.x, part.y, part.width, part.height⟩

def on : Rect := ⟨area.x.toNat + part.x, area.y.toNat + part.y, part.width, part.height⟩

def FitsIn : Prop :=
  part.x + part.width ≤ area.width.toNat ∧ part.y + part.height ≤ area.height.toNat

instance : Decidable (part.FitsIn area) := by
  unfold FitsIn
  infer_instance

end Part

/-- A background and the parts over it, as they are sent. -/
def sent (background : format.Pixel) (parts : List (Part kind format)) : Bytes :=
  Bytes.ofNat 4 parts.length ++ (background.bytes ++ parts.flatMap Part.bytes)

/-- The pixel to be seen at a place of the canvas: that of the last part there, if there is one. -/
def shownAt (area : Area) (background : format.Pixel) (parts : List (Part kind format))
    (x y : Nat) : format.Pixel :=
  ((parts.reverse.find? fun part => (part.on area).Covers x y).map Part.pixel).getD background

/-- The canvas shows this at every pixel of the rectangle. -/
def Shown (style : Style) (area : Area) (background : style.format.Pixel)
    (parts : List (Part kind style.format)) (c : Canvas) : Prop :=
  ∀ x y : Nat, area.rect.Covers x y →
    c.raster.pixel? x y = some (style.color (shownAt area background parts x y).bytes)

/-! ## Capturing -/

theorem length_placeBytes (part : Part kind format) : part.placeBytes.length = kind.placeSize := by
  simp only [Part.placeBytes, List.length_append, Bytes.length_ofNat]
  cases kind <;> rfl

theorem takes_capture (background : format.Pixel) {parts : List (Part kind format)}
    (countable : parts.length < 0x100000000) :
    (kind.capture format).Takes (sent background parts) () := by
  obtain ⟨count, eq, -, same⟩ := Bytes.exists_word parts.length
  rw [sent, eq]
  refine (Capture.takes_u32 count).bind ?_
  refine (Capture.takes_skip background.length_bytes).bind (Capture.takes_skip ?_)
  rw [same countable]
  refine Bytes.length_flatMap_of_forall fun part _ => ?_
  rw [Part.bytes, List.length_append, part.pixel.length_bytes, length_placeBytes]

theorem capturePayload_encoding (kind : Subrects) (area : Area) (format : PixelFormat) :
    Codec.capturePayload kind.encoding area format = kind.capture format := by
  cases kind <;> rfl

/-! ## Drawing a part -/

theorem takes_pixel (pixel : style.format.Pixel) :
    (Payload.take style.bytesPerPixel).Takes pixel.bytes pixel.bytes := takes_take pixel.length_bytes

theorem takes_coordinate {n : Nat} (small : n < kind.limit) :
    kind.coordinate.Takes (Bytes.ofNat kind.coordinateSize n) n := by
  cases kind with
  | words => exact takes_number small
  | bytes =>
      obtain ⟨b, eq, same⟩ := Bytes.exists_byte small
      show (UInt8.toNat <$> Payload.u8).Takes (Bytes.ofNat 1 n) n
      rw [eq, ← same]
      exact (takes_u8 b).map _

theorem takes_place (part : Part kind format) : kind.place.Takes part.placeBytes part.place := by
  obtain ⟨x, y, width, height⟩ := part.small
  refine (takes_coordinate x).bind ?_
  refine (takes_coordinate y).bind ?_
  refine (takes_coordinate width).bind ?_
  exact (takes_coordinate height).bind_nil (takes_pure _)

section

variable [StreamDecoder] {start : Raster} {layer : Layer}

def painted (style : Style) (area : Area) (layer : Layer) (part : Part kind style.format) : Layer :=
  layer.paint (part.on area) fun _ _ => style.color part.pixel.bytes

theorem paints_renderOne (held : start.holds area.rect = true) {part : Part kind style.format}
    (fits : part.FitsIn area) (index : Nat) :
    Paints start layer (kind.renderOne style area index) part.bytes ()
      (painted style area layer part) := by
  have within : start.holds (part.on area) = true := by
    have held := Raster.holds_iff.mp held
    rw [Raster.holds_iff, Part.on]
    unfold Area.rect at held
    unfold Part.FitsIn at fits
    dsimp only at held ⊢
    omega
  have inside : ¬ ((area.width.toNat : Int) < part.place.x + part.place.width ∨
      (area.height.toNat : Int) < part.place.y + part.place.height) := by
    unfold Part.FitsIn at fits
    unfold Part.place
    dsimp only
    omega
  refine (paints_read (takes_pixel part.pixel)).bind ?_
  refine (paints_read (takes_place part)).bind_nil ?_
  rw [if_neg inside]
  exact paints_fill within _

theorem renderOne_refuses {part : Part kind style.format} (sticks : ¬ part.FitsIn area)
    (index : Nat) (rest : Bytes) (scene : Scene) :
    kind.renderOne style area index (part.bytes ++ rest) scene =
      (.error (DecodeError.of
        (.outsideRect index part.place area.width.toNat area.height.toNat)), scene) := by
  have outside : (area.width.toNat : Int) < part.place.x + part.place.width ∨
      (area.height.toNat : Int) < part.place.y + part.place.height := by
    unfold Part.FitsIn at sticks
    unfold Part.place
    dsimp only
    omega
  rw [renderOne, Part.bytes, List.append_assoc,
    Render.read_bind_of_takes (takes_pixel part.pixel),
    Render.read_bind_of_takes (takes_place part), if_pos outside]
  rfl

/-! ## Drawing the parts -/

/-- Parts that fit are painted one over another, and drawing goes on with those behind them. -/
theorem renderFrom_append (held : start.holds area.rect = true)
    {drawn : List (Part kind style.format)} (fit : ∀ part ∈ drawn, part.FitsIn area)
    (left index : Nat) (rest : Bytes) {c : Canvas} (streams : Streams)
    (layered : c.Layered start layer) :
    ∃ c' : Canvas, kind.renderFrom style area (left + drawn.length) index
        (drawn.flatMap Part.bytes ++ rest) ⟨c, streams⟩ =
      kind.renderFrom style area left (index + drawn.length) rest ⟨c', streams⟩ ∧
      c'.Layered start (drawn.foldl (painted style area) layer) := by
  induction drawn generalizing layer index c with
  | nil => exact ⟨c, rfl, layered⟩
  | cons part drawn ih =>
      obtain ⟨here, fit⟩ := List.forall_mem_cons.mp fit
      obtain ⟨c₁, first, layered₁⟩ :=
        paints_renderOne held here index (drawn.flatMap Part.bytes ++ rest) c streams layered
      obtain ⟨c₂, others, layered₂⟩ := ih fit (index + 1) layered₁
      refine ⟨c₂, ?_, layered₂⟩
      rw [List.flatMap_cons, List.append_assoc, List.length_cons, ← Nat.add_assoc index,
        Nat.add_right_comm, ← others]
      exact Render.bind_of_ok first _

def layerOf (style : Style) (area : Area) (background : style.format.Pixel)
    (parts : List (Part kind style.format)) : Layer :=
  parts.foldl (painted style area)
    (Layer.empty.paint area.rect fun _ _ => style.color background.bytes)

omit [StreamDecoder] in
theorem layerOf_covered (background : style.format.Pixel) (parts : List (Part kind style.format))
    {x y : Nat} (covered : area.rect.Covers x y) :
    layerOf style area background parts x y =
      some (style.color (shownAt area background parts x y).bytes) := by
  induction parts using List.reverseRecOn with
  | nil => exact if_pos covered
  | append_singleton parts part ih =>
      have last : layerOf style area background (parts ++ [part]) =
          painted style area (layerOf style area background parts) part := by
        rw [layerOf, List.foldl_append]
        rfl
      rw [last, painted, Layer.paint, shownAt, List.reverse_append, List.reverse_singleton,
        List.singleton_append, List.find?_cons]
      by_cases here : (part.on area).Covers x y
      · rw [if_pos here, decide_eq_true here]
        rfl
      · rw [if_neg here, decide_eq_false here]
        exact ih

omit [StreamDecoder] in
theorem shown_of_layered (held : start.holds area.rect = true) {background : style.format.Pixel}
    {drawn : List (Part kind style.format)} {c : Canvas}
    (layered : c.Layered start (layerOf style area background drawn)) :
    Shown style area background drawn c := by
  intro x y covered
  exact layered.pixel?_of_some (Raster.lt_of_covers held covered)
    (layerOf_covered background drawn covered)

/-- Drawing paints the background and the parts that fit, and comes to those behind them. -/
theorem render_append (held : start.holds area.rect = true) (background : style.format.Pixel)
    {drawn left : List (Part kind style.format)}
    (countable : (drawn ++ left).length < 0x100000000) (fit : ∀ part ∈ drawn, part.FitsIn area)
    {c : Canvas} (streams : Streams) (layered : c.Layered start .empty) :
    ∃ c' : Canvas, kind.render style area (sent background (drawn ++ left)) ⟨c, streams⟩ =
        kind.renderFrom style area left.length drawn.length (left.flatMap Part.bytes) ⟨c', streams⟩ ∧
      c'.Layered start (layerOf style area background drawn) := by
  obtain ⟨c₁, filled, layered₁⟩ :=
    paints_fill held (style.color background.bytes) ((drawn ++ left).flatMap Part.bytes) c streams
      layered
  rw [List.nil_append] at filled
  obtain ⟨c₂, others, layered₂⟩ :=
    renderFrom_append held fit left.length 0 (left.flatMap Part.bytes) streams layered₁
  refine ⟨c₂, ?_, layered₂⟩
  rw [render, sent, Render.read_bind_of_takes (takes_u32 countable),
    Render.read_bind_of_takes (takes_pixel background), Render.bind_of_ok filled,
    List.flatMap_append, List.length_append, Nat.add_comm drawn.length, others, Nat.zero_add]

/-! ## Reading and drawing -/

theorem renderPayload_encoding (kind : Subrects) (style : Style) (area : Area) :
    Codec.renderPayload kind.encoding style area = kind.render style area := by
  cases kind <;> rfl

omit [StreamDecoder] in
theorem encoding_mem_pictures (kind : Subrects) : kind.encoding ∈ Codec.pictures := by
  cases kind <;> decide

/-- **The last sub-rectangle over a pixel is seen.**  Let the rectangle lie on the canvas.  A
background and parts over it are read as a payload, whatever follows them.  If every part fits,
drawing succeeds and each pixel of the rectangle shows the last part over it, or the background.
Otherwise drawing ends at the first part that does not fit and names it, and the background and the
parts before it are to be seen.  No pixel outside the rectangle changes. -/
theorem decode_paints {scene : Scene} (tracked : scene.canvas.Tracked)
    (held : scene.canvas.raster.holds area.rect = true) (background : style.format.Pixel)
    (parts : List (Part kind style.format)) (countable : parts.length < 0x100000000) :
    (∀ rest, (Codec.read kind.encoding area style.format).run (sent background parts ++ rest) =
      (.ok ⟨kind.encoding, sent background parts⟩, rest)) ∧
    let after := Codec.render ⟨kind.encoding, sent background parts⟩ style area scene
    scene.canvas.ChangesOnly area.rect after.2.canvas ∧
    ((∀ part ∈ parts, part.FitsIn area) →
      after.1 = .ok () ∧ Shown style area background parts after.2.canvas) ∧
    ∀ before part rest, parts = before ++ part :: rest →
      (∀ part ∈ before, part.FitsIn area) → ¬ part.FitsIn area →
      after.1 = .error ⟨[.rendering kind.encoding area],
        .outsideRect before.length part.place area.width.toNat area.height.toNat⟩ ∧
      Shown style area background before after.2.canvas := by
  constructor
  · intro rest
    refine Codec.run_read_ok.mpr ⟨rfl, rfl, ?_⟩
    rw [capturePayload_encoding]
    exact takes_capture background countable rest
  intro after
  rw [← Canvas.holds_picture] at held
  refine ⟨?_, fun fit => ?_, fun before part rest eq fit sticks => ?_⟩
  · have stays := Codec.staysIn_renderPayload (encoding_mem_pictures kind) style area
    exact (Render.staysIn_whole stays _).within _ scene
  · rw [← List.append_nil parts] at countable
    obtain ⟨canvas, drawn, layered⟩ :=
      render_append held background countable fit scene.streams (.refl tracked)
    rw [List.append_nil, ← renderPayload_encoding] at drawn
    have ends : after = _ := Codec.render_eq drawn
    rw [ends]
    exact ⟨rfl, shown_of_layered held layered⟩
  · subst eq
    obtain ⟨canvas, drawn, layered⟩ :=
      render_append held background countable fit scene.streams (.refl tracked)
    have refused := Render.bind_of_error
      (renderOne_refuses sticks before.length (rest.flatMap Part.bytes) ⟨canvas, scene.streams⟩)
      fun _ => kind.renderFrom style area rest.length (before.length + 1)
    rw [← renderPayload_encoding] at drawn
    have ends : after = _ := Codec.render_eq (drawn.trans refused)
    rw [ends]
    exact ⟨rfl, shown_of_layered held layered⟩

end

def grey (level : UInt8) : PixelFormat.rgb888.Pixel :=
  ⟨[level, level, level, 0], show 4 = PixelFormat.rgb888.bytesPerPixel from rfl⟩

/-- A row, a pixel over its end and a place without pixels in the far corner. -/
def overlapping : List (Part .bytes .rgb888) :=
  [⟨grey 10, 0, 0, 2, 1, by decide⟩, ⟨grey 20, 1, 0, 1, 1, by decide⟩,
    ⟨grey 30, 2, 1, 0, 0, by decide⟩]

def tooWide : Part .bytes .rgb888 := ⟨grey 30, 1, 0, 2, 1, by decide⟩

/-- The parts drawn over black in a row of two pixels. -/
def inRow (parts : List (Part .bytes .rgb888)) : Except DecodeError Unit × Scene :=
  Codec.render ⟨.coRre, sent (grey 0) parts⟩ ⟨.rgb888, .black⟩ ⟨1, 1, 2, 1⟩
    ⟨Canvas.make 4 3, Streams.fresh⟩

theorem decode_paints_overlapping :
    (Canvas.make 4 3).Tracked ∧ (Canvas.make 4 3).raster.holds (Area.mk 1 1 2 1).rect = true ∧
      (overlapping ++ tooWide :: overlapping).length < 0x100000000 ∧
      (∀ part ∈ overlapping, part.FitsIn ⟨1, 1, 2, 1⟩) ∧ ¬ tooWide.FitsIn ⟨1, 1, 2, 1⟩ ∧
      ((inRow overlapping).1 = .ok () ∧
        Shown ⟨.rgb888, .black⟩ ⟨1, 1, 2, 1⟩ (grey 0) overlapping (inRow overlapping).2.canvas) ∧
      (inRow (overlapping ++ tooWide :: overlapping)).1 =
        .error ⟨[.rendering .coRre ⟨1, 1, 2, 1⟩], .outsideRect 3 ⟨1, 0, 2, 1⟩ 2 1⟩ ∧
      (inRow (overlapping ++ tooWide :: overlapping)).2.canvas.raster.pixel? 2 1 =
        some ((Style.mk .rgb888 .black).color [20, 20, 20, 0]) := by
  have tracked : (Canvas.make 4 3).Tracked :=
    (Canvas.WellFormed.make (by decide) (by decide)).tracked
  have held : (Canvas.make 4 3).raster.holds (Area.mk 1 1 2 1).rect = true := by decide +kernel
  have fit : ∀ part ∈ overlapping, part.FitsIn ⟨1, 1, 2, 1⟩ := by decide
  have sticks : ¬ tooWide.FitsIn ⟨1, 1, 2, 1⟩ := by decide
  have drawn (parts : List (Part .bytes .rgb888)) (countable : parts.length < 0x100000000) :=
    (@decode_paints .bytes ⟨.rgb888, .black⟩ ⟨1, 1, 2, 1⟩ _ ⟨Canvas.make 4 3, Streams.fresh⟩ tracked
      held (grey 0) parts countable).2
  obtain ⟨-, whole, -⟩ := drawn overlapping (by decide)
  obtain ⟨-, -, cut⟩ := drawn (overlapping ++ tooWide :: overlapping) (by decide)
  obtain ⟨refused, shown⟩ := cut overlapping tooWide overlapping rfl fit sticks
  exact ⟨tracked, held, by decide, fit, sticks, whole fit, refused, shown 2 1 (by decide +kernel)⟩

end RemoteFramebuffer.Subrects
