/-
# `RemoteFramebuffer.Proofs.Encoding.Hextile` — a Hextile rectangle shows what was described

## What is proved

Of every valid format, every rectangle on the canvas and every description of its tiles
(`decode_shows`):

    reading the bytes of the description     takes just these, whatever follows
    drawing them                             succeeds, and changes no pixel outside the rectangle
    a pixel of tile k                        has the color that was described for it

## How it is proved

A description says of each tile, in raster order, what it is: raw pixels, or a background with
parts painted over it, where the background and the color of plain parts may be left to an earlier
tile.  The colors in force at tile `k` are those that the tiles up to `k` stated last; raw tiles
state none, so that colors carry over them.  Before tile `k` the decoder has exactly these
colors, and the layer over the picture is that of the tiles before `k`.

## What is asked of descriptions

A description carries that it can be sent: no tile leaves a color to earlier ones that state none,
and parts lie within their tile.  What is drawn of other data is no part of this.
-/
import RemoteFramebuffer.Deflate.Decoder
import RemoteFramebuffer.Proofs.Encoding.Capture
import RemoteFramebuffer.Proofs.Encoding.Frame
import RemoteFramebuffer.Proofs.Encoding.Painting
import RemoteFramebuffer.Proofs.Pixel.Format

namespace RemoteFramebuffer.Hextile

open Payload (Takes takes_u8 takes_take takes_pure)
open Render (Paints paints_read paints_fill paints_image paints_pure)

variable {format : PixelFormat} {tile : Rect}

/-! ## Descriptions -/

structure Place (tile : Rect) where
  x : Nat
  y : Nat
  width : Nat
  height : Nat
  wide : 0 < width
  tall : 0 < height
  right : x + width ≤ tile.width
  bottom : y + height ≤ tile.height

namespace Place

variable (p : Place tile)

def rect : Rect := ⟨tile.x + p.x, tile.y + p.y, p.width, p.height⟩

def bytes : Bytes :=
  [UInt8.ofNat (p.x * 16 + p.y), UInt8.ofNat ((p.width - 1) * 16 + (p.height - 1))]

theorem covers_tile {x y : Nat} (h : p.rect.Covers x y) : tile.Covers x y := by
  have := p.right
  have := p.bottom
  exact Rect.covers_of_fits (fun outside => by omega) h

end Place

/-- The parts over the background of a tile: all in the foreground color, or each in its own. -/
inductive Parts (format : PixelFormat) (tile : Rect)
  | none
  | plain (places : List (Place tile)) (few : places.length ≤ 255)
  | colored (parts : List (format.Pixel × Place tile)) (few : parts.length ≤ 255)

namespace Parts

def counted : Parts format tile → Bool
  | none => false
  | plain _ _ | colored _ _ => true

def isColored : Parts format tile → Bool
  | none | plain _ _ => false
  | colored _ _ => true

def bytes : Parts format tile → Bytes
  | none => []
  | plain places _ => UInt8.ofNat places.length :: places.flatMap Place.bytes
  | colored parts _ =>
    UInt8.ofNat parts.length :: parts.flatMap fun part => part.1.bytes ++ part.2.bytes

/-- The parts with their colors, given the foreground. -/
def painted (foreground : Option format.Pixel) :
    Parts format tile → List (format.Pixel × Place tile)
  | none => []
  | plain places _ =>
    match foreground with
    | .some pixel => places.map fun place => (pixel, place)
    | .none => []
  | colored parts _ => parts

def Complete (foreground : Option format.Pixel) : Parts format tile → Prop
  | plain places _ => places ≠ [] → foreground.isSome
  | _ => True

end Parts

/-- What is sent of a tile: its pixels, under a byte whose lowest bit is set and whose other bits
may be any, or what it is drawn with. -/
inductive Tile (format : PixelFormat) (tile : Rect)
  | raw (flags : UInt8) (isRaw : flags.toNat.testBit 0 = true) (image : Nat → Nat → format.Pixel)
  | drawn (background foreground : Option format.Pixel) (parts : Parts format tile)

def drawnFlags (background foreground subrects colored : Bool) : UInt8 :=
  (if background then 2 else 0) + (if foreground then 4 else 0) + (if subrects then 8 else 0) +
    if colored then 16 else 0

theorem ofByte_drawnFlags (background foreground subrects colored : Bool) :
    Flags.ofByte (drawnFlags background foreground subrects colored) =
      ⟨false, background, foreground, subrects, colored⟩ := by
  rw [Flags.ofByte, Flags.mk.injEq]
  revert background foreground subrects colored
  decide

def statedBytes : Option format.Pixel → Bytes
  | some pixel => pixel.bytes
  | none => []

namespace Tile

def background : Tile format tile → Option format.Pixel
  | raw _ _ _ => none
  | drawn background _ _ => background

def foreground : Tile format tile → Option format.Pixel
  | raw _ _ _ => none
  | drawn _ foreground _ => foreground

def bytes : Tile format tile → Bytes
  | raw flags _ image => flags :: (Raster.valuesOf tile image).flatMap PixelFormat.Pixel.bytes
  | drawn background foreground parts =>
    drawnFlags background.isSome foreground.isSome parts.counted parts.isColored ::
      (statedBytes background ++ (statedBytes foreground ++ parts.bytes))

/-- What a tile needs is among the colors in force. -/
def Complete (background foreground : Option format.Pixel) : Tile format tile → Prop
  | raw _ _ _ => True
  | drawn _ _ parts => background.isSome ∧ parts.Complete foreground

/-- The pixel that a tile shows at a place of the canvas, given the colors in force: later parts
cover earlier ones and all of them the background. -/
def pixelAt (background foreground : Option format.Pixel) (x y : Nat) :
    Tile format tile → Option format.Pixel
  | raw _ _ image => some (image x y)
  | drawn _ _ parts => background.map fun under =>
    (parts.painted foreground).foldl
      (fun shown part => if part.2.rect.Covers x y then part.1 else shown) under

theorem isSome_pixelAt {t : Tile format tile} {background foreground : Option format.Pixel}
    (complete : t.Complete background foreground) (x y : Nat) :
    (t.pixelAt background foreground x y).isSome := by
  cases t with
  | raw => rfl
  | drawn => exact Option.isSome_map.trans complete.1

end Tile

def lastStated {α : Type} (stated : Nat → Option α) : (count : Nat) → Option α
  | 0 => none
  | count + 1 => (stated count).or (lastStated stated count)

theorem length_rawBytes (image : Nat → Nat → format.Pixel) :
    ((Raster.valuesOf tile image).flatMap PixelFormat.Pixel.bytes).length =
      tile.area * format.bytesPerPixel := by
  rw [PixelFormat.length_flatMap_bytes, Raster.length_valuesOf]

/-- A rectangle described tile by tile: every tile finds the colors it needs. -/
structure Description (format : PixelFormat) (area : Area) where
  tile : (k : Nat) → Tile format (area.rect.tileAt tileSize tileSize k)
  complete : ∀ k < area.rect.tileCount tileSize tileSize,
    (tile k).Complete (lastStated (fun k => (tile k).background) (k + 1))
      (lastStated (fun k => (tile k).foreground) (k + 1))

namespace Description

variable {area : Area} (d : Description format area)

def background (count : Nat) : Option format.Pixel := lastStated (fun k => (d.tile k).background) count

def foreground (count : Nat) : Option format.Pixel := lastStated (fun k => (d.tile k).foreground) count

def bytes : Bytes :=
  (List.range (area.rect.tileCount tileSize tileSize)).flatMap fun k => (d.tile k).bytes

def pixelOf (k x y : Nat) : Option format.Pixel :=
  (d.tile k).pixelAt (d.background (k + 1)) (d.foreground (k + 1)) x y

end Description

/-! ## Reading a description -/

variable {style : Style} {area : Area}

theorem takes_color (pixel : style.format.Pixel) :
    (color style).Takes pixel.bytes (style.color pixel.bytes) := (takes_take pixel.length_bytes).map _

theorem takes_statedOr (stated : Option style.format.Pixel) (carried : Option Rgba) :
    (statedOr style stated.isSome carried).Takes (statedBytes stated)
      ((stated.map fun pixel => style.color pixel.bytes).or carried) := by
  cases stated with
  | none => exact takes_pure carried
  | some pixel => exact (takes_color pixel).map some

theorem toNat_count {count : Nat} (few : count ≤ 255) : (UInt8.ofNat count).toNat = count :=
  UInt8.toNat_ofNat_of_lt' (show _ < 256 by omega)

theorem halves_of_ofNat {high low : Nat} (hh : high < 16) (hl : low < 16) :
    (UInt8.ofNat (high * 16 + low)).toNat / 16 = high ∧
      (UInt8.ofNat (high * 16 + low)).toNat % 16 = low := by
  rw [UInt8.toNat_ofNat_of_lt' (show _ < 256 by omega)]
  omega

theorem takes_place (small : tile.width ≤ 16 ∧ tile.height ≤ 16) (p : Place tile) :
    place.Takes p.bytes ⟨p.x, p.y, p.width, p.height⟩ := by
  have := p.wide
  have := p.tall
  have := p.right
  have := p.bottom
  obtain ⟨x, y⟩ := halves_of_ofNat (show p.x < 16 by omega) (show p.y < 16 by omega)
  obtain ⟨width, height⟩ :=
    halves_of_ofNat (show p.width - 1 < 16 by omega) (show p.height - 1 < 16 by omega)
  refine (takes_u8 _).bind ((takes_u8 _).bind_nil ?_)
  generalize (UInt8.ofNat (p.x * 16 + p.y)).toNat = corner at x y ⊢
  generalize (UInt8.ofNat ((p.width - 1) * 16 + (p.height - 1))).toNat = extent at width height ⊢
  have same : (⟨corner / 16, corner % 16, extent / 16 + 1, extent % 16 + 1⟩ : Rect) =
      ⟨p.x, p.y, p.width, p.height⟩ := by
    rw [Rect.mk.injEq]
    omega
  rw [same]
  exact takes_pure _

/-! ## Drawing a tile -/

section

variable [StreamDecoder] {start : Raster} {layer : Layer}

theorem paints_renderSubrect (held : start.holds tile = true)
    (small : tile.width ≤ 16 ∧ tile.height ≤ 16) {colored : Bool} {foreground : Option Rgba}
    {used : Bytes} {shown : Rgba}
    (color : (subrectColor style tile colored foreground).Takes used shown)
    (p : Place tile) (index : Nat) :
    Paints start layer (renderSubrect style tile colored foreground index) (used ++ p.bytes) ()
      (layer.paint p.rect fun _ _ => shown) := by
  have := p.right
  have := p.bottom
  have inside : ¬ ((tile.width : Int) < p.x + p.width ∨ (tile.height : Int) < p.y + p.height) := by
    omega
  have within : start.holds p.rect = true := by
    have held := Raster.holds_iff.mp held
    rw [Raster.holds_iff, Place.rect]
    dsimp only
    omega
  refine (paints_read color).bind ((paints_read (takes_place small p)).bind_nil ?_)
  rw [if_neg inside, Render.draw_within]
  exact (paints_fill within shown).within _

theorem paints_renderSubrects {ι : Type} {colored : Bool} {foreground : Option Rgba}
    {parts : List ι} {bytes : ι → Bytes} {rect : ι → Rect} {shown : ι → Rgba}
    (h : ∀ i ∈ parts, ∀ layer index, Paints start layer
      (renderSubrect style tile colored foreground index) (bytes i) ()
      (layer.paint (rect i) fun _ _ => shown i)) (index : Nat) :
    Paints start layer (renderSubrects style tile colored foreground parts.length index)
      (parts.flatMap bytes) ()
      (parts.foldl (fun layer i => layer.paint (rect i) fun _ _ => shown i) layer) := by
  induction parts generalizing layer index with
  | nil => exact paints_pure ()
  | cons i parts ih =>
      refine (h i List.mem_cons_self layer index).bind ?_
      exact ih (fun i mem => h i (List.mem_cons_of_mem _ mem)) (index + 1)

theorem paints_counted {ι α : Type} (a : α) {colored : Bool} {foreground : Option Rgba}
    {parts : List ι} (few : parts.length ≤ 255) {bytes : ι → Bytes} {rect : ι → Rect} {shown : ι → Rgba}
    (h : ∀ i ∈ parts, ∀ layer index, Paints start layer
      (renderSubrect style tile colored foreground index) (bytes i) ()
      (layer.paint (rect i) fun _ _ => shown i)) :
    Paints start layer
      (Render.read Payload.u8 >>= fun count =>
        renderSubrects style tile colored foreground count.toNat 0 >>= fun _ => pure a)
      (UInt8.ofNat parts.length :: parts.flatMap bytes) a
      (parts.foldl (fun layer i => layer.paint (rect i) fun _ _ => shown i) layer) := by
  refine (paints_read (takes_u8 _)).bind ?_
  rw [toNat_count few]
  exact (paints_renderSubrects h 0).bind_nil (paints_pure a)

omit [StreamDecoder] in
/-- What is painted within a block that was painted already changes the colors of that block. -/
theorem foldl_paint {ι : Type} {parts : List ι} {rect : ι → Rect} {shown : ι → Rgba}
    (within : ∀ i ∈ parts, ∀ x y : Nat, (rect i).Covers x y → tile.Covers x y)
    (under : Nat → Nat → Rgba) :
    parts.foldl (fun layer i => layer.paint (rect i) fun _ _ => shown i) (layer.paint tile under) =
      layer.paint tile fun x y =>
        parts.foldl (fun color i => if (rect i).Covers x y then shown i else color) (under x y) := by
  induction parts generalizing under with
  | nil => rfl
  | cons i parts ih =>
      rw [List.foldl_cons, layer.paint_paint (within i List.mem_cons_self),
        ih fun i mem => within i (List.mem_cons_of_mem _ mem)]
      rfl

/-- The color of a pixel that may be missing; black stands for none. -/
def colorOr (style : Style) (pixel : Option style.format.Pixel) : Rgba :=
  (pixel.map fun pixel => style.color pixel.bytes).getD .black

omit [StreamDecoder] in
theorem some_colorOr {pixel : Option style.format.Pixel} (h : pixel.isSome) :
    some (colorOr style pixel) = pixel.map fun pixel => style.color pixel.bytes := by
  obtain ⟨pixel, rfl⟩ := Option.isSome_iff_exists.mp h
  rfl

omit [StreamDecoder] in
/-- The parts of a tile painted over its background: later parts cover earlier ones. -/
theorem foldl_paint_color (parts : List (style.format.Pixel × Place tile))
    (under : style.format.Pixel) :
    parts.foldl (fun layer part => layer.paint part.2.rect fun _ _ => style.color part.1.bytes)
        (layer.paint tile fun _ _ => style.color under.bytes) =
      layer.paint tile fun x y => style.color (parts.foldl
        (fun shown part => if part.2.rect.Covers x y then part.1 else shown) under).bytes := by
  rw [foldl_paint fun part _ x y => part.2.covers_tile]
  refine layer.paint_congr fun x y _ => ?_
  refine List.foldl_hom (fun pixel : style.format.Pixel => style.color pixel.bytes)
    fun shown part => ?_
  by_cases covers : part.2.rect.Covers x y
  · rw [if_pos covers, if_pos covers]
  · rw [if_neg covers, if_neg covers]

/-- The parts of a tile, painted over its background; `a` is given in the end. -/
theorem paints_parts {α : Type} (a : α) (held : start.holds tile = true)
    (small : tile.width ≤ 16 ∧ tile.height ≤ 16)
    {foreground : Option style.format.Pixel} {parts : Parts style.format tile}
    (complete : parts.Complete foreground) (under : style.format.Pixel) :
    Paints start (layer.paint tile fun _ _ => style.color under.bytes)
      (if parts.counted then Render.read Payload.u8 >>= fun count =>
          renderSubrects style tile parts.isColored
            (foreground.map fun pixel => style.color pixel.bytes) count.toNat 0 >>= fun _ => pure a
        else pure a)
      parts.bytes a
      (layer.paint tile fun x y => style.color ((parts.painted foreground).foldl
        (fun shown part => if part.2.rect.Covers x y then part.1 else shown) under).bytes) := by
  rw [← foldl_paint_color]
  cases parts with
  | none => exact paints_pure a
  | plain places few =>
      rw [if_pos (show (Parts.plain places few).counted = true from rfl), Parts.isColored,
        Parts.bytes]
      cases foreground with
      | none =>
          have nothing : places = [] := Decidable.not_not.mp fun some => nomatch complete some
          subst nothing
          exact (paints_read (takes_u8 0)).bind (paints_pure a)
      | some pixel =>
          have color : (subrectColor style tile false (some (style.color pixel.bytes))).Takes []
              (style.color pixel.bytes) := takes_pure _
          rw [Parts.painted, List.foldl_map]
          exact paints_counted a few fun place _ layer index =>
            paints_renderSubrect held small color place index
  | colored parts few =>
      rw [if_pos (show (Parts.colored parts few).counted = true from rfl), Parts.isColored,
        Parts.bytes, Parts.painted]
      have color (part : style.format.Pixel × Place tile) (foreground : Option Rgba) :
          (subrectColor style tile true foreground).Takes part.1.bytes
            (style.color part.1.bytes) := takes_color part.1
      exact paints_counted a few fun part _ layer index =>
        paints_renderSubrect held small (color part _) part.2 index

theorem paints_renderTile (valid : style.format.validate = .ok ()) (held : start.holds tile = true)
    (small : tile.width ≤ 16 ∧ tile.height ≤ 16) (t : Tile style.format tile)
    {background foreground : Option style.format.Pixel}
    (complete : t.Complete (t.background.or background) (t.foreground.or foreground)) :
    Paints start layer
      (renderTile style ⟨background.map fun pixel => style.color pixel.bytes,
        foreground.map fun pixel => style.color pixel.bytes⟩ tile)
      t.bytes
      ⟨(t.background.or background).map fun pixel => style.color pixel.bytes,
        (t.foreground.or foreground).map fun pixel => style.color pixel.bytes⟩
      (layer.paint tile fun x y =>
        colorOr style (t.pixelAt (t.background.or background) (t.foreground.or foreground) x y)) := by
  cases t with
  | raw flags isRaw image =>
      have raw : (Flags.ofByte flags).raw = true := isRaw
      have pixels := Style.unpack_flatMap valid (Raster.valuesOf tile image)
      rw [Raster.map_valuesOf] at pixels
      refine (paints_read (takes_u8 flags)).bind ?_
      rw [if_pos raw]
      refine (paints_read (takes_take (length_rawBytes image))).bind_nil ?_
      rw [pixels]
      exact (paints_image held _).nil_bind (paints_pure _)
  | drawn stated stated' parts =>
      obtain ⟨some_background, complete⟩ := complete
      obtain ⟨under, eq⟩ := Option.isSome_iff_exists.mp some_background
      have takes := takes_statedOr stated (background.map fun pixel => style.color pixel.bytes)
      have takes' := takes_statedOr stated' (foreground.map fun pixel => style.color pixel.bytes)
      rw [← Option.map_or] at takes takes'
      dsimp only [Tile.background, Tile.foreground] at eq complete ⊢
      rw [eq] at takes ⊢
      refine (paints_read (takes_u8 _)).bind ?_
      rw [ofByte_drawnFlags, if_neg Bool.false_ne_true]
      refine (paints_read takes).bind ?_
      refine (paints_fill held (style.color under.bytes)).nil_bind ?_
      refine (paints_read takes').bind ?_
      exact paints_parts _ held small complete under

/-! ## The whole rectangle -/

/-- The colors that the decoder has after some tiles. -/
def Description.carried (d : Description style.format area) (count : Nat) : Carried :=
  ⟨(d.background count).map fun pixel => style.color pixel.bytes,
    (d.foreground count).map fun pixel => style.color pixel.bytes⟩

/-- The color of a pixel as the tile it lies in shows it. -/
def Description.colorAt (d : Description style.format area) (x y : Nat) : Rgba :=
  colorOr style (d.pixelOf (area.rect.tileIndex tileSize tileSize x y) x y)

/-- Before tile `k` the decoder has the colors that the tiles before it stated last, and these
tiles are drawn. -/
theorem paints_render (valid : style.format.validate = .ok ())
    (held : start.holds area.rect = true) (d : Description style.format area) :
    Paints start .empty (render style area) d.bytes ()
      (.tiled area.rect tileSize d.colorAt (area.rect.tileCount tileSize tileSize)) := by
  have small := area.extent_lt
  have tile : ∀ k < area.rect.tileCount tileSize tileSize,
      Paints start (.tiled area.rect tileSize d.colorAt k)
        (renderTile style (d.carried k) (area.rect.tileAt tileSize tileSize k)) (d.tile k).bytes
        (d.carried (k + 1)) (.tiled area.rect tileSize d.colorAt (k + 1)) := by
    intro k h
    have here : ∀ x y : Nat, (area.rect.tileAt tileSize tileSize k).Covers x y →
        colorOr style (d.pixelOf k x y) = d.colorAt x y := by
      intro x y covered
      rw [Description.colorAt, ((Rect.covers_tileAt small h x y).mp covered).2]
    rw [← Layer.paint_tiled _ small h, ← Layer.paint_congr _ here]
    exact paints_renderTile valid (Raster.holds_tileAt held small h)
      ⟨Nat.min_le_left _ _, Nat.min_le_left _ _⟩ (d.tile k) (d.complete k h)
  rw [← Layer.tiled_zero]
  exact (Render.paints_foldTiles small tileSize d.carried tile).bind_nil (paints_pure ())

end

/-! ## Taking a description from a stream -/

theorem takes_captureStated (stated : Option format.Pixel) :
    (captureStated format stated.isSome).Takes (statedBytes stated) () := by
  cases stated with
  | none => exact Reader.takes_pure ()
  | some pixel => exact Capture.takes_skip pixel.length_bytes

theorem takes_captureSubrects (parts : Parts format tile) (raw background foreground : Bool) :
    (captureSubrects format ⟨raw, background, foreground, parts.counted, parts.isColored⟩).Takes
      parts.bytes () := by
  rw [captureSubrects]
  cases parts with
  | none => exact Reader.takes_pure ()
  | plain places few =>
      refine (Capture.takes_u8 _).bind (Capture.takes_skip ?_)
      rw [toNat_count few]
      exact Bytes.length_flatMap_of_forall fun place _ => rfl
  | colored parts few =>
      refine (Capture.takes_u8 _).bind (Capture.takes_skip ?_)
      rw [toNat_count few]
      refine Bytes.length_flatMap_of_forall fun part _ => ?_
      rw [List.length_append, part.1.length_bytes]
      rfl

theorem takes_captureTile (t : Tile format tile) : (captureTile format tile).Takes t.bytes () := by
  cases t with
  | raw flags isRaw image =>
      have raw : (Flags.ofByte flags).raw = true := isRaw
      refine (Capture.takes_u8 flags).bind ?_
      rw [if_pos raw]
      exact Capture.takes_skip (length_rawBytes image)
  | drawn background foreground parts =>
      refine (Capture.takes_u8 _).bind ?_
      rw [ofByte_drawnFlags, if_neg Bool.false_ne_true]
      refine (takes_captureStated background).bind ?_
      exact (takes_captureStated foreground).bind (takes_captureSubrects parts _ _ _)

theorem takes_capture (d : Description format area) : (capture area format).Takes d.bytes () := by
  have go (count index : Nat) : Reader.Takes
      (area.rect.foldTilesFrom tileSize tileSize (fun _ tile => captureTile format tile) count index ())
      ((List.range' index count).flatMap fun k => (d.tile k).bytes) () := by
    induction count generalizing index with
    | zero => exact Reader.takes_pure ()
    | succ count ih =>
        rw [List.range'_succ, List.flatMap_cons]
        exact (takes_captureTile (d.tile index)).bind (ih (index + 1))
  have whole := go (area.rect.tileCount tileSize tileSize) 0
  rwa [← List.range_eq_range'] at whole

/-! ## Reading and drawing -/

/-- **A Hextile rectangle shows what was described.**  Let the rectangle lie on the canvas.  The
bytes of a description are read as a payload, whatever follows them, and drawing it succeeds.
Every tile shows what it was described to show in the colors last stated, and no pixel outside the
rectangle changes. -/
theorem decode_shows [StreamDecoder] (valid : style.format.validate = .ok ()) {scene : Scene}
    (tracked : scene.canvas.Tracked) (held : scene.canvas.raster.holds area.rect = true)
    (d : Description style.format area) :
    (∀ rest, (Codec.read .hextile area style.format).run (d.bytes ++ rest) =
      (.ok ⟨.hextile, d.bytes⟩, rest)) ∧
    let after := Codec.render ⟨.hextile, d.bytes⟩ style area scene
    after.1 = .ok () ∧ scene.canvas.ChangesOnly area.rect after.2.canvas ∧
      ∀ k < area.rect.tileCount tileSize tileSize, ∀ x y : Nat,
        (area.rect.tileAt tileSize tileSize k).Covers x y →
          after.2.canvas.raster.pixel? x y =
            (d.pixelOf k x y).map fun pixel => style.color pixel.bytes := by
  refine ⟨fun rest => Codec.run_read_ok.mpr ⟨rfl, rfl, takes_capture d rest⟩, ?_⟩
  intro after
  rw [← Canvas.holds_picture] at held
  obtain ⟨canvas, done, layered⟩ :=
    paints_render valid held d [] scene.canvas scene.streams (.refl tracked)
  rw [List.append_nil] at done
  have ends : after = (.ok (), ⟨canvas, scene.streams⟩) := by
    show Draw.within _ ((render style area).whole _) scene = _
    rw [Draw.within, Render.whole_eq, done]
    rfl
  refine ⟨by rw [ends], ?_, fun k h x y covered => ?_⟩
  · exact (Render.staysIn_whole (staysIn_render style area) _).within _ scene
  · obtain ⟨inside, index⟩ := (Rect.covers_tileAt area.extent_lt h x y).mp covered
    rw [ends, layered.pixel?_of_some (Raster.lt_of_covers held inside)
      (Layer.tiled_tileCount _ _ _ inside), Description.colorAt, index]
    exact some_colorOr (Tile.isSome_pixelAt (d.complete k h) x y)

/-- A pixel in the first corner of two tiles; the second tile states no color. -/
def corners : Description .rgb888 ⟨1, 1, 18, 2⟩ where
  tile
    | 0 => .drawn (some ⟨[1, 2, 3, 0], rfl⟩) (some ⟨[4, 5, 6, 0], rfl⟩)
        (.plain [⟨0, 0, 1, 1, by decide, by decide, by decide +kernel, by decide +kernel⟩] (by decide))
    | 1 => .drawn none none
        (.plain [⟨0, 0, 1, 1, by decide, by decide, by decide +kernel, by decide +kernel⟩] (by decide))
    | _ + 2 => .drawn none none .none
  complete := fun
    | 0, _ | 1, _ => ⟨rfl, fun _ => rfl⟩

theorem decode_shows_corners :
    (Style.mk .rgb888 .black).format.validate = .ok () ∧ (Canvas.make 20 3).Tracked ∧
      (Canvas.make 20 3).raster.holds (Area.mk 1 1 18 2).rect = true ∧
      ∃ after, Codec.render ⟨.hextile, corners.bytes⟩ ⟨.rgb888, .black⟩ ⟨1, 1, 18, 2⟩
          ⟨Canvas.make 20 3, Streams.fresh⟩ = (.ok (), after) ∧
        after.canvas.raster.pixel? 17 1 = some ((Style.mk .rgb888 .black).color [4, 5, 6, 0]) ∧
        after.canvas.raster.pixel? 18 1 = some ((Style.mk .rgb888 .black).color [1, 2, 3, 0]) := by
  have valid : (Style.mk .rgb888 .black).format.validate = .ok () := rfl
  have tracked : (Canvas.make 20 3).Tracked :=
    (Canvas.WellFormed.make (by decide) (by decide)).tracked
  have held : (Canvas.make 20 3).raster.holds (Area.mk 1 1 18 2).rect = true := by decide +kernel
  obtain ⟨-, drawn⟩ := @decode_shows ⟨.rgb888, .black⟩ ⟨1, 1, 18, 2⟩ _ valid
    ⟨Canvas.make 20 3, Streams.fresh⟩ tracked held corners
  obtain ⟨done, -, shown⟩ := drawn
  have corner := shown 1 (by decide +kernel) 17 1 (by decide +kernel)
  have beside := shown 1 (by decide +kernel) 18 1 (by decide +kernel)
  refine ⟨valid, tracked, held, ?_⟩
  generalize Codec.render _ _ _ _ = result at done corner beside ⊢
  obtain ⟨ended, after⟩ := result
  subst done
  exact ⟨after, rfl, corner, beside⟩

end RemoteFramebuffer.Hextile
