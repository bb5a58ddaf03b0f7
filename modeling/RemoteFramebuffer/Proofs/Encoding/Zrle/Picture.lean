/-
# `RemoteFramebuffer.Proofs.Encoding.Zrle.Picture` — a ZRLE rectangle shows what was sent

## What is proved

Of every valid format, every rectangle on the canvas and every image, whatever forms its tiles are
sent in, let the payload inflate to `inflated` (`render_exact`):

    inflated = tiles                  drawing succeeds; every pixel has its color in the image, and
                                      no pixel outside the rectangle changes
    inflated = tiles ++ extra         drawing fails with the number of bytes left over
    inflated ++ missing = tiles       drawing fails

That the payload inflates, and to what, is taken from the stream as it is: what came before on the
stream does not matter otherwise.

## How it is proved

The inflated data of a rectangle is its tiles in raster order, each in a form of its own.  If it is
these tiles and no more, drawing succeeds and every pixel of the rectangle has its color.  If it
goes on behind the last tile, drawing fails with what is left over.  If it ends before the end of
the last tile, drawing fails as well: had it succeeded it would also succeed on the whole data and
leave bytes over, and of the whole data nothing is left.
-/
import RemoteFramebuffer.Deflate.Decoder
import RemoteFramebuffer.Proofs.Encoding.CompactPixel
import RemoteFramebuffer.Proofs.Encoding.Frame
import RemoteFramebuffer.Proofs.Encoding.Zrle.Coding

namespace RemoteFramebuffer

open Render

/-! ## More tile data -/

theorem CompactPixel.extends_read (form : CompactPixel) (style : Style) :
    (form.read style).Extends := by
  have three : read.three.Extends :=
    (Payload.extends_take 3).bind fun _ => Payload.extends_guarded _
  cases form with
  | full => exact (Payload.extends_take _).map _
  | first => exact three.map _
  | last => exact three.map _

namespace Zrle

open Payload (extends_fail extends_guarded extends_u8)

theorem extends_entry (palette : Array Rgba) (index : Nat) : (entry palette index).Extends := by
  rw [entry]
  split
  · exact Payload.extends_pure _
  · exact extends_fail _

theorem extends_readPackedRow (palette : Array Rgba) (bits width : Nat) :
    (readPackedRow palette bits width).Extends := by
  refine (Payload.Extends.mapM (fun i => ?_) _).bind fun _ => Payload.extends_pure _
  refine extends_u8.bind fun byte => Payload.Extends.mapM (fun k => ?_) _
  exact (extends_guarded _).bind fun index => extends_entry palette index

theorem extends_runLengthFrom (sum : Nat) : (runLengthFrom sum).Extends := by
  intro data
  induction data generalizing sum with
  | nil => exact nofun
  | cons byte data ih =>
      intro rest more h extra
      rw [List.cons_append, runLengthFrom] at *
      split
      · rename_i goes
        rw [if_pos goes] at h
        exact ih _ _ _ h extra
      · rename_i ends
        rw [if_neg ends] at h
        cases h
        rfl

theorem extends_runsOnto {run : Payload (Rgba × Nat)} (h : run.Extends) (count : Nat)
    (seen : Array Rgba) : (runsOnto run count seen).Extends := by
  induction seen using runsOnto.induct count with
  | case1 seen less ih =>
      rw [runsOnto, if_pos less]
      exact h.bind fun out => (extends_guarded _).bind fun _ => ih out.1 out.2
  | case2 seen full =>
      rw [runsOnto, if_neg full]
      exact Payload.extends_pure _

theorem extends_readTile {pixel : Payload Rgba} (h : pixel.Extends) (tile : Rect) :
    (readTile pixel tile).Extends := by
  have palette (size : Nat) : (readPalette pixel size).Extends := (h.values size).map _
  refine extends_u8.bind fun code => ?_
  split
  · exact (h.values _).bind fun _ => Payload.extends_pure _
  split
  · exact h.bind fun _ => Payload.extends_pure _
  split
  · refine (palette _).bind fun palette => ?_
    exact ((extends_readPackedRow palette _ _).values _).bind fun _ => Payload.extends_pure _
  split
  · have run : (plainRun pixel).Extends :=
      h.bind fun _ => (extends_runLengthFrom 0).bind fun _ => Payload.extends_pure _
    exact (extends_runsOnto run _ _).bind fun _ => Payload.extends_pure _
  split
  · refine (extends_guarded _).bind fun size => (palette size).bind fun palette => ?_
    have run : (paletteRun palette).Extends := by
      refine extends_u8.bind fun byte => (extends_entry palette _).bind fun color => ?_
      split
      · exact (Payload.extends_pure _).bind fun _ => Payload.extends_pure _
      · exact (extends_runLengthFrom 0).bind fun _ => Payload.extends_pure _
    exact (extends_runsOnto run _ _).bind fun _ => Payload.extends_pure _
  · exact extends_fail _

/-! ## Drawing tiles -/

section

variable [StreamDecoder]

/-- The tiles of a rectangle from its inflated data. -/
def walk (style : Style) (area : Area) : Render Unit :=
  Render.foldTiles area.rect tileSize
    (fun _ tile => renderTile ((CompactPixel.ofFormat style.format).read style) tile) ()

theorem extends_walk (style : Style) (area : Area) : (walk style area).Extends := by
  refine Render.Extends.foldTiles (fun _ tile => ?_) _ _ _
  have read := extends_readTile (CompactPixel.extends_read (.ofFormat style.format) style) tile
  exact ((extends_read read).bind fun _ => extends_draw _).within _

variable {start : Raster} {layer : Layer}

/-- A tile shows its colors, whether it is filled with one or drawn pixel by pixel. -/
theorem paints_drawTile {tile : Rect} (held : start.holds tile = true) {shown : Tile}
    {color : Nat → Nat → Rgba} (colors : shown.colors tile.area = Raster.valuesOf tile color) :
    Paints start layer (draw (drawTile tile shown)) [] () (layer.paint tile color) := by
  cases shown with
  | solid one =>
      have same : layer.paint tile (fun _ _ => one) = layer.paint tile color := by
        refine layer.paint_congr fun x y covered => ?_
        have found := Raster.getElem?_valuesOf held color covered
        rw [← colors] at found
        exact List.eq_of_mem_replicate (List.mem_of_getElem? found) |>.symm
      rw [← same]
      exact paints_fill held one
  | pixels shown =>
      have drawn : shown = (Raster.valuesOf tile color).toArray := by
        rw [← colors]
        rfl
      rw [drawn]
      exact paints_image held color

variable {style : Style} {area : Area}

/-- The forms of the tiles of an image, in raster order. -/
def Coded {format : PixelFormat} (area : Area) (image : Nat → Nat → format.Pixel)
    (tiles : Nat → Bytes) : Prop :=
  ∀ k < area.rect.tileCount tileSize tileSize,
    Coding (fun pixel => (CompactPixel.ofFormat format).sent pixel.bytes)
      (area.rect.tileAt tileSize tileSize k).width (area.rect.tileAt tileSize tileSize k).height
      (Raster.valuesOf (area.rect.tileAt tileSize tileSize k) image) (tiles k)

/-- The data of a rectangle: its tiles one after another. -/
def joined (area : Area) (tiles : Nat → Bytes) : Bytes :=
  (List.range (area.rect.tileCount tileSize tileSize)).flatMap tiles

variable {image : Nat → Nat → style.format.Pixel} {tiles : Nat → Bytes}

theorem paints_walk (valid : style.format.validate = .ok ()) (held : start.holds area.rect = true)
    (coded : Coded area image tiles) :
    Paints start .empty (walk style area) (joined area tiles) ()
      (.tiled area.rect tileSize (fun x y => style.color (image x y).bytes)
        (area.rect.tileCount tileSize tileSize)) := by
  have small := area.extent_lt
  rw [← Layer.tiled_zero]
  refine paints_foldTiles small tileSize (fun _ => ()) fun k h => ?_
  have within := Raster.holds_tileAt held small h
  obtain ⟨shown, takes, colors⟩ := takes_readTile (CompactPixel.takes_read valid) (coded k h)
  rw [Raster.map_valuesOf] at colors
  rw [← Layer.paint_tiled _ small h]
  refine Paints.within ?_ _
  exact (paints_read takes).bind_nil (paints_drawTile within colors)

/-! ## The whole rectangle -/

theorem renderTiles_eq {data rest : Bytes} {scene after : Scene}
    (h : walk style area data scene = (.ok ((), rest), after)) :
    renderTiles style area data scene =
      if rest.isEmpty then (.ok ((), rest), after)
      else (.error (DecodeError.of (.trailing rest.length)), after) := by
  have cont : renderTiles style area data scene = (ExceptT.bindCont (fun out =>
      (if out.2.isEmpty then pure () else draw (Draw.fail (.trailing out.2.length)) : Render Unit)
        out.2) (walk style area data scene).1 : StateM Scene _) (walk style area data scene).2 := rfl
  rw [cont, h]
  cases rest <;> rfl

theorem renderTiles_error {data : Bytes} {scene : Scene} {e : DecodeError}
    (h : (walk style area data scene).1 = .error e) :
    (renderTiles style area data scene).1 = .error e := by
  have cont : renderTiles style area data scene = (ExceptT.bindCont (fun out =>
      (if out.2.isEmpty then pure () else draw (Draw.fail (.trailing out.2.length)) : Render Unit)
        out.2) (walk style area data scene).1 : StateM Scene _) (walk style area data scene).2 := rfl
  rw [cont, h]
  rfl

theorem whole_render {scene : Scene} {compressed inflated : Bytes}
    (short : compressed.length < 0x100000000)
    (inflates : (scene.streams.inflateZrle compressed).1 = .ok inflated) :
    (render style area).whole (Bytes.ofNat 4 compressed.length ++ compressed) scene =
      (renderTiles style area).whole inflated
        ⟨scene.canvas, (scene.streams.inflateZrle compressed).2⟩ := by
  have body : Zlib.body.Takes (Bytes.ofNat 4 compressed.length ++ compressed) compressed :=
    (Payload.takes_u32 short).bind (Payload.takes_take rfl)
  have drawn := read_bind_of_takes body (fun compressed => draw do
    let inflated ← Draw.inflate (·.inflateZrle compressed)
    (renderTiles style area).whole inflated) [] scene
  rw [List.append_nil] at drawn
  rw [whole_eq, render, drawn, ← whole_eq, whole_draw]
  show (ExceptT.bindCont (fun inflated => (renderTiles style area).whole inflated)
    (scene.streams.inflateZrle compressed).1 : StateM Scene _) _ = _
  rw [inflates]
  rfl

/-- Data that ends before the last tile does is refused: drawn in full, it would leave over of
the whole data what is missing. -/
theorem renderTiles_short (valid : style.format.validate = .ok ()) (scene : Scene)
    (tracked : scene.canvas.Tracked) (held : scene.canvas.picture.holds area.rect = true)
    (coded : Coded area image tiles) {data missing : Bytes} (some : missing ≠ [])
    (less : joined area tiles = data ++ missing) :
    ∃ e, (renderTiles style area data scene).1 = .error e := by
  cases walked : walk style area data scene with
  | mk result mid =>
      cases result with
      | error e => exact ⟨e, renderTiles_error (congrArg Prod.fst walked)⟩
      | ok out =>
          obtain ⟨canvas, done, -⟩ :=
            paints_walk valid held coded [] scene.canvas scene.streams (.refl tracked)
          rw [List.append_nil, less, extends_walk style area _ _ _ _ _ walked missing] at done
          have left : out.2 ++ missing = [] :=
            congrArg Prod.snd (Except.ok.inj (congrArg Prod.fst done))
          exact absurd (List.append_eq_nil_iff.mp left).2 some

end

theorem length_left : ([1, 2, 3, 0] : Bytes).length = PixelFormat.rgb888.bytesPerPixel := rfl

theorem length_right : ([4, 5, 6, 0] : Bytes).length = PixelFormat.rgb888.bytesPerPixel := rfl

/-- Two pixels of different colors, at column 1 and behind it. -/
def halves (x _ : Nat) : PixelFormat.rgb888.Pixel :=
  if x = 1 then ⟨[1, 2, 3, 0], length_left⟩ else ⟨[4, 5, 6, 0], length_right⟩

/-- A palette of two colors and a byte with the indices 0 and 1. -/
def halvesTile : Bytes := [2, 1, 2, 3, 4, 5, 6, 0x40]

def halvesStored : Bytes := [0x78, 0x01, 0x00, 8, 0, 0xF7, 0xFF] ++ halvesTile

end Zrle

end RemoteFramebuffer
