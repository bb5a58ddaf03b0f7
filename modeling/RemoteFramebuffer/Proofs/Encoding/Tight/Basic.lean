/-
# `RemoteFramebuffer.Proofs.Encoding.Tight.Basic` — filtered data is read as it was sent

A rectangle of filtered data is

    control     one byte: the streams that start afresh, the kind, the stream of the data
    filter      one byte, if the filter is named; none stands for copying
    palette     its size less one and its pixels, if the filter has one
    data        as it stands if it is short, else compressed behind its length

`Head` says what stands in front of the data and `Sent` in which forms the data may stand on a
stream.  Capturing takes exactly these bytes (`takes_capture`).  Drawing comes to the data again,
whatever it stands for (`render_eq`); what it then shows depends on the colors that the filter
makes of the data (`shows`, `refuses`).
-/
import RemoteFramebuffer.Proofs.Encoding.Capture
import RemoteFramebuffer.Proofs.Encoding.Frame
import RemoteFramebuffer.Proofs.Encoding.Painting
import RemoteFramebuffer.Proofs.Encoding.Tight.Length
import RemoteFramebuffer.Proofs.Pixel.Format

namespace RemoteFramebuffer

open Payload (takes_pure takes_take takes_u8)

theorem Area.pixels_ne_zero {area : Area} {x y : Nat} (covered : area.rect.Covers x y) :
    area.pixels ≠ 0 := by
  unfold Rect.Covers rect at covered
  dsimp only at covered
  exact Nat.mul_ne_zero (by omega) (by omega)

namespace Tight

/-! ## What stands in front of the data -/

structure Pixel (format : PixelFormat) where
  bytes : Bytes
  length_bytes : bytes.length = pixelSize format

/-- The filter and what it is told; copying need not be named. -/
inductive Lead (format : PixelFormat)
  | implied
  | copy
  | palette (entries : List (Pixel format)) (filled : entries ≠ []) (few : entries.length ≤ 256)
  | gradient

namespace Lead

variable {format : PixelFormat}

def isNamed : Lead format → Bool
  | implied => false
  | _ => true

def filter : Lead format → Filter
  | implied | copy => .copy
  | palette .. => .palette
  | gradient => .gradient

theorem filter_ne_unknown (lead : Lead format) (code : UInt8) : lead.filter ≠ .unknown code := by
  cases lead <;> nofun

/-- The entries of the palette; other filters have none. -/
def entries : Lead format → List (Pixel format)
  | palette entries .. => entries
  | _ => []

def filterBytes : Lead format → Bytes
  | implied => []
  | copy => [0]
  | palette .. => [1]
  | gradient => [2]

def paletteBytes : Lead format → Bytes
  | palette entries .. => UInt8.ofNat (entries.length - 1) :: entries.flatMap Pixel.bytes
  | _ => []

def bytes (lead : Lead format) : Bytes := lead.filterBytes ++ lead.paletteBytes

end Lead

/-- Which streams start afresh, a bit for each, the stream of the data and its filter. -/
structure Head (format : PixelFormat) where
  resets : Fin 16
  stream : Fin 4
  lead : Lead format

namespace Head

variable {format : PixelFormat} (head : Head format)

def control : UInt8 :=
  UInt8.ofNat (head.resets + 16 * (head.stream + if head.lead.isNamed then 4 else 0))

/-- A rectangle with its data in the form `body`. -/
def bytes (body : Bytes) : Bytes := head.control :: (head.lead.bytes ++ body)

def dataSize (area : Area) : Nat :=
  Tight.dataSize area head.lead.filter head.lead.entries.length (pixelSize format)

/-- The stream that the data is on, once those that start afresh have done so. -/
def inflater [StreamDecoder] (streams : Streams) : StreamDecoder.State :=
  (streams.resetTight head.resets).tight.get head.stream

end Head

/-- The forms of some data on a stream. -/
inductive Sent [StreamDecoder] (stream : StreamDecoder.State) (data : Bytes) : Bytes → Prop
  | plain : data.length < minToCompress → Sent stream data data
  | compressed {payload : Bytes} : minToCompress ≤ data.length →
      payload.length ≤ CompactLength.max → (StreamDecoder.inflate stream payload).1 = .ok data →
      Sent stream data (CompactLength.encode payload.length ++ payload)

/-! ## Capturing -/

section

variable {format : PixelFormat} {head : Head format}

theorem toNat_control (head : Head format) :
    head.control.toNat = head.resets + 16 * (head.stream + if head.lead.isNamed then 4 else 0) := by
  have resets := head.resets.isLt
  have stream := head.stream.isLt
  refine UInt8.toNat_ofNat_of_lt' (show _ < 256 from ?_)
  split <;> omega

theorem control_mod (head : Head format) : head.control.toNat % 16 = head.resets := by
  have resets := head.resets.isLt
  rw [toNat_control]
  omega

theorem ofByte_control (head : Head format) :
    Control.ofByte head.control = .basic head.stream head.lead.isNamed := by
  have code : head.control.toNat / 16 = head.stream + if head.lead.isNamed then 4 else 0 := by
    have resets := head.resets.isLt
    rw [toNat_control]
    omega
  rw [Control.ofByte, code]
  generalize head.stream = stream
  generalize head.lead.isNamed = isNamed
  match stream, isNamed with
  | 0, false | 0, true | 1, false | 1, true | 2, false | 2, true | 3, false | 3, true => rfl

theorem takes_captureFilter (lead : Lead format) :
    (captureFilter lead.isNamed).Takes lead.filterBytes lead.filter := by
  cases lead with
  | implied => exact Reader.takes_pure _
  | _ => exact (Capture.takes_u8 _).bind_nil (Reader.takes_pure _)

theorem toNat_size {entries : List (Pixel format)} (filled : entries ≠ [])
    (few : entries.length ≤ 256) :
    (UInt8.ofNat (entries.length - 1)).toNat + 1 = entries.length := by
  have pos := List.length_pos_iff.mpr filled
  rw [UInt8.toNat_ofNat_of_lt' (show _ < 256 by omega)]
  omega

theorem length_entries (entries : List (Pixel format)) :
    (entries.flatMap Pixel.bytes).length = entries.length * pixelSize format :=
  Bytes.length_flatMap_of_forall fun entry _ => entry.length_bytes

theorem takes_capturePalette (lead : Lead format) :
    (capturePalette (pixelSize format) lead.filter).Takes lead.paletteBytes lead.entries.length := by
  cases lead with
  | palette entries filled few =>
      refine (Capture.takes_u8 _).bind ?_
      rw [toNat_size filled few]
      exact (Capture.takes_skip (length_entries entries)).bind_nil (Reader.takes_pure _)
  | _ => exact Reader.takes_pure _

theorem takes_captureData [StreamDecoder] {stream : StreamDecoder.State} {data body : Bytes} (sent : Sent stream data body)
    {size : Nat} (length : data.length = size) : (captureData size).Takes body () := by
  subst length
  rw [captureData]
  cases sent with
  | plain short =>
      rw [if_pos short]
      exact Capture.takes_skip rfl
  | compressed long le _ =>
      rw [if_neg (Nat.not_lt.mpr long)]
      exact (CompactLength.takes_capture le).bind (Capture.takes_skip rfl)

theorem takes_capture [StreamDecoder] {stream : StreamDecoder.State} {data body : Bytes} (sent : Sent stream data body)
    {area : Area} (length : data.length = head.dataSize area)
    (narrow : area.width.toNat ≤ maxWidth) :
    (capture area format false).Takes (head.bytes body) () := by
  have basic : (captureBasic area (pixelSize format) head.lead.isNamed).Takes
      (head.lead.bytes ++ body) () := by
    rw [captureBasic, if_neg (Nat.not_lt.mpr narrow), Lead.bytes, List.append_assoc]
    refine (takes_captureFilter head.lead).bind ?_
    have filtered : (captureFiltered area (pixelSize format) head.lead.filter).Takes
        (head.lead.paletteBytes ++ body) () :=
      (takes_capturePalette head.lead).bind (takes_captureData sent length)
    cases filter : head.lead.filter with
    | unknown code => exact absurd filter (head.lead.filter_ne_unknown code)
    | _ =>
      rw [filter] at filtered
      exact filtered
  refine (Capture.takes_u8 head.control).bind ?_
  unfold captureKind
  rw [ofByte_control]
  exact basic

end

/-! ## Drawing -/

section

variable {style : Style} {head : Head style.format}

def shades (style : Style) (entries : List (Pixel style.format)) : Array Rgba :=
  (entries.map fun entry => color style entry.bytes).toArray

theorem size_shades (style : Style) (entries : List (Pixel style.format)) :
    (shades style entries).size = entries.length := by
  rw [shades, List.size_toArray, List.length_map]

theorem takes_readFilter (lead : Lead style.format) :
    (readFilter lead.isNamed).Takes lead.filterBytes lead.filter := by
  cases lead with
  | implied => exact takes_pure _
  | _ => exact (takes_u8 _).bind_nil (takes_pure _)

theorem takes_readPalette (lead : Lead style.format) :
    (readPalette style (pixelSize style.format) lead.filter).Takes lead.paletteBytes
      (shades style lead.entries) := by
  cases lead with
  | palette entries filled few =>
      have pixels : (Payload.values (color style <$> Payload.take (pixelSize style.format))
          entries.length).Takes (entries.flatMap Pixel.bytes)
          (entries.map fun entry => color style entry.bytes) :=
        Payload.Takes.values fun entry _ => (takes_take entry.length_bytes).map _
      refine (takes_u8 _).bind ?_
      rw [toNat_size filled few]
      exact pixels.bind_nil (takes_pure _)
  | _ => exact takes_pure _

variable [StreamDecoder]

theorem inflateTight_eq_ok {streams : Streams} {stream : Fin 4} {payload data : Bytes}
    (inflates : (StreamDecoder.inflate (streams.tight.get stream) payload).1 = .ok data) :
    (streams.inflateTight stream payload data.length).1 = .ok data := by
  have marked (name : String) :
      (Streams.inflate name (streams.tight.get stream) payload).1 = .ok data := by
    unfold Streams.inflate
    generalize StreamDecoder.inflate (streams.tight.get stream) payload = out at inflates
    obtain ⟨result, after⟩ := out
    subst inflates
    rfl
  show Streams.atLeast _ (Streams.inflate _ (streams.tight.get stream) payload).1 = _
  rw [marked]
  exact if_neg (Nat.lt_irrefl data.length)

theorem readData_eq {streams : Streams} {stream : Fin 4} {data body : Bytes}
    (sent : Sent (streams.tight.get stream) data body) {size : Nat} (length : data.length = size)
    (canvas : Canvas) : ∃ streams', ∀ rest,
      readData stream size (body ++ rest) ⟨canvas, streams⟩ =
        (.ok (data, rest), ⟨canvas, streams'⟩) := by
  subst length
  cases sent with
  | plain short =>
      refine ⟨streams, fun rest => ?_⟩
      rw [readData, if_pos short]
      exact congrArg (·, Scene.mk canvas streams) (takes_take rfl rest)
  | @compressed payload long le inflates =>
      refine ⟨(streams.inflateTight stream payload data.length).2, fun rest => ?_⟩
      have inflated : Draw.inflate (·.inflateTight stream payload data.length) ⟨canvas, streams⟩ =
          (.ok data, ⟨canvas, (streams.inflateTight stream payload data.length).2⟩) := by
        rw [Draw.inflate, ← inflateTight_eq_ok inflates]
      obtain ⟨⟨⟩, slice, -⟩ :=
        (Guarded.safe_slice (Nat.zero_le data.length) (Nat.le_refl data.length)).eq_ok
      rw [readData, if_neg (Nat.not_lt.mpr long), List.append_assoc,
        Render.read_bind_of_takes (CompactLength.takes_parse le),
        Render.read_bind_of_takes (takes_take rfl),
        Render.bind_of_ok (Render.draw_of_ok inflated rest), slice, List.take_length]
      rfl

/-- Draws the colors that the filter makes of data, if there are pixels. -/
def drawData (head : Head style.format) (area : Area) (data : Bytes) : Render Unit :=
  if area.pixels = 0 then return ()
  else Render.draw do
    let colors ← Draw.ofExcept (colors style area (pixelSize style.format)
      (shades style head.lead.entries) data head.lead.filter)
    Draw.image area.rect colors

variable {area : Area} {data body : Bytes}

/-- Drawing a rectangle reads what stands in front and draws the data, which may have moved its
stream on. -/
theorem render_eq {scene : Scene} (sent : Sent (head.inflater scene.streams) data body)
    (length : data.length = head.dataSize area) : ∃ streams,
      render style area (head.bytes body) scene =
        drawData head area data [] ⟨scene.canvas, streams⟩ := by
  have restarted : Draw.changeStreams (·.resetTight (head.control.toNat % 16)) scene =
      (.ok (), ⟨scene.canvas, scene.streams.resetTight head.resets⟩) := by
    rw [control_mod]
    rfl
  obtain ⟨streams, read⟩ := readData_eq sent length scene.canvas
  have read := read []
  rw [List.append_nil] at read
  refine ⟨streams, ?_⟩
  rw [render, Head.bytes, ← List.singleton_append, Render.read_bind_of_takes (takes_u8 head.control),
    Render.bind_of_ok (Render.draw_of_ok restarted _), ofByte_control]
  show renderBasic _ _ _ _ _ _ = _
  rw [renderBasic, Lead.bytes, List.append_assoc,
    Render.read_bind_of_takes (takes_readFilter head.lead), renderFiltered,
    Render.read_bind_of_takes (takes_readPalette head.lead), size_shades]
  exact Render.bind_of_ok read _

/-- A rectangle shows the colors that its filter makes of the data, and nothing else changes. -/
theorem shows {scene : Scene} (tracked : scene.canvas.Tracked)
    (held : scene.canvas.raster.holds area.rect = true)
    (sent : Sent (head.inflater scene.streams) data body)
    (length : data.length = head.dataSize area) {image : Nat → Nat → Rgba}
    (shown : area.pixels ≠ 0 →
      colors style area (pixelSize style.format) (shades style head.lead.entries) data
        head.lead.filter = .ok (Raster.valuesOf area.rect image).toArray) :
    let after := Codec.render ⟨.tight, head.bytes body⟩ style area scene
    after.1 = .ok () ∧ scene.canvas.ChangesOnly area.rect after.2.canvas ∧
      ∀ x y : Nat, area.rect.Covers x y →
        after.2.canvas.raster.pixel? x y = some (image x y) := by
  intro after
  have picture : Encoding.tight ∈ Codec.pictures := by decide
  have stays : scene.canvas.ChangesOnly area.rect after.2.canvas :=
    (Render.staysIn_whole (Codec.staysIn_renderPayload picture style area) _).within _ scene
  obtain ⟨streams, rendered⟩ := render_eq sent length
  by_cases none : area.pixels = 0
  · rw [drawData, if_pos none] at rendered
    have ends : after = _ := Codec.render_eq rendered
    exact ⟨by rw [ends]; rfl, stays, fun x y covered => absurd none (Area.pixels_ne_zero covered)⟩
  · rw [← Canvas.holds_picture] at held
    have paints : Render.Paints _ .empty _ [] () _ := Render.paints_image held image
    obtain ⟨canvas, drawn, layered⟩ := paints [] scene.canvas streams (.refl tracked)
    have made : drawData head area data [] ⟨scene.canvas, streams⟩ =
        Render.draw (Draw.image area.rect (Raster.valuesOf area.rect image).toArray) []
          ⟨scene.canvas, streams⟩ := by
      rw [drawData, if_neg none, shown none]
      rfl
    rw [List.append_nil] at drawn
    rw [made, drawn] at rendered
    have ends : after = _ := Codec.render_eq rendered
    refine ⟨by rw [ends]; rfl, stays, fun x y covered => ?_⟩
    rw [ends]
    exact layered.pixel?_of_some (Raster.lt_of_covers held covered) (if_pos covered)

theorem refuses {scene : Scene} (sent : Sent (head.inflater scene.streams) data body)
    (length : data.length = head.dataSize area) (present : area.pixels ≠ 0) {e : DecodeError}
    (refused : colors style area (pixelSize style.format) (shades style head.lead.entries) data
      head.lead.filter = .error e) :
    let after := Codec.render ⟨.tight, head.bytes body⟩ style area scene
    after.1 = .error (e.within (.rendering .tight area)) ∧ after.2.canvas = scene.canvas := by
  intro after
  obtain ⟨streams, rendered⟩ := render_eq sent length
  have made : drawData head area data [] ⟨scene.canvas, streams⟩ =
      (.error e, ⟨scene.canvas, streams⟩) := by
    rw [drawData, if_neg present, refused]
    rfl
  rw [made] at rendered
  have ends : after = _ := Codec.render_eq rendered
  rw [ends]
  exact ⟨rfl, rfl⟩

end

end Tight

end RemoteFramebuffer
