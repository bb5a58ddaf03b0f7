/-
# `RemoteFramebuffer.Proofs.Encoding.Capture` — capturing takes a rectangle's data and no more

## What is proved

Of every codec, whatever it held, every rectangle, format and stream (`refill_takes_data`):

    data of the codec afterwards ++ what is left of the stream   =   the stream

however the capture ends.  If it succeeds, it does so and takes the same data whatever follows it and
whatever the codec held, and on every proper prefix of the data it fails with the error of a stream
that ended.

## How it is proved

Nothing is lost and nothing is taken twice, for that is so of any recorded reader.  A successful
capture depends on nothing behind the data it took, and no shorter stream is enough for it.  What has
to be seen to for each encoding is only that its reader gives up on a short stream with the error of
a short stream (`Shorts`), also where it reads tile after tile.
-/
import RemoteFramebuffer.Encoding.Codec
import RemoteFramebuffer.Proofs.Geometry
import RemoteFramebuffer.Proofs.Wire.Reader

namespace RemoteFramebuffer

open Reader (Shorts)

/-! ## Short streams -/

def DecodeCause.IsEnd (cause : DecodeCause) : Prop := ∃ e, cause = .wire e ∧ Reader.IsEnd e

namespace Capture

theorem shorts_wire {α : Type} {r : Reader WireError α} (h : Shorts Reader.IsEnd r) :
    Shorts DecodeCause.IsEnd (r.mapError .wire) :=
  h.mapError fun e he => ⟨e, rfl, he⟩

theorem shorts_u8 : Shorts DecodeCause.IsEnd u8 := shorts_wire Reader.shorts_u8

theorem shorts_u16 : Shorts DecodeCause.IsEnd u16 := shorts_wire Reader.shorts_u16

theorem shorts_u32 : Shorts DecodeCause.IsEnd u32 := shorts_wire Reader.shorts_u32

theorem shorts_i32 : Shorts DecodeCause.IsEnd i32 := shorts_wire Reader.shorts_i32

theorem shorts_skip (count : Nat) : Shorts DecodeCause.IsEnd (skip count) :=
  (shorts_wire (Reader.shorts_pieces pieceSize count)).map _

/-! ## What is passed over -/

theorem takes_skip {count : Nat} {bytes : Bytes} (h : bytes.length = count) :
    (skip count).Takes bytes () :=
  ((Reader.takes_pieces h).mapError DecodeCause.wire).map fun _ => ()

theorem takes_u8 (b : UInt8) : u8.Takes [b] b := (Reader.takes_u8 b).mapError DecodeCause.wire

theorem takes_u32 (w : UInt32) : u32.Takes (Bytes.ofUInt32 w) w :=
  (Reader.takes_u32 w).mapError DecodeCause.wire

theorem takes_i32 (w : UInt32) : i32.Takes (Bytes.ofUInt32 w) w.toInt32 :=
  ((Reader.takes_u32 w).map UInt32.toInt32).mapError DecodeCause.wire

end Capture

open Capture Hextile

/-- Reading tile after tile needs nothing of a tile but its own errors. -/
theorem Rect.shorts_foldTiles {ε σ : Type} {P : ε → Prop} (r : Rect) (tileWidth tileHeight : Nat)
    {body : σ → Rect → Reader ε σ} (h : ∀ s tile, Shorts P (body s tile)) (s : σ) :
    Shorts P (r.foldTiles tileWidth tileHeight body s) :=
  foldTiles_of_closed Shorts.pure Shorts.bind (fun s _ _ => h s _) s

theorem CompactLength.shorts_capture : Shorts DecodeCause.IsEnd CompactLength.capture := by
  refine shorts_u8.bind fun first => ?_
  split
  · exact .pure _
  · refine shorts_u8.bind fun second => ?_
    split
    · exact .pure _
    · exact shorts_u8.bind fun third => .pure _

theorem Zlib.shorts_capture : Shorts DecodeCause.IsEnd Zlib.capture :=
  shorts_u32.bind fun _ => shorts_skip _

theorem CopyRect.shorts_capture : Shorts DecodeCause.IsEnd CopyRect.capture :=
  shorts_u16.bind fun _ => shorts_u16.bind fun _ => .pure _

theorem Subrects.shorts_capture (kind : Subrects) (format : PixelFormat) :
    Shorts DecodeCause.IsEnd (kind.capture format) :=
  shorts_u32.bind fun _ => (shorts_skip _).bind fun _ => shorts_skip _

theorem Hextile.shorts_captureTile (format : PixelFormat) (tile : Rect) :
    Shorts DecodeCause.IsEnd (Hextile.captureTile format tile) := by
  have stated (flag : Bool) : Shorts DecodeCause.IsEnd (captureStated format flag) := by
    cases flag
    · exact .pure ()
    · exact shorts_skip _
  refine shorts_u8.bind fun byte => ?_
  dsimp only
  split
  · exact shorts_skip _
  · refine (stated _).bind fun _ => (stated _).bind fun _ => ?_
    unfold captureSubrects
    split
    · exact shorts_u8.bind fun count => shorts_skip _
    · exact .pure ()

theorem Hextile.shorts_capture (area : Area) (format : PixelFormat) :
    Shorts DecodeCause.IsEnd (Hextile.capture area format) :=
  Rect.shorts_foldTiles _ _ _ (fun _ tile => Hextile.shorts_captureTile format tile) ()

namespace Tight

theorem shorts_captureFile : Shorts DecodeCause.IsEnd captureFile :=
  CompactLength.shorts_capture.bind fun length => shorts_skip length

theorem shorts_captureFilter (explicit : Bool) :
    Shorts DecodeCause.IsEnd (captureFilter explicit) := by
  unfold captureFilter
  split
  · exact shorts_u8.bind fun code => .pure _
  · exact .pure _

theorem shorts_capturePalette (size : Nat) (filter : Filter) :
    Shorts DecodeCause.IsEnd (capturePalette size filter) := by
  unfold capturePalette
  split
  · exact shorts_u8.bind fun count => (shorts_skip _).bind fun _ => .pure _
  · exact .pure 0

theorem shorts_captureData (size : Nat) : Shorts DecodeCause.IsEnd (captureData size) := by
  unfold captureData
  split
  · exact shorts_skip size
  · exact shorts_captureFile

theorem shorts_captureBasic (area : Area) (size : Nat) (explicit : Bool) :
    Shorts DecodeCause.IsEnd (captureBasic area size explicit) := by
  unfold captureBasic
  split
  · exact .fail _
  · refine (shorts_captureFilter explicit).bind fun filter => ?_
    cases filter with
    | unknown code => exact .fail _
    | _ => exact (shorts_capturePalette size _).bind fun count => shorts_captureData _

theorem shorts_captureKind (area : Area) (format : PixelFormat) (isPng : Bool) (control : UInt8) :
    Shorts DecodeCause.IsEnd (captureKind area format isPng control) := by
  unfold captureKind
  split
  · exact shorts_skip _
  · split
    · exact .fail _
    · exact shorts_captureFile
  · exact shorts_captureFile
  · exact shorts_captureBasic _ _ _
  · exact .fail _

theorem shorts_capture (area : Area) (format : PixelFormat) (isPng : Bool) :
    Shorts DecodeCause.IsEnd (capture area format isPng) :=
  shorts_u8.bind fun control => shorts_captureKind area format isPng control

end Tight

namespace Codec

theorem shorts_capturePayload (encoding : Encoding) (area : Area) (format : PixelFormat) :
    Shorts DecodeCause.IsEnd (capturePayload encoding area format) := by
  cases encoding with
  | raw | cursor => exact shorts_skip _
  | copyRect => exact CopyRect.shorts_capture
  | rre | coRre => exact Subrects.shorts_capture _ _
  | hextile => exact Hextile.shorts_capture area format
  | zlib | zrle | desktopName => exact Zlib.shorts_capture
  | tight | tightPng => exact Tight.shorts_capture _ _ _
  | h264 => exact shorts_u32.bind fun _ => shorts_u32.bind fun _ => shorts_skip _
  | xCursor =>
      show Shorts _ (if area.pixels = 0 then _ else _)
      split
      · exact .pure ()
      · exact shorts_skip _
  | cursorWithAlpha =>
      refine shorts_i32.bind fun inner => ?_
      split
      · exact .fail _
      · exact shorts_skip _
  | extendedDesktopSize => exact shorts_u8.bind fun _ => shorts_skip _
  | ledState => exact shorts_u8.bind fun _ => .pure ()
  | desktopSize | lastRect | pointerPos => exact .pure ()
  | qemuExtendedKeyEvent | fence | continuousUpdates | compressLevel | qualityLevel =>
      exact .fail _

/-! ## Capturing -/

/-- A capture ends as the reader of its encoding does, and with it comes what that took from
the stream. -/
theorem run_capture (encoding : Encoding) (area : Area) (format : PixelFormat) (input : Bytes) :
    ∃ taken,
      taken ++ ((capturePayload encoding area format).run input).2 = input ∧
      (capture encoding area format).run input =
        (match ((capturePayload encoding area format).run input).1 with
          | .ok () => .ok ⟨encoding, taken⟩
          | .error cause =>
            .error (DecodeError.within (.reading encoding area) (DecodeError.of cause), taken),
          ((capturePayload encoding area format).run input).2) := by
  obtain ⟨pieces, all, eq⟩ :=
    Reader.run_recorded (capturePayload encoding area format) [] input
  refine ⟨pieces.reverse.flatten, by simpa using all, ?_⟩
  rw [capture, Reader.run_map, Reader.run_mapError, eq]
  rcases (capturePayload encoding area format).run input with ⟨_ | ⟨⟩, rest⟩ <;> rfl

theorem run_capture_ok {encoding : Encoding} {area : Area} {format : PixelFormat}
    {input rest : Bytes} {c : Codec} :
    (capture encoding area format).run input = (.ok c, rest) ↔
      c.encoding = encoding ∧ input = c.payload ++ rest ∧
        (capturePayload encoding area format).run input = (.ok (), rest) := by
  obtain ⟨taken, all, eq⟩ := run_capture encoding area format input
  rw [eq]
  clear eq
  revert all
  rcases (capturePayload encoding area format).run input with ⟨cause | ⟨⟩, left⟩
  · simp
  · rintro rfl
    obtain ⟨encoding', payload⟩ := c
    simp only [Prod.mk.injEq, Except.ok.injEq, mk.injEq]
    constructor
    · rintro ⟨⟨rfl, rfl⟩, rfl⟩
      exact ⟨rfl, rfl, trivial, rfl⟩
    · rintro ⟨rfl, split, -, rfl⟩
      exact ⟨⟨rfl, List.append_cancel_right split⟩, rfl⟩

theorem run_read_ok {encoding : Encoding} {area : Area} {format : PixelFormat}
    {input rest : Bytes} {c : Codec} :
    (read encoding area format).run input = (.ok c, rest) ↔
      c.encoding = encoding ∧ input = c.payload ++ rest ∧
        (capturePayload encoding area format).run input = (.ok (), rest) := by
  rw [read, Reader.run_mapError_ok, run_capture_ok]

/-! ## Filling a codec -/

/-- Filling a codec ends as the reader of its encoding does; what the codec held before is
gone. -/
theorem refill_eq (c : Codec) (area : Area) (format : PixelFormat) (input : Bytes) :
    ∃ taken,
      taken ++ ((capturePayload c.encoding area format).run input).2 = input ∧
      c.refill area format input =
        (((capturePayload c.encoding area format).run input).1.mapError fun cause =>
            DecodeError.within (.reading c.encoding area) (DecodeError.of cause),
          ⟨c.encoding, taken⟩, ((capturePayload c.encoding area format).run input).2) := by
  obtain ⟨taken, all, eq⟩ := run_capture c.encoding area format input
  refine ⟨taken, all, ?_⟩
  rw [refill, eq]
  rcases (capturePayload c.encoding area format).run input with ⟨_ | ⟨⟩, rest⟩ <;> rfl

theorem refill_ok {c after : Codec} {area : Area} {format : PixelFormat} {input rest : Bytes} :
    c.refill area format input = (.ok (), after, rest) ↔
      after.encoding = c.encoding ∧ input = after.payload ++ rest ∧
        (capturePayload c.encoding area format).run input = (.ok (), rest) := by
  rw [← run_capture_ok, refill]
  rcases (capture c.encoding area format).run input with ⟨_ | filled, left⟩ <;> simp

/-- **Capturing takes a rectangle's data and no more.**  Whatever the codec held before and
however the capture ends, its data and what is left of the stream make up the stream.  If
the capture succeeds, it does the same whatever the codec held and whatever follows the data,
and every proper prefix of the data is too short for it. -/
theorem refill_takes_data (c : Codec) (area : Area) (format : PixelFormat) (input : Bytes) :
    ∃ result after rest, c.refill area format input = (result, after, rest) ∧
      after.encoding = c.encoding ∧ after.payload ++ rest = input ∧
      (result = .ok () →
        (∀ before other, (Codec.mk c.encoding before).refill area format (after.payload ++ other)
          = (.ok (), after, other)) ∧
        ∀ cut, cut <+: after.payload → cut ≠ after.payload →
          ∃ e w, (c.refill area format cut).1 = .error e ∧
            e.cause = .wire w ∧ w.kind = .unexpectedEof) := by
  obtain ⟨taken, all, eq⟩ := refill_eq c area format input
  generalize hrun : (capturePayload c.encoding area format).run input = out at all eq
  obtain ⟨_ | ⟨⟩, rest⟩ := out
  · exact ⟨_, _, rest, eq, rfl, all, fun hok => nomatch hok⟩
  · have done : (capturePayload c.encoding area format).run (taken ++ rest) = (.ok (), rest) := by
      rw [show taken ++ rest = input from all, hrun]
    refine ⟨_, _, rest, eq, rfl, all, fun _ => ⟨fun before other => ?_, fun cut le ne => ?_⟩⟩
    · exact refill_ok.mpr ⟨rfl, rfl, Reader.run_append done other⟩
    · obtain ⟨_, short, w, rfl, eof⟩ :=
        Reader.run_cut (shorts_capturePayload c.encoding area format) done le ne
      obtain ⟨_, -, eqCut⟩ := refill_eq c area format cut
      rw [short] at eqCut
      exact ⟨_, w, congrArg Prod.fst eqCut, rfl, eof⟩

end Codec

end RemoteFramebuffer
