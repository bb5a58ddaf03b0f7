/-
# `RemoteFramebuffer.Proofs.Message.Failures` — a failure to read a message is what it looks like

## What is proved

Of every format, set of encodings and stream on which reading an update fails
(`failures_classified`):

    the stream ends before the bytes needed next         ⟺  the transport failed, unexpected end
    a header has a number that is not accepted           ⟺  that number is not supported
    anything else                                        ⟺  the data is corrupt

and a message of either side that is cut anywhere is an error that tells of a peer gone away, so one
that went away in the middle of a message is never taken for one that broke the protocol.

## How it is proved

The first line is told of the stream and not of the reader: there is a need for more bytes than are
left, and with any bytes there the reader would have gone on (`RunsOut`).  The error of a rectangle
passes through the capture that recorded its bytes, the codec that says where it was met, the update
and the message; `Shorts` and `Refuses` are carried through each of them.
-/
import RemoteFramebuffer.Proofs.Message.Framing
import RemoteFramebuffer.Proofs.Wire.Failure

namespace RemoteFramebuffer

open Reader (Shorts Refuses RunsOut)

/-! ## Fields -/

section Fields

open Reader (IsEnd shorts_u8 shorts_u16 shorts_u32 shorts_flag)

theorem Area.shorts_read : Shorts IsEnd Area.read :=
  shorts_u16.bind fun _ => shorts_u16.bind fun _ => shorts_u16.bind fun _ =>
    shorts_u16.bind fun _ => .pure _

theorem RectHeader.shorts_read : Shorts IsEnd RectHeader.read :=
  Area.shorts_read.bind fun _ => Reader.shorts_i32.bind fun _ => .pure _

theorem RectHeader.refuses_read {Q : WireError → Prop} : Refuses Q RectHeader.read := by
  have area : Refuses Q Area.read :=
    Reader.refuses_u16.bind fun _ => Reader.refuses_u16.bind fun _ =>
      Reader.refuses_u16.bind fun _ => Reader.refuses_u16.bind fun _ => .pure _
  exact area.bind fun _ => Reader.refuses_i32.bind fun _ => .pure _

theorem Screen.shorts_read : Shorts IsEnd Screen.read :=
  shorts_u32.bind fun _ => Area.shorts_read.bind fun _ => shorts_u32.bind fun _ => .pure _

theorem Color.shorts_read : Shorts IsEnd Color.read :=
  shorts_u16.bind fun _ => shorts_u16.bind fun _ => shorts_u16.bind fun _ => .pure _

theorem PixelFormat.shorts_read : Shorts IsEnd PixelFormat.read := by
  refine shorts_u8.bind fun _ => shorts_u8.bind fun _ => shorts_flag.bind fun _ =>
    shorts_flag.bind fun _ => shorts_u16.bind fun _ => shorts_u16.bind fun _ =>
    shorts_u16.bind fun _ => shorts_u8.bind fun _ => shorts_u8.bind fun _ =>
    shorts_u8.bind fun _ => (Reader.shorts_skip 3).bind fun _ => ?_
  dsimp only
  split
  · exact .pure _
  · exact .fail _

theorem CutText.shorts_read : Shorts IsEnd CutText.read :=
  (Reader.shorts_skip 3).bind fun _ => shorts_u32.bind fun _ => Reader.shorts_vecLimited _ _

theorem Fence.shorts_read : Shorts IsEnd Fence.read := by
  refine (Reader.shorts_skip 3).bind fun _ => shorts_u32.bind fun _ => shorts_u8.bind fun _ => ?_
  split
  · exact .fail _
  · exact (Reader.shorts_pieces _ _).bind fun _ => .pure _

end Fields

/-! ## Captures -/

/-- The data is at fault, and neither the stream nor the number of the encoding. -/
def DecodeCause.IsCorrupt (cause : DecodeCause) : Prop :=
  (∀ w, cause ≠ .wire w) ∧ ∀ value, cause ≠ .unsupported value

namespace Capture

variable {Q : DecodeCause → Prop}

theorem refuses_wire {α : Type} {r : Reader WireError α} (h : Refuses (fun _ => False) r) :
    Refuses Q (r.mapError .wire) := h.mapError nofun

theorem refuses_u8 : Refuses Q u8 := refuses_wire Reader.refuses_u8

theorem refuses_u16 : Refuses Q u16 := refuses_wire Reader.refuses_u16

theorem refuses_u32 : Refuses Q u32 := refuses_wire Reader.refuses_u32

theorem refuses_i32 : Refuses Q i32 := refuses_wire Reader.refuses_i32

theorem refuses_skip (count : Nat) : Refuses Q (skip count) :=
  (refuses_wire (Reader.refuses_pieces pieceSize count)).map _

end Capture

section Captures

open Capture

variable {Q : DecodeCause → Prop}

theorem CompactLength.refuses_capture : Refuses Q CompactLength.capture := by
  refine refuses_u8.bind fun first => ?_
  split
  · exact .pure _
  · refine refuses_u8.bind fun second => ?_
    split
    · exact .pure _
    · exact refuses_u8.bind fun third => .pure _

theorem Hextile.refuses_captureTile (format : PixelFormat) (tile : Rect) :
    Refuses Q (Hextile.captureTile format tile) := by
  have stated (flag : Bool) : Refuses Q (Hextile.captureStated format flag) := by
    cases flag
    · exact .pure ()
    · exact refuses_skip _
  refine refuses_u8.bind fun byte => ?_
  dsimp only
  split
  · exact refuses_skip _
  · refine (stated _).bind fun _ => (stated _).bind fun _ => ?_
    unfold Hextile.captureSubrects
    split
    · exact refuses_u8.bind fun count => refuses_skip _
    · exact .pure ()

theorem Hextile.refuses_capture (area : Area) (format : PixelFormat) :
    Refuses Q (Hextile.capture area format) :=
  Rect.foldTiles_of_closed Refuses.pure Refuses.bind
    (fun _ _ _ => Hextile.refuses_captureTile format _) ()

namespace Tight

open DecodeCause (IsCorrupt)

theorem refuses_captureFile : Refuses Q captureFile :=
  CompactLength.refuses_capture.bind fun length => refuses_skip length

theorem refuses_captureFilter (explicit : Bool) : Refuses Q (captureFilter explicit) := by
  unfold captureFilter
  split
  · exact refuses_u8.bind fun code => .pure _
  · exact .pure _

theorem refuses_capturePalette (size : Nat) (filter : Filter) :
    Refuses Q (capturePalette size filter) := by
  unfold capturePalette
  split
  · exact refuses_u8.bind fun count => (refuses_skip _).bind fun _ => .pure _
  · exact .pure 0

theorem refuses_captureData (size : Nat) : Refuses Q (captureData size) := by
  unfold captureData
  split
  · exact refuses_skip size
  · exact refuses_captureFile

theorem refuses_captureBasic (area : Area) (size : Nat) (explicit : Bool) :
    Refuses IsCorrupt (captureBasic area size explicit) := by
  unfold captureBasic
  split
  · exact .fail ⟨nofun, nofun⟩
  · refine (refuses_captureFilter explicit).bind fun filter => ?_
    cases filter with
    | unknown code => exact .fail ⟨nofun, nofun⟩
    | _ => exact (refuses_capturePalette size _).bind fun _ => refuses_captureData _

theorem refuses_captureKind (area : Area) (format : PixelFormat) (isPng : Bool) (control : UInt8) :
    Refuses IsCorrupt (captureKind area format isPng control) := by
  unfold captureKind
  split
  · exact refuses_skip _
  · split
    · exact .fail ⟨nofun, nofun⟩
    · exact refuses_captureFile
  · exact refuses_captureFile
  · exact refuses_captureBasic _ _ _
  · exact .fail ⟨nofun, nofun⟩

end Tight

namespace Codec

theorem refuses_capturePayload {encoding : Encoding} (carries : encoding.carriesRectangle = true)
    (area : Area) (format : PixelFormat) :
    Refuses DecodeCause.IsCorrupt (capturePayload encoding area format) := by
  cases encoding with
  | raw | cursor => exact refuses_skip _
  | copyRect => exact refuses_u16.bind fun _ => refuses_u16.bind fun _ => .pure _
  | rre | coRre =>
      exact refuses_u32.bind fun _ => (refuses_skip _).bind fun _ => refuses_skip _
  | hextile => exact Hextile.refuses_capture area format
  | zlib | zrle | desktopName => exact refuses_u32.bind fun _ => refuses_skip _
  | tight | tightPng => exact refuses_u8.bind fun _ => Tight.refuses_captureKind _ _ _ _
  | h264 => exact refuses_u32.bind fun _ => refuses_u32.bind fun _ => refuses_skip _
  | xCursor =>
      show Refuses _ (if area.pixels = 0 then _ else _)
      split
      · exact .pure ()
      · exact refuses_skip _
  | cursorWithAlpha =>
      refine refuses_i32.bind fun inner => ?_
      split
      · exact .fail ⟨nofun, nofun⟩
      · exact refuses_skip _
  | extendedDesktopSize => exact refuses_u8.bind fun _ => refuses_skip _
  | ledState => exact refuses_u8.bind fun _ => .pure ()
  | desktopSize | lastRect | pointerPos => exact .pure ()
  | qemuExtendedKeyEvent | fence | continuousUpdates | compressLevel | qualityLevel => cases carries

theorem shorts_read (encoding : Encoding) (area : Area) (format : PixelFormat) :
    Shorts (fun e => e.cause.IsEnd) (read encoding area format) := by
  have recorded := (shorts_capturePayload encoding area format).recorded []
  have captured : Shorts (fun e => e.1.cause.IsEnd) (capture encoding area format) := by
    refine .map _ (recorded.mapError ?_)
    exact fun _ h => h
  exact captured.mapError fun _ h => h

theorem refuses_read {encoding : Encoding} (carries : encoding.carriesRectangle = true)
    (area : Area) (format : PixelFormat) :
    Refuses (fun e => e.cause.IsCorrupt) (read encoding area format) := by
  have recorded := (refuses_capturePayload carries area format).recorded []
  have captured : Refuses (fun e => e.1.cause.IsCorrupt) (capture encoding area format) := by
    refine .map _ (recorded.mapError ?_)
    exact fun _ h => h
  exact captured.mapError fun _ h => h

end Codec

end Captures

/-! ## Updates -/

def DecodeError.IsOwn (e : DecodeError) : Prop := ∀ w, e.cause ≠ .wire w

section Updates

variable {format : PixelFormat} {accepted : EncodingSet} {index left : Nat} {input rest : Bytes}
  {value : Int32} {e : DecodeError}

namespace EncodedRect

theorem shorts_read (index : Nat) :
    Shorts (fun e : DecodeError => e.cause.IsEnd) (read format accepted index) := by
  refine (RectHeader.shorts_read.mapError fun w h => ⟨w, rfl, h⟩).bind fun header => ?_
  split
  · exact .fail _
  · exact (Codec.shorts_read _ _ _).bind fun codec => .pure _

theorem refuses_read (index : Nat) : Refuses DecodeError.IsOwn (read format accepted index) := by
  have header : Refuses (fun _ => False) RectHeader.read := RectHeader.refuses_read
  refine (header.mapError nofun).bind fun header => ?_
  split
  · exact .fail nofun
  · rename_i encoding known
    have codec := Codec.refuses_read (EncodingSet.carriesRectangle_of_codecFor? known) header.area
      format
    exact (codec.imp fun _ corrupt => corrupt.1).bind fun codec => .pure _

/-- A rectangle is turned down for its number just if its header stands there whole and the number
is not accepted; its data is not looked at. -/
theorem run_read_unsupported :
    (∃ e, (read format accepted index).run input = (.error e, rest) ∧
        e.cause = .unsupported value) ↔
      ∃ header : RectHeader, input = header.encode ++ rest ∧ header.encoding = value ∧
        accepted.codecFor? value = none := by
  simp only [read, Reader.run_bind_error, Reader.run_mapError_ok, RectHeader.run_read_ok]
  constructor
  · rintro ⟨e, failed | ⟨header, mid, rfl, failed⟩, unsupported⟩
    · obtain ⟨w, -, rfl⟩ := Reader.run_mapError_error.mp failed
      cases unsupported
    · split at failed
      · rename_i unknown
        cases failed
        cases unsupported
        exact ⟨header, rfl, rfl, unknown⟩
      · rename_i encoding known
        have shorts := Codec.shorts_read encoding header.area format
        have refuses := Codec.refuses_read (EncodingSet.carriesRectangle_of_codecFor? known)
          header.area format
        obtain failed | ⟨_, _, _, done⟩ := Reader.run_bind_error.mp failed
        · obtain ⟨-, w, short, -⟩ | ⟨-, corrupt⟩ := Reader.run_error shorts refuses failed
          · cases short.symm.trans unsupported
          · exact absurd unsupported (corrupt.2 value)
        · cases done
  · rintro ⟨header, rfl, rfl, unknown⟩
    refine ⟨DecodeError.of (.unsupported header.encoding), .inr ⟨header, rest, rfl, ?_⟩, rfl⟩
    rw [unknown]
    rfl

end EncodedRect

namespace FramebufferUpdate

theorem shorts_readRects (seen : List EncodedRect) (left index : Nat) :
    Shorts (fun e : DecodeError => e.cause.IsEnd)
      (readRects format accepted seen left index) := by
  induction left generalizing seen index with
  | zero => exact .pure _
  | succ left ih =>
      refine (EncodedRect.shorts_read index).bind fun r => ?_
      split
      · exact .pure _
      · exact ih _ _

theorem refuses_readRects (seen : List EncodedRect) (left index : Nat) :
    Refuses DecodeError.IsOwn (readRects format accepted seen left index) := by
  induction left generalizing seen index with
  | zero => exact .pure _
  | succ left ih =>
      refine (EncodedRect.refuses_read index).bind fun r => ?_
      split
      · exact .pure _
      · exact ih _ _

theorem shorts_readBody :
    Shorts (fun e : DecodeError => e.cause.IsEnd) (readBody format accepted) := by
  have count : Shorts Reader.IsEnd (do Reader.skip 1; Reader.u16) :=
    (Reader.shorts_skip 1).bind fun _ => Reader.shorts_u16
  exact (count.mapError fun w h => ⟨w, rfl, h⟩).bind fun _ =>
    (shorts_readRects _ _ _).bind fun _ => .pure _

theorem refuses_readBody : Refuses DecodeError.IsOwn (readBody format accepted) := by
  have count : Refuses (fun _ => False) (do Reader.skip 1; Reader.u16) :=
    (Reader.refuses_pieces _ _).map _ |>.bind fun _ => Reader.refuses_u16
  exact (count.mapError nofun).bind fun _ => (refuses_readRects _ _ _).bind fun _ => .pure _

/-- Rectangles that are not all read are so up to the one that fails. -/
theorem run_readRects_error {seen : List EncodedRect} :
    (readRects format accepted seen left index).run input = (.error e, rest) ↔
      ∃ (rects : List EncodedRect) (stand : Bytes), rects.length < left ∧
        (∀ r ∈ rects, r.Accepted format accepted ∧ r.codec.encoding ≠ .lastRect) ∧
        input = rects.flatMap EncodedRect.encode ++ stand ∧
        (EncodedRect.read format accepted (index + rects.length)).run stand = (.error e, rest) := by
  induction left generalizing seen index input with
  | zero =>
      constructor
      · nofun
      · rintro ⟨_, _, few, -⟩
        exact absurd few (Nat.not_lt_zero _)
  | succ left ih =>
      rw [readRects, Reader.run_bind_error]
      constructor
      · rintro (failed | ⟨r, mid, read, failed⟩)
        · exact ⟨[], input, Nat.succ_pos _, by simp, rfl, failed⟩
        · obtain ⟨rfl, ok⟩ := EncodedRect.run_read_ok.mp read
          split at failed
          · cases failed
          · rename_i more
            obtain ⟨rects, stand, few, oks, rfl, failed⟩ := ih.mp failed
            refine ⟨r :: rects, stand, Nat.succ_lt_succ few, ?_, by simp, ?_⟩
            · simpa using ⟨⟨ok, more⟩, oks⟩
            · rwa [List.length_cons, Nat.add_comm rects.length, ← Nat.add_assoc]
      · rintro ⟨_ | ⟨r, rects⟩, stand, few, oks, rfl, failed⟩
        · exact .inl failed
        · obtain ⟨ok, more⟩ := oks r List.mem_cons_self
          refine .inr ⟨r, rects.flatMap EncodedRect.encode ++ stand,
            EncodedRect.run_read_ok.mpr ⟨by simp, ok⟩, ?_⟩
          rw [if_neg more]
          refine ih.mpr ⟨rects, stand, Nat.lt_of_succ_lt_succ few,
            fun r' mem => oks r' (List.mem_cons_of_mem _ mem), rfl, ?_⟩
          rwa [List.length_cons, Nat.add_comm rects.length, ← Nat.add_assoc] at failed

/-- The update goes as far as a header whose number is not accepted: its padding, its count, fewer
rectangles than that, none of them the last, and the header, with `rest` behind it. -/
def Refused (format : PixelFormat) (accepted : EncodingSet) (value : Int32)
    (input rest : Bytes) : Prop :=
  ∃ (pad : UInt8) (count : UInt16) (rects : List EncodedRect) (header : RectHeader),
    input = pad :: (Bytes.ofUInt16 count ++
      (rects.flatMap EncodedRect.encode ++ (header.encode ++ rest))) ∧
    rects.length < count.toNat ∧
    (∀ r ∈ rects, r.Accepted format accepted ∧ r.codec.encoding ≠ .lastRect) ∧
    header.encoding = value ∧ accepted.codecFor? value = none

theorem run_readBody_unsupported :
    (∃ e, (readBody format accepted).run input = (.error e, rest) ∧
        e.cause = .unsupported value) ↔ Refused format accepted value input rest := by
  simp only [readBody, Reader.run_bind_error, Reader.run_mapError_ok, Reader.run_bind_ok,
    Reader.run_skip_ok, Reader.run_u16_ok]
  constructor
  · rintro ⟨e, failed | ⟨count, mid, ⟨⟨⟩, _, ⟨one, rfl⟩, stands⟩, failed | ⟨_, _, -, done⟩⟩,
      unsupported⟩
    · obtain ⟨w, -, rfl⟩ := Reader.run_mapError_error.mp failed
      cases unsupported
    · obtain ⟨rects, stand, few, oks, rfl, refused⟩ := run_readRects_error.mp failed
      obtain ⟨header, rfl, number, unknown⟩ :=
        EncodedRect.run_read_unsupported.mp ⟨e, refused, unsupported⟩
      obtain _ | ⟨pad, input⟩ := input
      · simp at one
      · exact ⟨pad, count, rects, header, by simpa using stands, few, oks, number, unknown⟩
    · cases done
  · rintro ⟨pad, count, rects, header, rfl, few, oks, number, unknown⟩
    obtain ⟨e, failed, unsupported⟩ := EncodedRect.run_read_unsupported.mpr
      ⟨header, rfl, number, unknown⟩
    refine ⟨e, .inr ⟨count, _, ⟨(), _, ⟨by simp, rfl⟩, rfl⟩, .inl ?_⟩, unsupported⟩
    exact run_readRects_error.mpr ⟨rects, _, few, oks, rfl, failed⟩

end FramebufferUpdate

end Updates

/-! ## Messages -/

def SessionError.IsEnd (e : SessionError) : Prop := ∃ w, e = .transport w ∧ Reader.IsEnd w

theorem SessionError.IsEnd.isDisconnect {e : SessionError} (h : e.IsEnd) :
    e.isDisconnect = true := by
  obtain ⟨w, rfl, eof⟩ := h
  rw [SessionError.isDisconnect, show w.kind = _ from eof]
  rfl

theorem SessionError.ofDecode_eq_unsupported {e : DecodeError} {value : Int32} :
    ofDecode e = .unsupportedEncoding value ↔ e.cause = .unsupported value := by
  unfold ofDecode
  split
  · rename_i other cause
    rw [cause]
    simp
  · rename_i w cause
    rw [cause]
    exact ⟨nofun, nofun⟩
  · rename_i other _
    exact ⟨nofun, fun h => absurd h (other value)⟩

namespace ServerMessage

variable {format : PixelFormat} {accepted : EncodingSet}

theorem shorts_readBody (code : UInt8) :
    Shorts SessionError.IsEnd (readBody format accepted code) := by
  have field {α : Type} {r : Reader WireError α} (h : Shorts Reader.IsEnd r) :
      Shorts SessionError.IsEnd (r.mapError .transport) := h.mapError fun w eof => ⟨w, rfl, eof⟩
  unfold readBody
  split
  · refine .map _ (FramebufferUpdate.shorts_readBody.mapError ?_)
    rintro e ⟨w, cause, eof⟩
    exact ⟨w, by rw [SessionError.ofDecode, cause], eof⟩
  · exact field ((Reader.shorts_skip 1).bind fun _ => Reader.shorts_u16.bind fun _ =>
      Reader.shorts_u16.bind fun _ => (Reader.shorts_values Color.shorts_read _).bind fun _ =>
      .pure _)
  · exact .pure _
  · exact (field CutText.shorts_read).map _
  · exact .pure _
  · exact (field Fence.shorts_read).map _
  · exact .fail _

theorem shorts_read : Shorts SessionError.IsEnd (read format accepted) :=
  (Reader.shorts_u8.mapError fun w eof => ⟨w, rfl, eof⟩).bind fun code => shorts_readBody code

/-- What is turned down of an update is a number that is not accepted or corrupt data. -/
theorem refuses_readBody :
    Refuses (fun e => (∃ value, e = .unsupportedEncoding value) ∨ ∃ cause, e = .encoding cause)
      (readBody format accepted 0) := by
  refine .map _ (FramebufferUpdate.refuses_readBody.mapError ?_)
  intro e own
  unfold SessionError.ofDecode
  split
  · exact .inl ⟨_, rfl⟩
  · rename_i w cause
    exact absurd cause (own w)
  · exact .inr ⟨_, rfl⟩

/-- An update fails for a number that is not accepted just if it goes as far as its header. -/
theorem run_readBody_unsupported {input rest : Bytes} {value : Int32} :
    (readBody format accepted 0).run input = (.error (.unsupportedEncoding value), rest) ↔
      FramebufferUpdate.Refused format accepted value input rest := by
  rw [← FramebufferUpdate.run_readBody_unsupported]
  show (framebufferUpdate <$> Reader.mapError SessionError.ofDecode
    (FramebufferUpdate.readBody format accepted)).run input = _ ↔ _
  rw [Reader.run_map, Reader.run_mapError]
  rcases (FramebufferUpdate.readBody format accepted).run input with ⟨e | update, left⟩
  · show (Except.error (SessionError.ofDecode e), left) = _ ↔ _
    simp only [Prod.mk.injEq, Except.error.injEq, SessionError.ofDecode_eq_unsupported]
    constructor
    · rintro ⟨unsupported, rfl⟩
      exact ⟨e, ⟨rfl, rfl⟩, unsupported⟩
    · rintro ⟨_, ⟨rfl, rfl⟩, unsupported⟩
      exact ⟨unsupported, rfl⟩
  · exact ⟨fun h => absurd h nofun, fun ⟨_, h, _⟩ => absurd h nofun⟩

end ServerMessage

namespace ClientMessage

open Reader (IsEnd shorts_u8 shorts_u16 shorts_u32 shorts_flag shorts_skip shorts_values)

theorem shorts_readBody? {code : UInt8} {body : Reader WireError ClientMessage}
    (known : readBody? code = some body) : Shorts IsEnd body := by
  unfold readBody? at known
  split at known <;> cases known
  · exact (shorts_skip 3).bind fun _ => PixelFormat.shorts_read.bind fun _ => .pure _
  · exact (shorts_skip 1).bind fun _ => shorts_u16.bind fun _ =>
      (shorts_values Reader.shorts_i32 _).bind fun _ => .pure _
  · exact shorts_flag.bind fun _ => Area.shorts_read.bind fun _ => .pure _
  · exact shorts_flag.bind fun _ => (shorts_skip 2).bind fun _ => shorts_u32.bind fun _ => .pure _
  · exact shorts_u8.bind fun _ => shorts_u16.bind fun _ => shorts_u16.bind fun _ => .pure _
  · exact CutText.shorts_read.bind fun _ => .pure _
  · exact shorts_flag.bind fun _ => Area.shorts_read.bind fun _ => .pure _
  · exact Fence.shorts_read.bind fun _ => .pure _
  · exact (shorts_skip 1).bind fun _ => shorts_u16.bind fun _ => shorts_u16.bind fun _ =>
      shorts_u8.bind fun _ => (shorts_skip 1).bind fun _ =>
      (shorts_values Screen.shorts_read _).bind fun _ => .pure _
  · exact shorts_u8.bind fun _ => shorts_u16.bind fun _ => shorts_u32.bind fun _ =>
      shorts_u32.bind fun _ => .pure _

theorem shorts_read :
    Shorts (fun e => ∃ w, e = .io w ∧ IsEnd w) read := by
  refine (shorts_u8.mapError fun w eof => ⟨w, rfl, eof⟩).bind fun code => ?_
  unfold readBody
  split
  · rename_i known
    exact (shorts_readBody? known).mapError fun w eof => ⟨w, rfl, eof⟩
  · exact .fail _

end ClientMessage

/-- **A failure to read is what it looks like.**  Where reading an update fails, the error is of the
transport, an unexpected end, just if the stream ended before the bytes needed next; it is that a
number is not supported just if the update goes as far as a header with this number, which is not
accepted, and nothing behind that header was read; and otherwise, and only then, the data is
corrupt.  A message of either side that is cut anywhere, and read with the same format and
encodings, is an error that tells of a peer gone away. -/
theorem failures_classified (format : PixelFormat) (accepted : EncodingSet) :
    (∀ input e rest, (ServerMessage.readBody format accepted 0).run input = (.error e, rest) →
      (e.IsEnd ↔ (ServerMessage.readBody format accepted 0).RunsOut input) ∧
      (∀ value, e = .unsupportedEncoding value ↔
        FramebufferUpdate.Refused format accepted value input rest) ∧
      ((∃ cause, e = .encoding cause) ↔
        ¬ (ServerMessage.readBody format accepted 0).RunsOut input ∧
          ∀ value, ¬ FramebufferUpdate.Refused format accepted value input rest)) ∧
    (∀ whole m cut, ClientMessage.read.run whole = (.ok m, []) → cut <+: whole → cut ≠ whole →
      ∃ e, (ClientMessage.read.run cut).1 = .error e ∧
        (SessionError.protocol e).isDisconnect = true) ∧
    ∀ whole m cut, (ServerMessage.read format accepted).run whole = (.ok m, []) →
      cut <+: whole → cut ≠ whole →
      ∃ e, ((ServerMessage.read format accepted).run cut).1 = .error e ∧ e.isDisconnect = true := by
  refine ⟨fun input e rest failed => ?_, fun whole m cut read part short => ?_,
    fun whole m cut read part short => ?_⟩
  · have unsupported (value : Int32) : e = .unsupportedEncoding value ↔
        FramebufferUpdate.Refused format accepted value input rest := by
      rw [← ServerMessage.run_readBody_unsupported, failed]
      simp
    have kinds := Reader.run_error (ServerMessage.shorts_readBody 0)
      ServerMessage.refuses_readBody failed
    refine ⟨?_, unsupported, ?_⟩
    · obtain ⟨runsOut, isEnd⟩ | ⟨goesOn, own⟩ := kinds
      · exact iff_of_true isEnd runsOut
      · refine iff_of_false ?_ goesOn
        rintro ⟨w, rfl, -⟩
        obtain ⟨_, h⟩ | ⟨_, h⟩ := own <;> cases h
    · simp only [← unsupported]
      obtain ⟨runsOut, w, rfl, -⟩ | ⟨goesOn, ⟨value, rfl⟩ | ⟨cause, rfl⟩⟩ := kinds
      · exact iff_of_false nofun fun h => h.1 runsOut
      · exact iff_of_false nofun fun h => h.2 value rfl
      · exact iff_of_true ⟨cause, rfl⟩ ⟨goesOn, nofun⟩
  · have whole_read : ClientMessage.read.run (whole ++ []) = (.ok m, []) := by rwa [List.append_nil]
    obtain ⟨e, failed, w, rfl, eof⟩ :=
      Reader.run_cut ClientMessage.shorts_read whole_read part short
    refine ⟨_, failed, ?_⟩
    rw [SessionError.isDisconnect, show w.kind = _ from eof]
    rfl
  · have whole_read : (ServerMessage.read format accepted).run (whole ++ []) = (.ok m, []) := by
      rwa [List.append_nil]
    obtain ⟨e, failed, isEnd⟩ := Reader.run_cut ServerMessage.shorts_read whole_read part short
    exact ⟨e, failed, isEnd.isDisconnect⟩

/-- An update that is cut in its count, one whose rectangle has the number 7, which is not accepted,
a key event and a text of a server, each cut behind their padding. -/
theorem failures_classified_fourWays :
    let read := ServerMessage.readBody PixelFormat.rgb888 (EncodingSet.ofList [.raw]) 0
    read.RunsOut [9, 0] ∧
      FramebufferUpdate.Refused PixelFormat.rgb888 (EncodingSet.ofList [.raw]) 7
        [9, 0, 1, 0, 0, 0, 0, 0, 1, 0, 1, 0, 0, 0, 7, 1, 2] [1, 2] ∧
      (∃ e, (ClientMessage.read.run [4, 1, 0, 0]).1 = .error e ∧
        (SessionError.protocol e).isDisconnect = true) ∧
      ∃ e, ((ServerMessage.read PixelFormat.rgb888 (EncodingSet.ofList [.raw])).run
        [3, 0, 0, 0]).1 = .error e ∧ e.isDisconnect = true := by
  intro read
  obtain ⟨update, client, server⟩ :=
    failures_classified PixelFormat.rgb888 (EncodingSet.ofList [.raw])
  refine ⟨(update [9, 0] (.transport (.endOfStream 2 1)) [0] (by rfl)).1.mp ⟨_, rfl, rfl⟩,
    ((update _ (.unsupportedEncoding 7) [1, 2] (by rfl)).2.1 7).mp rfl,
    client [4, 1, 0, 0, 0, 0, 0, 65] (.keyEvent true 65) _ (by rfl) ⟨_, rfl⟩ (by decide),
    server [3, 0, 0, 0, 0, 0, 0, 1, 65] (.cutText [65]) _ (by rfl) ⟨_, rfl⟩ (by decide)⟩

end RemoteFramebuffer
