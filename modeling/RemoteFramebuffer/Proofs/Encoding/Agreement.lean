/-
# `RemoteFramebuffer.Proofs.Encoding.Agreement` — what was captured can be drawn

## What is proved

Let `c` have been captured for a rectangle with a valid format.  On every well-formed canvas, with
any color map and any state of the streams, drawing `c` for that rectangle with that format comes to
one of these (`render_agrees`):

    success      and the data was gone through to its end, if the encoding's data is gone through
    an error     of no step that cannot be taken: out of range, past a word, over empty pieces
                 of data that is missing only within a ZRLE tile

## How it is proved

Capturing a rectangle found the end of its data; drawing finds the same end.  Both are loops over the
same items, and an item that was captured is drawn from just the bytes that it was captured as
(`Follows`).  The tiles of a ZRLE rectangle are the exception: they are compressed, and were not
looked at when they were captured.

## What it is not

That drawing succeeds: a palette may lack an index, and a rectangle may stick out of the canvas.  Nor
that it draws the right picture, which is told of each encoding apart.
-/
import RemoteFramebuffer.Deflate.Decoder
import RemoteFramebuffer.Proofs.Encoding.Capture
import RemoteFramebuffer.Proofs.Encoding.Tight
import RemoteFramebuffer.Proofs.Encoding.Zrle

namespace RemoteFramebuffer.Codec

open DecodeError (Clean CleanOutsideTiles)
open Render

/-- Whether drawing goes through the data from its first byte to its last.  Raw data is taken
as a whole, and files, screens and names are not looked at. -/
def walks (c : Codec) : Bool :=
  match c.encoding, c.payload with
  | .copyRect, _ | .rre, _ | .coRre, _ | .hextile, _ | .zlib, _ | .zrle, _ => true
  | .cursor, _ | .xCursor, _ | .cursorWithAlpha, _ => true
  | .tight, control :: _ | .tightPng, control :: _ => (Tight.Control.ofByte control).walks
  | _, _ => false

/-- An error that drawing captured data may end in: of data that ended too early only if that
is the data of a ZRLE tile. -/
def Expected (encoding : Encoding) (e : DecodeError) : Prop :=
  e.Faultless ∧ ∀ need left, e.cause = .payloadEnd need left →
    encoding = .zrle ∧ ∃ tile, .tile tile ∈ e.contexts

variable {encoding : Encoding} {e : DecodeError}

theorem expected_of_clean (h : e.Clean) : Expected encoding e :=
  ⟨h.faultless, fun need left eq => absurd eq (h.complete need left)⟩

theorem expected_of_tiles (h : e.CleanOutsideTiles) : Expected .zrle e :=
  ⟨h.faultless, fun need left eq => ⟨rfl, h.complete need left eq⟩⟩

theorem Expected.within (h : Expected encoding e) (context : DecodeContext) :
    Expected encoding (e.within context) := by
  refine ⟨h.1, fun need left eq => ?_⟩
  obtain ⟨isZrle, tile, mem⟩ := h.2 need left eq
  exact ⟨isZrle, tile, List.mem_cons_of_mem _ mem⟩

section

variable [StreamDecoder] {style : Style} {area : Area}

/-- Encoding by encoding, drawing leaves of the captured data what it is allowed to. -/
theorem sat_renderPayload (valid : style.format.validate = .ok ()) {data : Bytes}
    (run : (capturePayload encoding area style.format).run data = (.ok (), [])) :
    Draw.Sat (Expected encoding) (fun out => walks ⟨encoding, data⟩ = true → out.2 = [])
      (renderPayload encoding style area data) := by
  -- Data that is walked, and data that is not.
  have follow {c : Capture Unit} {r : Render Unit} (h : Follows c Clean (fun _ _ => True) r)
      (run : c.run data = (.ok (), [])) :
      Draw.Sat (Expected encoding) (fun out => walks ⟨encoding, data⟩ = true → out.2 = [])
        (r data) :=
    (h _ _ _ run).mono (fun _ => expected_of_clean) fun _ out _ => out.1
  have ignore {r : Render Unit} (h : Draw.Sat Clean (fun _ => True) (r data))
      (ignored : walks ⟨encoding, data⟩ = false) :
      Draw.Sat (Expected encoding) (fun out => walks ⟨encoding, data⟩ = true → out.2 = [])
        (r data) :=
    h.mono (fun _ => expected_of_clean) fun _ _ yes => nomatch ignored.symm.trans yes
  cases encoding with
  | raw => exact ignore (Raw.sat_render style area data) rfl
  | copyRect => exact follow (CopyRect.follows_render area) run
  | rre | coRre => exact follow (Subrects.follows_render _ style area) run
  | hextile => exact follow (Hextile.follows_render style area) run
  | zlib => exact follow (Zlib.follows_render style area) run
  | zrle =>
      exact (Zrle.follows_render style area _ _ _ run).mono (fun _ => expected_of_tiles)
        fun _ out _ => out.1
  | tight | tightPng =>
      obtain ⟨control, mid, first, -⟩ := Reader.run_bind_ok.mp run
      rw [Capture.u8, Reader.run_mapError_ok, Reader.run_u8_ok] at first
      subst first
      exact (Tight.sat_render valid run).mono (fun _ => expected_of_clean) fun _ => id
  | cursor => exact follow (Cursor.follows_render style area) run
  | xCursor => exact follow (Cursor.follows_renderTwoColor area) run
  | cursorWithAlpha => exact follow (Cursor.follows_renderAlpha area) run
  | pointerPos => exact ignore (sat_drawOnly (Draw.sat_moveCursor _) data) rfl
  | desktopSize | extendedDesktopSize =>
      have hw := Nat.le_of_lt_succ area.width.toNat_lt
      have hh := Nat.le_of_lt_succ area.height.toNat_lt
      exact ignore (sat_drawOnly (Draw.sat_resize hw hh) data) rfl
  | _ => exact ignore (Draw.sat_pure trivial) rfl

/-- **What was captured can be drawn.**  Let a rectangle have been captured with a valid format
and be drawn with the same one, on any well-formed canvas, with any color map and any state of
the streams.  If drawing fails, no step was out of range, past the width of a word, over pieces
of no bytes or below zero, and if data was missing it was that of a ZRLE tile.  If it succeeds
it has walked the data to its end. -/
theorem render_agrees {input rest : Bytes} {c : Codec} {scene : Scene}
    (valid : style.format.validate = .ok ())
    (captured : (read encoding area style.format).run input = (.ok c, rest))
    (canvas : scene.canvas.WellFormed) :
    (∀ e, (c.render style area scene).1 = .error e →
      (∀ kind, e.cause ≠ .fault kind) ∧
        ∀ need left, e.cause = .payloadEnd need left →
          encoding = .zrle ∧ ∃ tile, .tile tile ∈ e.contexts) ∧
    ((c.render style area scene).1 = .ok () → c.walks = true →
      ∃ after, (renderPayload encoding style area).run c.payload scene =
        (.ok ((), []), after)) := by
  obtain ⟨rfl, rfl, run⟩ := run_read_ok.mp captured
  have again := Reader.run_append run []
  rw [List.append_nil] at again
  have sat := sat_renderPayload valid again
  constructor
  · intro e failed
    have drawn : Draw.Sat (Expected c.encoding) (fun _ => True) (c.render style area) :=
      (sat_whole (sat.mono (fun _ => id) fun _ _ => trivial)).within fun _ h => h.within _
    have outcome := (drawn scene canvas).2
    rw [failed] at outcome
    exact outcome
  · intro done walked
    have outcome := (sat scene canvas).2
    rw [render, Draw.within, whole_eq] at done
    generalize hrun : renderPayload c.encoding style area c.payload scene = result at outcome done
    obtain ⟨e | ⟨⟨⟩, left⟩, after⟩ := result
    · cases done
    · have nothing : left = [] := outcome walked
      subst nothing
      exact ⟨after, hrun⟩

end

/-- Three by two pixels under a palette of two colors, a bit each. -/
def twoColors : Codec :=
  ⟨.tight, [0x40, 0x01, 0x01, 0, 0, 0, 255, 255, 255, 0xA0, 0x40]⟩

theorem render_agrees_twoColors :
    (Style.mk .rgb888 .black).format.validate = .ok () ∧
      (read .tight ⟨1, 1, 3, 2⟩ .rgb888).run (twoColors.payload ++ [99]) = (.ok twoColors, [99]) ∧
      (Canvas.make 4 4).WellFormed ∧ twoColors.walks = true ∧
      ∃ after, (renderPayload .tight ⟨.rgb888, .black⟩ ⟨1, 1, 3, 2⟩).run twoColors.payload
        ⟨Canvas.make 4 4, Streams.fresh⟩ = (.ok ((), []), after) := by
  have valid : (Style.mk .rgb888 .black).format.validate = .ok () := rfl
  have captured : (read .tight ⟨1, 1, 3, 2⟩ (Style.mk .rgb888 .black).format).run
      (twoColors.payload ++ [99]) = (.ok twoColors, [99]) := rfl
  have canvas : (Scene.mk (Canvas.make 4 4) Streams.fresh).canvas.WellFormed :=
    .make (by decide) (by decide)
  have drawn : (twoColors.render ⟨.rgb888, .black⟩ ⟨1, 1, 3, 2⟩
      ⟨Canvas.make 4 4, Streams.fresh⟩).1 = .ok () := Outcome.eq_ok_of_isOk (by decide +kernel)
  exact ⟨valid, captured, canvas, rfl, (render_agrees valid captured canvas).2 drawn rfl⟩

end RemoteFramebuffer.Codec
