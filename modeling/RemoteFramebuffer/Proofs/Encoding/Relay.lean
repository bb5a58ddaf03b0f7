/-
# `RemoteFramebuffer.Proofs.Encoding.Relay` — an update is passed on as it came

## What is proved

Of every format, set of encodings and stream, let an update `u` have been read from `input` with
`rest` left behind it (`relay_exact`):

    input                             = pad :: consumed ++ rest
    what is written of u              = 0 :: 0 :: consumed
    what is written of a copy of u    = 0 :: 0 :: consumed
    read again, `other` behind it     u, and `other` is left

The rectangles end where the announced count or the first LastRect ends them, and the number in each
header is that of its codec.

## How it is proved

What an update is read from and what it is written as are the same bytes, up to one byte of
padding.  The law is an equivalence at every level, so it serves both directions:

    r.encode ++ rest             reads as   r       and leaves   rest       (`run_read_ok`)
    rs.flatMap encode ++ rest    reads as   rs      and leaves   rest       (`run_readRects_ok`)
    pad :: count ++ … ++ rest    reads as   u       and leaves   rest       (`run_readBody_ok`)

provided that each rectangle holds what a reader of its encoding consumes (`Accepted`) and
that the list ends where the announced count or a LastRect ends it (`Ends`).
-/
import RemoteFramebuffer.Message
import RemoteFramebuffer.Proofs.Encoding.Capture
import RemoteFramebuffer.Proofs.Encoding.Set
import RemoteFramebuffer.Proofs.Message.Field

namespace RemoteFramebuffer

open Reader

namespace EncodedRect

/-- The rectangle is accepted, and its data is what the reader of its encoding consumes. -/
def Accepted (format : PixelFormat) (accepted : EncodingSet) (r : EncodedRect) : Prop :=
  accepted.codecFor? r.header.encoding = some r.codec.encoding ∧
    ∀ rest, (Codec.capturePayload r.codec.encoding r.header.area format).run
      (r.codec.payload ++ rest) = (.ok (), rest)

theorem run_read_ok {format : PixelFormat} {accepted : EncodingSet} {index : Nat}
    {input rest : Bytes} {r : EncodedRect} :
    (read format accepted index).run input = (.ok r, rest) ↔
      input = r.encode ++ rest ∧ r.Accepted format accepted := by
  rw [read, run_bind_ok]
  constructor
  · rintro ⟨header, mid, hheader, hcodec⟩
    rw [run_mapError_ok, RectHeader.run_read_ok] at hheader
    subst hheader
    split at hcodec
    · cases hcodec
    · rename_i encoding known
      obtain ⟨c, left, hread, hdone⟩ := run_bind_ok.mp hcodec
      obtain ⟨rfl, rfl, took⟩ := Codec.run_read_ok.mp hread
      cases hdone
      exact ⟨by simp [encode], known, fun other => run_append took other⟩
  · rintro ⟨rfl, known, takes⟩
    refine ⟨r.header, r.codec.payload ++ rest, ?_, ?_⟩
    · rw [run_mapError_ok, RectHeader.run_read_ok, encode, List.append_assoc]
    · rw [known]
      exact run_bind_ok.mpr ⟨r.codec, rest, Codec.run_read_ok.mpr ⟨rfl, rfl, takes rest⟩, rfl⟩

theorem Accepted.all {format : PixelFormat} {accepted : EncodingSet} {r : EncodedRect}
    (h : r.Accepted format accepted) : r.Accepted format EncodingSet.all :=
  ⟨EncodingSet.codecFor?_all h.1, h.2⟩

@[simp] theorem clone_eq (r : EncodedRect) : r.clone = r := rfl

end EncodedRect

namespace FramebufferUpdate

/-- `Ends left rects`: of `left` rectangles announced, `rects` are those up to the end of the
list, which is the last one announced or the first LastRect. -/
inductive Ends : Nat → List EncodedRect → Prop
  | none : Ends 0 []
  | last {left : Nat} {r : EncodedRect} : r.codec.encoding = .lastRect → Ends (left + 1) [r]
  | more {left : Nat} {r : EncodedRect} {rects : List EncodedRect} :
      r.codec.encoding ≠ .lastRect → Ends left rects → Ends (left + 1) (r :: rects)

/-- Rectangles are read exactly where they are written, up to the end of the list. -/
theorem run_readRects_ok {format : PixelFormat} {accepted : EncodingSet} {left index : Nat}
    {seen all : List EncodedRect} {input rest : Bytes} :
    (readRects format accepted seen left index).run input = (.ok all, rest) ↔
      ∃ rects, all = seen.reverse ++ rects ∧ Ends left rects ∧
        (∀ r ∈ rects, r.Accepted format accepted) ∧
        input = rects.flatMap EncodedRect.encode ++ rest := by
  induction left generalizing seen index input with
  | zero =>
      simp only [readRects, run_pure, Prod.mk.injEq, Except.ok.injEq]
      constructor
      · rintro ⟨rfl, rfl⟩
        exact ⟨[], by simp, .none, by simp, rfl⟩
      · rintro ⟨_, rfl, ⟨⟩, -, rfl⟩
        exact ⟨by simp, rfl⟩
  | succ left ih =>
      rw [readRects, run_bind_ok]
      constructor
      · rintro ⟨r, mid, hr, hrest⟩
        obtain ⟨rfl, ok⟩ := EncodedRect.run_read_ok.mp hr
        split at hrest
        · rename_i last
          cases hrest
          exact ⟨[r], by simp, .last last, by simpa using ok, by simp⟩
        · rename_i more
          obtain ⟨rects, rfl, ends, oks, rfl⟩ := ih.mp hrest
          exact ⟨r :: rects, by simp, .more more ends, by simpa using ⟨ok, oks⟩, by simp⟩
      · rintro ⟨_, rfl, ends, oks, rfl⟩
        cases ends with
        | @last _ r last =>
            refine ⟨r, rest, EncodedRect.run_read_ok.mpr ⟨by simp, oks r (by simp)⟩, ?_⟩
            rw [if_pos last, run_pure, List.reverse_cons]
        | @more _ r rects more ends =>
            refine ⟨r, rects.flatMap EncodedRect.encode ++ rest,
              EncodedRect.run_read_ok.mpr ⟨by simp, oks r (by simp)⟩, ?_⟩
            rw [if_neg more]
            refine ih.mpr ⟨rects, by simp, ends, fun r' h => oks r' (by simp [h]), rfl⟩

/-- An update is read exactly where it is written, whatever the padding is. -/
theorem run_readBody_ok {format : PixelFormat} {accepted : EncodingSet} {input rest : Bytes}
    {u : FramebufferUpdate} :
    (readBody format accepted).run input = (.ok u, rest) ↔
      Ends u.count.toNat u.rects ∧ (∀ r ∈ u.rects, r.Accepted format accepted) ∧
        ∃ pad, input =
          pad :: (Bytes.ofUInt16 u.count ++ u.rects.flatMap EncodedRect.encode ++ rest) := by
  simp only [readBody, run_bind_ok, run_mapError_ok, run_skip_ok, run_u16_ok]
  constructor
  · rintro ⟨count, mid, ⟨⟨⟩, _, ⟨one, rfl⟩, hcount⟩, all, left, hrects, hdone⟩
    obtain ⟨rects, rfl, ends, oks, rfl⟩ := run_readRects_ok.mp hrects
    cases hdone
    obtain _ | ⟨pad, input⟩ := input
    · simp at one
    · refine ⟨by simpa using ends, by simpa using oks, pad, ?_⟩
      simpa using hcount
  · rintro ⟨ends, oks, pad, rfl⟩
    exact ⟨u.count, _, ⟨(), _, ⟨by simp, rfl⟩, by simp⟩, u.rects, rest,
      run_readRects_ok.mpr ⟨u.rects, by simp, ends, oks, rfl⟩, rfl⟩

/-- An update that was read with some set of encodings is read back from what is written for
it with the set of all. -/
theorem takes_encodeBody {format : PixelFormat} {accepted : EncodingSet} {input rest : Bytes}
    {u : FramebufferUpdate} (h : (readBody format accepted).run input = (.ok u, rest)) :
    (readBody format EncodingSet.all).Takes u.encodeBody u := by
  intro other
  obtain ⟨ends, oks, -⟩ := run_readBody_ok.mp h
  exact run_readBody_ok.mpr ⟨ends, fun r mem => (oks r mem).all, 0, by simp [encodeBody, Bytes.zeros]⟩

@[simp] theorem clone_eq (u : FramebufferUpdate) : u.clone = u := by
  have copies : u.rects.map EncodedRect.clone = u.rects :=
    (List.map_congr_left fun r _ => r.clone_eq).trans u.rects.map_id
  rw [clone, copies]

/-- **An update is passed on as it came.**  What is written for an update that was read, or
for a copy of it, is the type byte, a byte of zero padding, and the bytes that were consumed
after the padding.  The list ends where the announced count or the first LastRect ends it,
each header has the number of its codec's encoding, and from what is written the same update
is read back, with whatever follows left alone. -/
theorem relay_exact {format : PixelFormat} {accepted : EncodingSet} {input rest : Bytes}
    {u : FramebufferUpdate} (h : (readBody format accepted).run input = (.ok u, rest)) :
    (∃ pad consumed, input = pad :: consumed ++ rest ∧
      (ServerMessage.framebufferUpdate u).encode = 0 :: 0 :: consumed ∧
      (ServerMessage.framebufferUpdate u.clone).encode = 0 :: 0 :: consumed) ∧
    Ends u.count.toNat u.rects ∧
    (∀ r ∈ u.rects, r.header.encoding = r.codec.encoding.wire) ∧
    ∀ other, (readBody format accepted).run
      ((ServerMessage.framebufferUpdate u).encode.drop 1 ++ other) = (.ok u, other) := by
  obtain ⟨ends, oks, pad, rfl⟩ := run_readBody_ok.mp h
  have written : (ServerMessage.framebufferUpdate u).encode =
      0 :: 0 :: (Bytes.ofUInt16 u.count ++ u.rects.flatMap EncodedRect.encode) := rfl
  refine ⟨⟨pad, _, by simp, written, by rw [clone_eq, written]⟩, ends, fun r hr => ?_,
    fun other => ?_⟩
  · exact (EncodingSet.wire_of_codecFor? (oks r hr).1).symm
  · exact run_readBody_ok.mpr ⟨ends, oks, 0, by simp [written]⟩

/-- Two rectangles: one copied, and the LastRect that ends a list of unknown length. -/
def copiedThenLast : FramebufferUpdate where
  count := 0xFFFF
  rects := [⟨⟨⟨1, 2, 3, 4⟩, 1⟩, ⟨.copyRect, [0, 5, 0, 6]⟩⟩, ⟨⟨⟨0, 0, 0, 0⟩, -224⟩, ⟨.lastRect, []⟩⟩]

theorem relay_exact_copiedThenLast :
    let accepted := EncodingSet.ofList [.copyRect, .lastRect]
    let consumed : Bytes :=
      [255, 255, 0, 1, 0, 2, 0, 3, 0, 4, 0, 0, 0, 1, 0, 5, 0, 6,
       0, 0, 0, 0, 0, 0, 0, 0, 255, 255, 255, 32]
    (readBody default accepted).run (7 :: consumed ++ [9]) = (.ok copiedThenLast, [9]) ∧
      ∀ other, (readBody default accepted).run
        ((ServerMessage.framebufferUpdate copiedThenLast).encode.drop 1 ++ other) =
          (.ok copiedThenLast, other) := by
  intro accepted consumed
  have read : (readBody default accepted).run (7 :: consumed ++ [9]) =
      (.ok copiedThenLast, [9]) := by rfl
  exact ⟨read, (relay_exact read).2.2.2⟩

end FramebufferUpdate

end RemoteFramebuffer
