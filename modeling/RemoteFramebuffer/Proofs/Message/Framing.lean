/-
# `RemoteFramebuffer.Proofs.Message.Framing` — messages follow one another without a gap

## What is proved

Of messages of either side, of every pixel format and every set of encodings (`framing_exact`):

    messages that fit, written one after another     are read back, and what follows is left
    a message that was read from `used`              fits; what is written of it has as many bytes
                                                     and spells the same parts, and is read back

A message fits if its lengths and counts fit the words that state them (`Fits`).  What was used and
what is written can differ in padding, and in flags that are set to something else than 1.

## How it is proved

Each side's reader is described by one equivalence: it reads a message just from the ways in which
the message's parts can be spelled (`run_read_ok`).  So the messages of a stream are those that were
written to it, and a message takes as many bytes as it is written in, whoever spelled it.

An update is the one message without such a table of parts: rectangles end where their encodings say,
and that they are passed on as they came is a matter of its own.
-/
import RemoteFramebuffer.Message
import RemoteFramebuffer.Proofs.Encoding.Relay

namespace RemoteFramebuffer

open Reader

variable {input rest : Bytes}

/-! ## Messages of a client -/

namespace ClientMessage

/-- The lists and texts of the message fit their fields and are not longer than what is read; its
format is valid and states its flags as they are written. -/
def Fits : ClientMessage → Prop
  | .setPixelFormat format => format.Plain
  | .setEncodings encodings => encodings.length ≤ 65535
  | .cutText text => text.length ≤ maxCutTextLength
  | .fence body => body.payload.length ≤ Fence.maxPayload
  | .setDesktopSize _ _ screens => screens.length ≤ 255
  | _ => True

def bodyParts : ClientMessage → List Part
  | .setPixelFormat format => .padding 3 :: format.parts
  | .setEncodings encodings =>
    [.padding 1, .content (Bytes.ofNat 2 encodings.length),
      .content (encodings.flatMap Bytes.ofInt32)]
  | .framebufferUpdateRequest incremental area =>
    [.flag Nat.one_pos incremental, .content area.encode]
  | .keyEvent down key => [.flag Nat.one_pos down, .padding 2, .content (Bytes.ofUInt32 key)]
  | .pointerEvent buttons x y =>
    [.content [buttons], .content (Bytes.ofUInt16 x), .content (Bytes.ofUInt16 y)]
  | .cutText text => CutText.parts text
  | .enableContinuousUpdates enable area => [.flag Nat.one_pos enable, .content area.encode]
  | .fence body => body.parts
  | .setDesktopSize width height screens =>
    [.padding 1, .content (Bytes.ofUInt16 width), .content (Bytes.ofUInt16 height),
      .content (Bytes.ofNat 1 screens.length), .padding 1,
      .content (screens.flatMap Screen.encode)]
  | .qemuExtendedKeyEvent subType down keysym keycode =>
    [.content [subType], .flag Nat.two_pos down, .content (Bytes.ofUInt32 keysym),
      .content (Bytes.ofUInt32 keycode)]

def parts (m : ClientMessage) : List Part := .content [m.code] :: m.bodyParts

theorem encode_eq {m : ClientMessage} (fits : m.Fits) :
    m.encode = m.parts.flatMap Part.written := by
  rw [encode, parts, List.flatMap_cons]
  refine congrArg (m.code :: ·) ?_
  cases m with
  | setPixelFormat format => rw [encodeBody, PixelFormat.encode_eq fits]; rfl
  | cutText text => exact CutText.encode_eq text
  | fence body => exact body.encode_eq
  | qemuExtendedKeyEvent subType down keysym keycode =>
      cases down <;> simp [encodeBody, bodyParts, Part.written, Bytes.ofUInt16]
  | framebufferUpdateRequest down area | enableContinuousUpdates down area
  | keyEvent down key =>
      cases down <;> simp [encodeBody, bodyParts, Part.written, Bytes.ofBool, Bytes.ofNat]
  | _ => simp [encodeBody, bodyParts, Part.written]

/-- What is read of a body is fit to be written, and its parts stood there. -/
theorem stand_of_readBody? {code : UInt8} {body : Reader WireError ClientMessage}
    {m : ClientMessage} (known : readBody? code = some body)
    (h : body.run input = (.ok m, rest)) :
    m.code = code ∧ m.Fits ∧ Part.Stand m.bodyParts input rest := by
  unfold readBody? at known
  split at known <;> cases known <;>
    simp only [run_bind_ok, run_skip_part, run_flag_part, run_u8_ok, run_u16_ok, run_u32_ok,
      PixelFormat.run_read_ok, Area.run_read_ok, CutText.run_read_ok, Fence.run_read_ok,
      run_values_ok run_i32_ok, run_values_ok Screen.run_read_ok, run_pure, Prod.mk.injEq,
      Except.ok.injEq] at h
  · obtain ⟨_, _, pad, format, _, ⟨plain, stand⟩, rfl, rfl⟩ := h
    exact ⟨rfl, plain, _, pad, stand⟩
  · obtain ⟨_, _, pad, count, _, rfl, encodings, _, ⟨length, rfl⟩, rfl, rfl⟩ := h
    have few := Nat.le_of_lt_succ (length ▸ count.toNat_lt)
    refine ⟨rfl, few, ?_⟩
    simp only [bodyParts, Part.Stand, Part.at_content, length]
    exact ⟨_, pad, _, rfl, _, rfl, rfl⟩
  · obtain ⟨incremental, _, flag, area, _, rfl, rfl, rfl⟩ := h
    exact ⟨rfl, trivial, _, flag, _, Part.at_content.mpr rfl, rfl⟩
  · obtain ⟨down, _, flag, _, _, pad, key, _, rfl, rfl, rfl⟩ := h
    exact ⟨rfl, trivial, _, flag, _, pad, _, Part.at_content.mpr rfl, rfl⟩
  · obtain ⟨buttons, _, rfl, x, _, rfl, y, _, rfl, rfl, rfl⟩ := h
    simp only [bodyParts, Part.Stand, Part.at_content]
    exact ⟨rfl, trivial, _, rfl, _, rfl, _, rfl, rfl⟩
  · obtain ⟨text, _, ⟨few, stand⟩, rfl, rfl⟩ := h
    exact ⟨rfl, few, stand⟩
  · obtain ⟨enable, _, flag, area, _, rfl, rfl, rfl⟩ := h
    exact ⟨rfl, trivial, _, flag, _, Part.at_content.mpr rfl, rfl⟩
  · obtain ⟨body, _, ⟨few, stand⟩, rfl, rfl⟩ := h
    exact ⟨rfl, few, stand⟩
  · obtain ⟨_, _, pad, width, _, rfl, height, _, rfl, count, _, rfl, _, _, pad', screens, _,
      ⟨length, rfl⟩, rfl, rfl⟩ := h
    have few := Nat.le_of_lt_succ (length ▸ count.toNat_lt)
    refine ⟨rfl, few, ?_⟩
    simp only [bodyParts, Part.Stand, Part.at_content, length, Bytes.ofNat_one_toNat]
    exact ⟨_, pad, _, rfl, _, rfl, _, rfl, _, pad', _, rfl, rfl⟩
  · obtain ⟨subType, _, rfl, down, _, rfl, keysym, _, rfl, keycode, _, rfl, rfl, rfl⟩ := h
    simp only [bodyParts, Part.Stand, Part.at_content]
    exact ⟨rfl, trivial, _, rfl, _, wide_flag_iff.mp ⟨down, rfl, rfl⟩, _, rfl, _, rfl, rfl⟩

/-- Where the parts of a body stand that is fit to be written, it is read. -/
theorem readBody?_of_stand {m : ClientMessage} (fits : m.Fits)
    (stand : Part.Stand m.bodyParts input rest) :
    ∃ body, readBody? m.code = some body ∧ body.run input = (.ok m, rest) := by
  cases m <;> refine ⟨_, rfl, ?_⟩ <;>
    simp only [bodyParts, Part.Stand, Part.at_content] at stand <;>
    simp only [run_bind_ok, run_skip_part, run_flag_part, run_u8_ok, run_u16_ok, run_u32_ok,
      PixelFormat.run_read_ok, Area.run_read_ok, CutText.run_read_ok, Fence.run_read_ok,
      run_values_ok run_i32_ok, run_values_ok Screen.run_read_ok, run_pure, Prod.mk.injEq,
      Except.ok.injEq]
  case setPixelFormat format =>
    obtain ⟨_, pad, stand⟩ := stand
    exact ⟨(), _, pad, format, _, ⟨fits, stand⟩, rfl, rfl⟩
  case setEncodings encodings =>
    obtain ⟨_, pad, _, rfl, _, rfl, rfl⟩ := stand
    obtain ⟨count, eq, same⟩ := Bytes.exists_word16 (Nat.lt_succ_of_le fits)
    exact ⟨(), _, pad, count, _, by rw [eq], encodings, _, ⟨same.symm, rfl⟩, rfl, rfl⟩
  case framebufferUpdateRequest incremental area | enableContinuousUpdates incremental area =>
    obtain ⟨_, flag, _, rfl, rfl⟩ := stand
    exact ⟨incremental, _, flag, area, _, rfl, rfl, rfl⟩
  case keyEvent down key =>
    obtain ⟨_, flag, _, pad, _, rfl, rfl⟩ := stand
    exact ⟨down, _, flag, (), _, pad, key, _, rfl, rfl, rfl⟩
  case pointerEvent buttons x y =>
    obtain ⟨_, rfl, _, rfl, _, rfl, rfl⟩ := stand
    exact ⟨buttons, _, rfl, x, _, rfl, y, _, rfl, rfl, rfl⟩
  case cutText text => exact ⟨text, _, ⟨fits, stand⟩, rfl, rfl⟩
  case fence body => exact ⟨body, _, ⟨fits, stand⟩, rfl, rfl⟩
  case setDesktopSize width height screens =>
    obtain ⟨_, pad, _, rfl, _, rfl, _, rfl, _, pad', _, rfl, rfl⟩ := stand
    obtain ⟨count, eq, same⟩ := Bytes.exists_byte (Nat.lt_succ_of_le fits)
    exact ⟨(), _, pad, width, _, rfl, height, _, rfl, count, _, by rw [eq]; rfl, (), _, pad',
      screens, _, ⟨same.symm, rfl⟩, rfl, rfl⟩
  case qemuExtendedKeyEvent subType down keysym keycode =>
    obtain ⟨_, rfl, _, flag, _, rfl, _, rfl, rfl⟩ := stand
    obtain ⟨word, rfl, rfl⟩ := wide_flag_iff.mpr flag
    exact ⟨subType, _, rfl, word, _, rfl, keysym, _, rfl, keycode, _, rfl, rfl, rfl⟩

theorem stand_of_readBody {code : UInt8} {m : ClientMessage}
    (h : (readBody code).run input = (.ok m, rest)) :
    m.code = code ∧ m.Fits ∧ Part.Stand m.bodyParts input rest := by
  unfold readBody at h
  split at h
  · rename_i known
    exact stand_of_readBody? known (run_mapError_ok.mp h)
  · cases h

/-- A message is read just where its parts stand and it is fit to be written. -/
theorem run_read_ok {m : ClientMessage} :
    read.run input = (.ok m, rest) ↔ m.Fits ∧ Part.Stand m.parts input rest := by
  simp only [read, run_bind_ok, run_mapError_ok, run_u8_ok, parts, Part.Stand, Part.at_content]
  constructor
  · rintro ⟨code, body, rfl, h⟩
    obtain ⟨rfl, fits, stand⟩ := stand_of_readBody h
    exact ⟨fits, body, rfl, stand⟩
  · rintro ⟨fits, _, rfl, stand⟩
    obtain ⟨body, known, run⟩ := readBody?_of_stand fits stand
    refine ⟨m.code, _, rfl, ?_⟩
    rw [readBody, known]
    exact run_mapError_ok.mpr run

end ClientMessage

/-! ## Messages of a server -/

namespace ServerMessage

def read (format : PixelFormat) (accepted : EncodingSet) : Reader SessionError ServerMessage := do
  let code ← Reader.u8.mapError .transport
  readBody format accepted code

/-- The lists and texts of the message fit their fields and are not longer than what is read; an
update is left out. -/
def Fits : ServerMessage → Prop
  | .framebufferUpdate _ => False
  | .setColorMapEntries _ colors => colors.length ≤ 65535
  | .cutText text => text.length ≤ maxCutTextLength
  | .fence body => body.payload.length ≤ Fence.maxPayload
  | .bell | .endOfContinuousUpdates => True

def bodyParts : ServerMessage → List Part
  | .framebufferUpdate update =>
    [.padding 1, .content (Bytes.ofUInt16 update.count),
      .content (update.rects.flatMap EncodedRect.encode)]
  | .setColorMapEntries first colors =>
    [.padding 1, .content (Bytes.ofUInt16 first), .content (Bytes.ofNat 2 colors.length),
      .content (colors.flatMap Color.encode)]
  | .cutText text => CutText.parts text
  | .fence body => body.parts
  | .bell | .endOfContinuousUpdates => []

def parts (m : ServerMessage) : List Part := .content [m.code] :: m.bodyParts

theorem encode_eq (m : ServerMessage) : m.encode = m.parts.flatMap Part.written := by
  rw [encode, parts, List.flatMap_cons]
  refine congrArg (m.code :: ·) ?_
  cases m with
  | framebufferUpdate update =>
      simp [encodeBody, FramebufferUpdate.encodeBody, bodyParts, Part.written]
  | cutText text => exact CutText.encode_eq text
  | fence body => exact body.encode_eq
  | _ => simp [encodeBody, bodyParts, Part.written]

theorem run_readColorMapEntries_ok {m : ServerMessage} :
    readColorMapEntries.run input = (.ok m, rest) ↔
      ∃ first colors, m = .setColorMapEntries first colors ∧ colors.length ≤ 65535 ∧
        Part.Stand (bodyParts (.setColorMapEntries first colors)) input rest := by
  simp only [readColorMapEntries, run_bind_ok, run_skip_part, run_u16_ok,
    run_values_ok Color.run_read_ok, run_pure, Prod.mk.injEq, Except.ok.injEq, bodyParts,
    Part.Stand, Part.at_content]
  constructor
  · rintro ⟨_, _, pad, first, _, rfl, count, _, rfl, colors, _, ⟨length, rfl⟩, rfl, rfl⟩
    refine ⟨first, colors, rfl, Nat.le_of_lt_succ (length ▸ count.toNat_lt), _, pad, _, rfl, _, ?_,
      _, rfl, rfl⟩
    rw [length]
    rfl
  · rintro ⟨first, colors, rfl, few, _, pad, _, rfl, _, rfl, _, rfl, rfl⟩
    obtain ⟨count, eq, same⟩ := Bytes.exists_word16 (Nat.lt_succ_of_le few)
    exact ⟨(), _, pad, first, _, rfl, count, _, by rw [eq], colors, _, ⟨same.symm, rfl⟩, rfl, rfl⟩

theorem code_ne_zero {m : ServerMessage} (fits : m.Fits) : m.code ≠ 0 := by
  cases m with
  | framebufferUpdate update => exact fits.elim
  | _ => simp only [code]; decide

/-- The parts of what is read of a body stood there, and if it is no update it is fit to be
written. -/
theorem stand_of_readBody {format : PixelFormat} {accepted : EncodingSet} {code : UInt8}
    {m : ServerMessage} (h : (readBody format accepted code).run input = (.ok m, rest)) :
    m.code = code ∧ (code ≠ 0 → m.Fits) ∧ Part.Stand m.bodyParts input rest := by
  unfold readBody at h
  split at h
  · obtain ⟨update, run, rfl⟩ := run_map_ok.mp h
    obtain ⟨-, -, pad, rfl⟩ := FramebufferUpdate.run_readBody_ok.mp (run_mapError_ok.mp run)
    refine ⟨rfl, fun other => absurd rfl other,
      Bytes.ofUInt16 update.count ++ update.rects.flatMap EncodedRect.encode ++ rest,
      ⟨[pad], rfl, rfl⟩, ?_⟩
    simp only [Part.Stand, Part.at_content]
    exact ⟨_, List.append_assoc _ _ _, _, rfl, rfl⟩
  · obtain ⟨first, colors, rfl, few, stand⟩ := run_readColorMapEntries_ok.mp (run_mapError_ok.mp h)
    exact ⟨rfl, fun _ => few, stand⟩
  · cases h
    exact ⟨rfl, fun _ => trivial, rfl⟩
  · obtain ⟨text, run, rfl⟩ := run_map_ok.mp h
    obtain ⟨few, stand⟩ := CutText.run_read_ok.mp (run_mapError_ok.mp run)
    exact ⟨rfl, fun _ => few, stand⟩
  · cases h
    exact ⟨rfl, fun _ => trivial, rfl⟩
  · obtain ⟨fence, run, rfl⟩ := run_map_ok.mp h
    obtain ⟨few, stand⟩ := Fence.run_read_ok.mp (run_mapError_ok.mp run)
    exact ⟨rfl, fun _ => few, stand⟩
  · cases h

/-- Any message but an update is read just where its parts stand and it is fit to be written. -/
theorem run_read_ok {format : PixelFormat} {accepted : EncodingSet} {m : ServerMessage} :
    (read format accepted).run input = (.ok m, rest) ∧ m.code ≠ 0 ↔
      m.Fits ∧ Part.Stand m.parts input rest := by
  simp only [read, run_bind_ok, run_mapError_ok, run_u8_ok, parts, Part.Stand, Part.at_content]
  constructor
  · rintro ⟨⟨code, body, rfl, h⟩, other⟩
    obtain ⟨rfl, fits, stand⟩ := stand_of_readBody h
    exact ⟨fits other, body, rfl, stand⟩
  · rintro ⟨fits, body, rfl, stand⟩
    refine ⟨⟨m.code, body, rfl, ?_⟩, code_ne_zero fits⟩
    cases m with
    | framebufferUpdate update => exact fits.elim
    | setColorMapEntries first colors =>
        exact run_mapError_ok.mpr
          (run_readColorMapEntries_ok.mpr ⟨first, colors, rfl, fits, stand⟩)
    | bell | endOfContinuousUpdates =>
        obtain rfl : body = rest := stand
        rfl
    | cutText text =>
        have run := CutText.run_read_ok.mpr ⟨fits, stand⟩
        exact run_map_ok.mpr ⟨text, run_mapError_ok.mpr run, rfl⟩
    | fence payload =>
        have run := Fence.run_read_ok.mpr ⟨fits, stand⟩
        exact run_map_ok.mpr ⟨payload, run_mapError_ok.mpr run, rfl⟩

end ServerMessage

/-! ## Streams of messages -/

/-- What is read of a message, if it is spelled with its parts. -/
structure Framed {ε α : Type} (read : Reader ε α) (encode : α → Bytes) (parts : α → List Part)
    (a : α) : Prop where
  written : encode a = (parts a).flatMap Part.written
  reads : ∀ input rest, Part.Stand (parts a) input rest → read.run input = (.ok a, rest)

namespace Framed

variable {ε α : Type} {read : Reader ε α} {encode : α → Bytes} {parts : α → List Part} {a : α}

theorem takes (framed : Framed read encode parts a) : read.Takes (encode a) a := by
  intro rest
  rw [framed.written]
  exact framed.reads _ rest (Part.stand_written _ rest)

/-- What was read of a message differs from what is written of it in padding and flags alone. -/
theorem consumed (framed : Framed read encode parts a) (stand : Part.Stand (parts a) input rest) :
    ∃ used, input = used ++ rest ∧ used.length = (encode a).length ∧
      Part.Spells (parts a) used := by
  obtain ⟨used, split, spells⟩ := Part.stand_iff.mp stand
  refine ⟨used, split, ?_, spells⟩
  rw [framed.written, Part.length_spells spells]

end Framed

theorem ClientMessage.framed {m : ClientMessage} (fits : m.Fits) :
    Framed ClientMessage.read ClientMessage.encode ClientMessage.parts m where
  written := encode_eq fits
  reads _ _ stand := run_read_ok.mpr ⟨fits, stand⟩

theorem ServerMessage.framed {format : PixelFormat} {accepted : EncodingSet} {m : ServerMessage}
    (fits : m.Fits) :
    Framed (ServerMessage.read format accepted) ServerMessage.encode ServerMessage.parts m where
  written := m.encode_eq
  reads _ _ stand := (run_read_ok.mpr ⟨fits, stand⟩).1

/-- **Messages are framed alike by their writer and their reader.**  Messages that fit are read back
from what is written of them, one after another, and what follows is left.  What is read of one
message has as many bytes as what is written of it and spells the same parts: only padding and
flags can differ, and the flags that are set are written as 1.  From what is written the same
message is read back. -/
theorem framing_exact (format : PixelFormat) (accepted : EncodingSet) :
    (∀ messages : List ClientMessage, (∀ m ∈ messages, m.Fits) → ∀ rest,
      (Reader.values ClientMessage.read messages.length).run
        (messages.flatMap ClientMessage.encode ++ rest) = (.ok messages, rest)) ∧
    (∀ messages : List ServerMessage, (∀ m ∈ messages, m.Fits) → ∀ rest,
      (Reader.values (ServerMessage.read format accepted) messages.length).run
        (messages.flatMap ServerMessage.encode ++ rest) = (.ok messages, rest)) ∧
    (∀ (input rest : Bytes) (m : ClientMessage),
      ClientMessage.read.run input = (.ok m, rest) →
        m.Fits ∧
        (∃ used, input = used ++ rest ∧ used.length = m.encode.length ∧
          Part.Spells m.parts used ∧ m.encode = m.parts.flatMap Part.written) ∧
        ∀ other, ClientMessage.read.run (m.encode ++ other) = (.ok m, other)) ∧
    ∀ (input rest : Bytes) (m : ServerMessage),
      (ServerMessage.read format accepted).run input = (.ok m, rest) → m.code ≠ 0 →
        m.Fits ∧
        (∃ used, input = used ++ rest ∧ used.length = m.encode.length ∧
          Part.Spells m.parts used ∧ m.encode = m.parts.flatMap Part.written) ∧
        ∀ other, (ServerMessage.read format accepted).run (m.encode ++ other) =
          (.ok m, other) := by
  refine ⟨fun messages fit rest => ?_, fun messages fit rest => ?_, fun input rest m run => ?_,
    fun input rest m run other => ?_⟩
  · exact Takes.values (fun m mem => (ClientMessage.framed (fit m mem)).takes) rest
  · exact Takes.values (fun m mem => (ServerMessage.framed (fit m mem)).takes) rest
  · obtain ⟨fits, stand⟩ := ClientMessage.run_read_ok.mp run
    have framed := ClientMessage.framed fits
    obtain ⟨used, split, length, spells⟩ := framed.consumed stand
    exact ⟨fits, ⟨used, split, length, spells, framed.written⟩, framed.takes⟩
  · obtain ⟨fits, stand⟩ := ServerMessage.run_read_ok.mp ⟨run, other⟩
    have framed := @ServerMessage.framed format accepted m fits
    obtain ⟨used, split, length, spells⟩ := framed.consumed stand
    exact ⟨fits, ⟨used, split, length, spells, framed.written⟩, framed.takes⟩

/-- A key that is down by a flag of 7, with padding that is not zero. -/
theorem framing_exact_oddKey :
    ClientMessage.read.run [4, 7, 9, 9, 0, 0, 0, 65, 3] = (.ok (.keyEvent true 65), [3]) ∧
      ∀ other, ClientMessage.read.run ((ClientMessage.keyEvent true 65).encode ++ other) =
        (.ok (.keyEvent true 65), other) := by
  have read : ClientMessage.read.run [4, 7, 9, 9, 0, 0, 0, 65, 3] =
      (.ok (.keyEvent true 65), [3]) := by rfl
  obtain ⟨-, -, client, -⟩ := framing_exact default (EncodingSet.ofList [])
  exact ⟨read, (client _ _ _ read).2.2⟩

end RemoteFramebuffer
