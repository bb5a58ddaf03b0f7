/-
# `RemoteFramebuffer.Proofs.Recording.Reopening` — whether a recording of a session can be opened

A session takes its desktop from what a server says, and a recording of it starts with that desktop
written out again.  The format passes, for it was checked when it was read and is stated as it was.
The name may not: it came as bytes of no declared charset, and each byte that spells nothing is
three bytes of U+FFFD once the name is text.

    said by the server        raw                         at most 65536 bytes, or no session
    known to the session      Text.decode raw
    written in the header     ofString (Text.decode raw)  up to three times as many
    read from the header      refused beyond 65536 bytes

So a header reads back as it was written just if the name as text still fits (`reopens`).
-/
import RemoteFramebuffer.Proofs.Handshake.Exchange
import RemoteFramebuffer.Proofs.Recording.Replay

namespace RemoteFramebuffer

open Reader

/-! ## What a server says of its desktop -/

/-- A name is read exactly where some bytes and their number stand. -/
theorem Name.run_read_ok {name : String} {input rest : Bytes} :
    Name.read.run input = (.ok name, rest) ↔
      ∃ raw, raw.length ≤ maxStringLength ∧ name = Text.decode raw ∧
        input = Bytes.ofNat 4 raw.length ++ raw ++ rest := by
  simp only [Name.read, run_bind_ok, run_u32_ok, run_vecLimited_ok, run_pure]
  constructor
  · rintro ⟨length, _, rfl, raw, _, ⟨few, same, rfl⟩, done⟩
    cases done
    refine ⟨raw, same ▸ few, rfl, ?_⟩
    rw [same, List.append_assoc]
    rfl
  · rintro ⟨raw, few, rfl, rfl⟩
    obtain ⟨length, eq, -, same⟩ := Bytes.exists_word raw.length
    have same := same (Nat.lt_of_le_of_lt few (by decide))
    refine ⟨length, raw ++ rest, by rw [eq, List.append_assoc], raw, rest, ?_, rfl⟩
    exact ⟨same ▸ few, same.symm, rfl⟩

theorem Name.run_read_long {name : String} {n : Nat} (length : (Bytes.ofString name).length = n)
    (long : maxStringLength < n) (word : n < 0x100000000) (rest : Bytes) :
    (Name.read.run (Name.encode name ++ rest)).1 = .error (.lengthLimit n maxStringLength) := by
  subst length
  obtain ⟨length, eq, -, same⟩ := Bytes.exists_word (Bytes.ofString name).length
  rw [Name.encode, eq, List.append_assoc, Name.read, (takes_u32 length).run_bind, vecLimited,
    same word, if_pos long]
  rfl

theorem PixelFormat.rgb888_plain : rgb888.Plain := ⟨by rfl, by decide, by decide⟩

/-- What a server says of its desktop, the name being any bytes. -/
def Desktop.told (width height : UInt16) (format : PixelFormat) (raw : Bytes) : Bytes :=
  Bytes.ofUInt16 width ++ (Bytes.ofUInt16 height ++
    (format.encode ++ (Bytes.ofNat 4 raw.length ++ raw)))

/-- What is known of a desktop from what was said of it: the format is one that can be stated
again, and the name is what some bytes of what was said spell. -/
structure Desktop.ToldIn (input : Bytes) (d : Desktop) (raw : Bytes) : Prop where
  format : d.format.Plain
  few : raw.length ≤ maxStringLength
  said : Bytes.ofNat 4 raw.length ++ raw <:+: input
  name : d.name = Text.decode raw

namespace Desktop

variable {input rest : Bytes} {d : Desktop}

theorem toldIn_read (h : read.run input = (.ok d, rest)) : ∃ raw, d.ToldIn input raw := by
  simp only [read, run_bind_ok, run_u16_ok, PixelFormat.run_read_ok, Name.run_read_ok,
    run_pure] at h
  obtain ⟨width, _, rfl, height, mid, rfl, format, left, ⟨plain, stand⟩, name, _,
    ⟨raw, few, rfl, rfl⟩, done⟩ := h
  cases done
  refine ⟨raw, plain, few, ?_, rfl⟩
  obtain ⟨spelled, rfl, -⟩ := Part.stand_iff.mp stand
  refine ⟨Bytes.ofUInt16 width ++ Bytes.ofUInt16 height ++ spelled, rest, ?_⟩
  simp only [List.append_assoc]

theorem toldIn_readAten (h : readAten.run input = (.ok d, rest)) : ∃ raw, d.ToldIn input raw := by
  simp only [readAten, run_bind_ok, run_skip_ok, Name.run_read_ok, run_pure] at h
  obtain ⟨_, size, ⟨-, rfl⟩, _, named, ⟨-, dropped⟩, name, left, ⟨raw, few, rfl, rfl⟩, _, _, -,
    done⟩ := h
  cases done
  refine ⟨raw, ?_, few, ?_, rfl⟩
  · exact ⟨by rfl, UInt8.zero_le, UInt8.le_refl 1⟩
  · have inside : Bytes.ofNat 4 raw.length ++ raw <:+: (input.drop 4).drop 16 :=
      ⟨[], left, by rw [List.nil_append, dropped]⟩
    exact inside.trans ((List.drop_suffix _ _).isInfix.trans (List.drop_suffix _ _).isInfix)

/-- A desktop of a format and a name that a server may have is understood. -/
theorem run_told {nonce raw : Bytes} {width height : UInt16} {format : PixelFormat}
    (plain : format.Plain) (few : raw.length ≤ maxStringLength) :
    (Handshake.clientServerInit false).run nonce ⟨told width height format raw, [], []⟩ =
      (.ok ⟨Text.decode raw, width, height, format⟩, ⟨[], [], []⟩) := by
  have named : Name.read.run (Bytes.ofNat 4 raw.length ++ raw) = (.ok (Text.decode raw), []) :=
    Name.run_read_ok.mpr ⟨raw, few, rfl, (List.append_nil _).symm⟩
  have read : read.run (told width height format raw) =
      (.ok ⟨Text.decode raw, width, height, format⟩, []) := by
    simp only [read, told, run_bind_ok, run_u16_ok, run_pure]
    exact ⟨width, _, rfl, height, _, rfl, format, _, PixelFormat.takes_read plain _, _, [], named,
      rfl⟩
  show (Exchange.read Desktop.read).run nonce _ = _
  rw [Exchange.run_read, read]
  rfl

theorem toldIn_clientServerInit {nonce : Bytes} {aten : Bool} {after : Dialogue}
    (h : (Handshake.clientServerInit aten).run nonce ⟨input, [], []⟩ = (.ok d, after)) :
    ∃ raw, d.ToldIn input raw := by
  rw [Handshake.clientServerInit, Exchange.run_read] at h
  generalize outcome : (if aten then readAten else read).run input = result at h
  obtain ⟨_ | found, left⟩ := result
  · cases h
  · cases h
    cases aten with
    | false => exact toldIn_read outcome
    | true => exact toldIn_readAten outcome

end Desktop

/-! ## The header -/

namespace RecordingHeader

variable {h : RecordingHeader}

theorem run_read_long {n : Nat} (plain : h.desktop.format.Plain)
    (length : (Bytes.ofString h.desktop.name).length = n) (long : maxStringLength < n)
    (word : n < 0x100000000) (rest : Bytes) :
    (read.run (h.encode ++ rest)).1 = .error (.transport (.lengthLimit n maxStringLength)) := by
  have mark : (bytes magic.length).Takes magic magic := takes_bytes rfl
  have version := takes_bytes h.version.length_bytes
  have security : i32.Takes (Bytes.ofInt32 h.securityType) h.securityType :=
    fun _ => run_i32_ok.mpr rfl
  have width : u16.Takes (Bytes.ofUInt16 h.desktop.width) h.desktop.width :=
    fun _ => run_u16_ok.mpr rfl
  have height : u16.Takes (Bytes.ofUInt16 h.desktop.height) h.desktop.height :=
    fun _ => run_u16_ok.mpr rfl
  have format := PixelFormat.takes_read plain
  have refused := Name.run_read_long length long word rest
  have desktop : (Desktop.read.run (h.desktop.encode ++ rest)).1 =
      .error (.lengthLimit n maxStringLength) := by
    rw [Desktop.read, Desktop.encode, List.append_assoc, List.append_assoc, List.append_assoc,
      width.run_bind, height.run_bind, format.run_bind, run_bind]
    generalize Name.read.run (Name.encode h.desktop.name ++ rest) = outcome at refused ⊢
    obtain ⟨_, left⟩ := outcome
    subst refused
    rfl
  rw [read, encode, List.append_assoc, List.append_assoc, List.append_assoc,
    (mark.mapError _).run_bind, if_neg (not_not_intro rfl), (version.mapError _).run_bind,
    Version.parse_bytes]
  rw [(security.mapError _).run_bind, run_bind, run_mapError]
  generalize Desktop.read.run (h.desktop.encode ++ rest) = outcome at desktop ⊢
  obtain ⟨_, left⟩ := outcome
  subst desktop
  rfl

/-- **What a recording of a session is reopened as.**  Of whatever server a session has learnt its
desktop, its version being any, the header of a recording of it reads back as it was written just
if the name, as text, takes no more bytes than a name may; and otherwise it is refused for that.
The name came in no more bytes than a name may, and as text takes at most three times as many, so
no name of a third of the limit is refused, and none that was said in UTF-8. -/
theorem reopens {nonce input : Bytes} {aten : Bool} {desktop : Desktop} {after : Dialogue}
    (accepted : (Handshake.clientServerInit aten).run nonce ⟨input, [], []⟩ = (.ok desktop, after))
    (s : SessionState) (rest : Bytes) :
    let h := ofState (s.setDesktop desktop)
    (read.run (h.encode ++ rest) = (.ok h, rest) ↔
      (Bytes.ofString desktop.name).length ≤ maxStringLength) ∧
    (maxStringLength < (Bytes.ofString desktop.name).length →
      (read.run (h.encode ++ rest)).1 =
        .error (.transport
          (.lengthLimit (Bytes.ofString desktop.name).length maxStringLength))) ∧
    ∃ raw, raw.length ≤ maxStringLength ∧ Bytes.ofNat 4 raw.length ++ raw <:+: input ∧
      desktop.name = Text.decode raw ∧ (Bytes.ofString desktop.name).length ≤ 3 * raw.length ∧
      ∀ text, raw = Bytes.ofString text → (Bytes.ofString desktop.name).length = raw.length := by
  intro h
  obtain ⟨raw, plain, few, said, name⟩ := Desktop.toldIn_clientServerInit accepted
  have stretched : (Bytes.ofString desktop.name).length ≤ 3 * raw.length := by
    rw [name]
    exact Text.length_ofString_decode_le raw
  have word : (Bytes.ofString desktop.name).length < 0x100000000 :=
    Nat.lt_of_le_of_lt stretched (Nat.lt_of_le_of_lt (Nat.mul_le_mul_left 3 few) (by decide))
  have refused (long : maxStringLength < (Bytes.ofString desktop.name).length) :=
    run_read_long (h := h) plain rfl long word rest
  refine ⟨⟨fun opened => ?_, fun fits => ?_⟩, refused, raw, few, said, name, stretched, ?_⟩
  · refine Nat.le_of_not_lt fun long => ?_
    have failed := refused long
    rw [opened] at failed
    cases failed
  · exact takes_read ⟨fits, plain⟩ rest
  · rintro text rfl
    rw [name, Text.decode_ofString]

/-- A server whose desktop of one pixel is named by one byte that spells nothing: the recording
tells of U+FFFD, and is reopened. -/
theorem reopens_oneByte :
    let desktop : Desktop := ⟨Text.decode [0xFF], 1, 1, PixelFormat.rgb888⟩
    let h := ofState ((SessionState.make .client .v38 .none EncodingSet.all).setDesktop desktop)
    (Handshake.clientServerInit false).run [] ⟨Desktop.told 1 1 PixelFormat.rgb888 [0xFF], [], []⟩ =
        (.ok desktop, ⟨[], [], []⟩) ∧
      read.run (h.encode ++ []) = (.ok h, []) := by
  intro desktop h
  have accepted : (Handshake.clientServerInit false).run []
      ⟨Desktop.told 1 1 PixelFormat.rgb888 [0xFF], [], []⟩ = (.ok desktop, ⟨[], [], []⟩) :=
    Desktop.run_told PixelFormat.rgb888_plain (by decide)
  refine ⟨accepted, (reopens accepted _ []).1.mpr ?_⟩
  exact Nat.le_trans (Text.length_ofString_decode_le [0xFF]) (by decide)

/-- A server names its desktop in 21846 bytes that spell nothing, a third of what it may.  The
session begins, and a recording of it is never opened again. -/
theorem stretched_name_refused :
    ∃ desktop, (Handshake.clientServerInit false).run []
        ⟨Desktop.told 1 1 PixelFormat.rgb888 (List.replicate 21846 0xFF), [], []⟩ =
        (.ok desktop, ⟨[], [], []⟩) ∧
      (read.run (ofState ((SessionState.make .client .v38 .none EncodingSet.all).setDesktop
        desktop)).encode).1 = .error (.transport (.lengthLimit 65538 65536)) := by
  have few : (List.replicate 21846 (0xFF : UInt8)).length = 21846 := List.length_replicate
  have long := Text.length_ofString_nothing 21846
  generalize List.replicate 21846 (0xFF : UInt8) = raw at few long ⊢
  refine ⟨_, Desktop.run_told PixelFormat.rgb888_plain (by rw [few]; decide), ?_⟩
  rw [← List.append_nil (encode _)]
  exact run_read_long PixelFormat.rgb888_plain long (by decide) (by decide) []

end RecordingHeader

end RemoteFramebuffer
