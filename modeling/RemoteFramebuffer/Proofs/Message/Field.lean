/-
# `RemoteFramebuffer.Proofs.Message.Field` — the parts of messages, read where they are written

What has no padding and no flags is read exactly where it is written.  The rest can be spelled in
more ways than the one in which it is written: a message is a list of parts, and `Stand` says that
these parts stand at the front of a stream, however they are spelled.
-/
import RemoteFramebuffer.Message.Field
import RemoteFramebuffer.Proofs.Wire.Reader

namespace RemoteFramebuffer

open Reader

/-! ## Parts -/

/-- A part of a message: bytes with a meaning, bytes with none, or a flag of some width. -/
inductive Part
  | content (bytes : Bytes)
  | padding (width : Nat)
  | flag {width : Nat} (positive : 0 < width) (set : Bool)

namespace Part

def written : Part → Bytes
  | .content bytes => bytes
  | .padding width => Bytes.zeros width
  | @flag width _ set => Bytes.ofNat width (if set then 1 else 0)

/-- The bytes that are read as the part: padding may be any, and so may a flag that is set, but
for zero. -/
def Spelled : Part → Bytes → Prop
  | .content bytes, used => used = bytes
  | .padding width, used => used.length = width
  | @flag width _ set, used => used.length = width ∧ (set = true ↔ used ≠ Bytes.zeros width)

def Spells : List Part → Bytes → Prop
  | [], used => used = []
  | part :: parts, used => ∃ bytes more, used = bytes ++ more ∧ part.Spelled bytes ∧
      Spells parts more

/-- The part stands at the front of the input, before the rest. -/
def At (part : Part) (input rest : Bytes) : Prop :=
  ∃ bytes, part.Spelled bytes ∧ input = bytes ++ rest

/-- These parts stand at the front of the input, before the rest. -/
def Stand : List Part → (input rest : Bytes) → Prop
  | [], input, rest => input = rest
  | part :: parts, input, rest => ∃ mid, part.At input mid ∧ Stand parts mid rest

theorem at_content {bytes input rest : Bytes} :
    (content bytes).At input rest ↔ input = bytes ++ rest := by
  constructor
  · rintro ⟨_, rfl, rfl⟩
    rfl
  · rintro rfl
    exact ⟨bytes, rfl, rfl⟩

theorem stand_iff {parts : List Part} {input rest : Bytes} :
    Stand parts input rest ↔ ∃ used, input = used ++ rest ∧ Spells parts used := by
  induction parts generalizing input with
  | nil =>
      constructor
      · rintro rfl
        exact ⟨[], rfl, rfl⟩
      · rintro ⟨_, rfl, rfl⟩
        rfl
  | cons part parts ih =>
      constructor
      · rintro ⟨_, ⟨bytes, spelled, rfl⟩, others⟩
        obtain ⟨used, rfl, spells⟩ := ih.mp others
        exact ⟨bytes ++ used, by simp, bytes, used, rfl, spelled, spells⟩
      · rintro ⟨_, rfl, bytes, more, rfl, spelled, spells⟩
        exact ⟨more ++ rest, ⟨bytes, spelled, by simp⟩, ih.mpr ⟨more, rfl, spells⟩⟩

theorem stand_append {parts parts' : List Part} {input rest : Bytes} :
    Stand (parts ++ parts') input rest ↔
      ∃ mid, Stand parts input mid ∧ Stand parts' mid rest := by
  induction parts generalizing input with
  | nil =>
      constructor
      · intro h
        exact ⟨input, rfl, h⟩
      · rintro ⟨_, rfl, h⟩
        exact h
  | cons part parts ih =>
      constructor
      · rintro ⟨mid, first, others⟩
        obtain ⟨mid', h, h'⟩ := ih.mp others
        exact ⟨mid', ⟨mid, first, h⟩, h'⟩
      · rintro ⟨mid', ⟨mid, first, h⟩, h'⟩
        exact ⟨mid, first, ih.mpr ⟨mid', h, h'⟩⟩

theorem Stand.append_right {parts : List Part} {input rest : Bytes} (h : Stand parts input rest)
    (more : Bytes) : Stand parts (input ++ more) (rest ++ more) := by
  obtain ⟨used, rfl, spells⟩ := stand_iff.mp h
  exact stand_iff.mpr ⟨used, List.append_assoc _ _ _, spells⟩

theorem length_spelled {part : Part} {used : Bytes} (h : part.Spelled used) :
    used.length = part.written.length := by
  cases part with
  | content bytes => exact congrArg List.length h
  | padding width => exact h.trans List.length_replicate.symm
  | flag positive set => exact h.1.trans (Bytes.length_ofNat _ _).symm

/-- However they are spelled, parts take as many bytes as they are written in. -/
theorem length_spells {parts : List Part} {used : Bytes} (h : Spells parts used) :
    used.length = (parts.flatMap written).length := by
  induction parts generalizing used with
  | nil => exact congrArg List.length h
  | cons part parts ih =>
      obtain ⟨bytes, more, rfl, spelled, spells⟩ := h
      rw [List.flatMap_cons, List.length_append, List.length_append, length_spelled spelled,
        ih spells]

theorem spelled_written (part : Part) : part.Spelled part.written := by
  cases part with
  | content bytes => rfl
  | padding width => exact List.length_replicate
  | @flag width positive set =>
      have one : 1 < Nat.pow 256 width := Nat.one_lt_pow (Nat.ne_of_gt positive) (by decide)
      refine ⟨Bytes.length_ofNat _ _, ?_⟩
      cases set with
      | true =>
          have nonzero : Bytes.ofNat width 1 ≠ Bytes.zeros width := fun zero =>
            Nat.one_ne_zero ((Bytes.ofNat_eq_zeros one).mp zero)
          exact ⟨fun _ => nonzero, fun _ => rfl⟩
      | false =>
          have zero : Bytes.ofNat width 0 = Bytes.zeros width := Bytes.ofNat_zero width
          exact ⟨nofun, fun nonzero => absurd zero nonzero⟩

theorem spells_written (parts : List Part) : Spells parts (parts.flatMap written) := by
  induction parts with
  | nil => rfl
  | cons part parts ih => exact ⟨_, _, rfl, part.spelled_written, ih⟩

theorem stand_written (parts : List Part) (rest : Bytes) :
    Stand parts (parts.flatMap written ++ rest) rest :=
  stand_iff.mpr ⟨_, rfl, spells_written parts⟩

end Part

/-! ## Padding and flags -/

section

variable {input rest : Bytes} {set : Bool}

theorem Reader.run_skip_part {count : Nat} {a : Unit} :
    (skip count).run input = (.ok a, rest) ↔
      (Part.padding count).At input rest := by
  rw [run_skip_ok]
  constructor
  · rintro ⟨enough, rfl⟩
    exact ⟨input.take count, List.length_take_of_le enough, (List.take_append_drop _ _).symm⟩
  · rintro ⟨bytes, rfl, rfl⟩
    exact ⟨by simp, List.drop_left.symm⟩

theorem Reader.run_flag_part :
    flag.run input = (.ok set, rest) ↔ (Part.flag Nat.one_pos set).At input rest := by
  simp only [flag, run_map_ok, run_u8_ok]
  constructor
  · rintro ⟨b, rfl, rfl⟩
    exact ⟨[b], ⟨rfl, by simp [Bytes.zeros]⟩, rfl⟩
  · rintro ⟨bytes, ⟨one, nonzero⟩, rfl⟩
    obtain ⟨b, rfl⟩ := List.length_eq_one_iff.mp one
    refine ⟨b, rfl, ?_⟩
    rw [Bool.eq_iff_iff, nonzero]
    simp [Bytes.zeros]

theorem wide_flag_iff :
    (∃ w : UInt16, (w != 0) = set ∧ input = Bytes.ofUInt16 w ++ rest) ↔
      (Part.flag Nat.two_pos set).At input rest := by
  have zero (w : UInt16) : Bytes.ofUInt16 w = Bytes.zeros 2 ↔ w = 0 := by
    rw [Bytes.ofUInt16, Bytes.ofNat_eq_zeros w.toNat_lt]
    exact UInt16.toNat_inj (b := 0)
  constructor
  · rintro ⟨w, rfl, rfl⟩
    exact ⟨Bytes.ofUInt16 w, ⟨Bytes.length_ofNat 2 _, by simp [zero]⟩, rfl⟩
  · rintro ⟨bytes, ⟨two, nonzero⟩, rfl⟩
    refine ⟨UInt16.ofNat bytes.toNat, ?_, by rw [Bytes.ofUInt16_toNat two]⟩
    rw [Bool.eq_iff_iff, nonzero, bne_iff_ne, ne_eq, ne_eq, ← zero, Bytes.ofUInt16_toNat two]

end

/-! ## Fields -/

theorem Area.run_read_ok {input rest : Bytes} {a : Area} :
    Area.read.run input = (.ok a, rest) ↔ input = a.encode ++ rest := by
  simp only [Area.read, run_bind_ok, run_u16_ok, run_pure, Prod.mk.injEq, Except.ok.injEq]
  constructor
  · rintro ⟨x, _, rfl, y, _, rfl, w, _, rfl, h, _, rfl, rfl, rfl⟩
    simp [Area.encode]
  · rintro rfl
    exact ⟨a.x, _, by simp [Area.encode], a.y, _, rfl, a.width, _, rfl, a.height, _, rfl, rfl, rfl⟩

theorem RectHeader.run_read_ok {input rest : Bytes} {h : RectHeader} :
    RectHeader.read.run input = (.ok h, rest) ↔ input = h.encode ++ rest := by
  simp only [RectHeader.read, run_bind_ok, Area.run_read_ok, run_i32_ok, run_pure, Prod.mk.injEq,
    Except.ok.injEq]
  constructor
  · rintro ⟨a, _, rfl, e, _, rfl, rfl, rfl⟩
    simp [RectHeader.encode]
  · rintro rfl
    exact ⟨h.area, _, by simp [RectHeader.encode], h.encoding, _, rfl, rfl, rfl⟩

theorem Color.run_read_ok {input rest : Bytes} {c : Color} :
    Color.read.run input = (.ok c, rest) ↔ input = c.encode ++ rest := by
  simp only [Color.read, run_bind_ok, run_u16_ok, run_pure, Prod.mk.injEq, Except.ok.injEq]
  constructor
  · rintro ⟨red, _, rfl, green, _, rfl, blue, _, rfl, rfl, rfl⟩
    simp [Color.encode]
  · rintro rfl
    exact ⟨c.red, _, by simp [Color.encode], c.green, _, rfl, c.blue, _, rfl, rfl, rfl⟩

theorem Screen.run_read_ok {input rest : Bytes} {s : Screen} :
    Screen.read.run input = (.ok s, rest) ↔ input = s.encode ++ rest := by
  simp only [Screen.read, run_bind_ok, run_u32_ok, Area.run_read_ok, run_pure, Prod.mk.injEq,
    Except.ok.injEq]
  constructor
  · rintro ⟨id, _, rfl, area, _, rfl, flags, _, rfl, rfl, rfl⟩
    simp [Screen.encode]
  · rintro rfl
    exact ⟨s.id, _, by simp [Screen.encode], s.area, _, rfl, s.flags, _, rfl, rfl, rfl⟩

/-! ## Fields with padding and flags -/

namespace PixelFormat

/-- A format that is valid and states its flags as they are written. -/
def Plain (pf : PixelFormat) : Prop :=
  pf.validate = .ok () ∧ pf.bigEndian ≤ 1 ∧ pf.trueColor ≤ 1

def parts (pf : PixelFormat) : List Part :=
  [.content [pf.bitsPerPixel], .content [pf.depth], .flag Nat.one_pos pf.isBigEndian,
    .flag Nat.one_pos pf.isTrueColor, .content (Bytes.ofUInt16 pf.red.max),
    .content (Bytes.ofUInt16 pf.green.max), .content (Bytes.ofUInt16 pf.blue.max),
    .content [pf.red.shift], .content [pf.green.shift], .content [pf.blue.shift], .padding 3]

def flagByte (set : Bool) : UInt8 := if set then 1 else 0

theorem flagByte_le_one (set : Bool) : flagByte set ≤ 1 := by
  cases set <;> decide

theorem flagByte_ne_zero (set : Bool) : (flagByte set != 0) = set := by
  cases set <;> rfl

theorem byte_of_flag {b : UInt8} (plain : b ≤ 1) : flagByte (b != 0) = b := by
  have small : b.toNat ≤ 1 := UInt8.le_iff_toNat_le.mp plain
  obtain zero | one : b.toNat = 0 ∨ b.toNat = 1 := by omega
  · obtain rfl : b = 0 := UInt8.toNat_inj.mp zero
    rfl
  · obtain rfl : b = 1 := UInt8.toNat_inj.mp one
    rfl

theorem written_flag {b : UInt8} (plain : b ≤ 1) :
    (Part.flag Nat.one_pos (b != 0)).written = [b] := by
  conv => rhs; rw [← byte_of_flag plain]
  cases b != 0
  · rfl
  · rfl

theorem encode_eq {pf : PixelFormat} (plain : pf.Plain) :
    pf.encode = pf.parts.flatMap Part.written := by
  obtain ⟨-, bigEndian, trueColor⟩ := plain
  simp only [encode, parts, List.flatMap_cons, List.flatMap_nil, isBigEndian, isTrueColor,
    written_flag bigEndian, written_flag trueColor]
  simp [Part.written]

/-- The format with its flags as they are written, which is how it is read. -/
def stated (pf : PixelFormat) : PixelFormat :=
  { pf with bigEndian := flagByte pf.isBigEndian, trueColor := flagByte pf.isTrueColor }

theorem stated_eq {pf : PixelFormat} (bigEndian : pf.bigEndian ≤ 1) (trueColor : pf.trueColor ≤ 1) :
    pf.stated = pf := by
  have big : flagByte pf.isBigEndian = pf.bigEndian := byte_of_flag bigEndian
  have colored : flagByte pf.isTrueColor = pf.trueColor := byte_of_flag trueColor
  rw [stated, big, colored]

theorem isBigEndian_stated (pf : PixelFormat) : pf.stated.isBigEndian = pf.isBigEndian :=
  flagByte_ne_zero _

theorem isTrueColor_stated (pf : PixelFormat) : pf.stated.isTrueColor = pf.isTrueColor :=
  flagByte_ne_zero _

theorem plain_stated {pf : PixelFormat} (valid : pf.validate = .ok ()) : pf.stated.Plain := by
  refine ⟨?_, flagByte_le_one _, flagByte_le_one _⟩
  rw [← valid, validate, isTrueColor_stated]
  rfl

theorem stand_encode (pf : PixelFormat) (rest : Bytes) :
    Part.Stand pf.stated.parts (pf.encode ++ rest) rest := by
  have flag (b : UInt8) (more : Bytes) : (Part.flag Nat.one_pos (b != 0)).At (b :: more) more :=
    run_flag_part.mp (run_map_ok.mpr ⟨b, run_u8_ok.mpr rfl, rfl⟩)
  simp only [parts, Part.Stand, Part.at_content, isBigEndian_stated, isTrueColor_stated, encode,
    List.append_assoc, List.cons_append, List.nil_append]
  exact ⟨_, rfl, _, rfl, _, flag _ _, _, flag _ _, _, rfl, _, rfl, _, rfl, _, rfl, _, rfl, _, rfl,
    _, ⟨Bytes.zeros 3, rfl, rfl⟩, rfl⟩

theorem run_read_ok {input rest : Bytes} {pf : PixelFormat} :
    read.run input = (.ok pf, rest) ↔ pf.Plain ∧ Part.Stand pf.parts input rest := by
  simp only [read, run_bind_ok, run_u8_ok, run_u16_ok, run_flag_part, run_skip_part, parts,
    Part.Stand, Part.at_content]
  constructor
  · rintro ⟨bits, _, rfl, depth, _, rfl, bigEndian, _, big, trueColor, _, colored, redMax, _, rfl,
      greenMax, _, rfl, blueMax, _, rfl, redShift, _, rfl, greenShift, _, rfl, blueShift, _, rfl,
      _, _, pad, h⟩
    split at h
    · rename_i valid
      cases h
      simp only [isBigEndian, isTrueColor, ← flagByte.eq_def, flagByte_ne_zero]
      exact ⟨⟨valid, flagByte_le_one _, flagByte_le_one _⟩, _, rfl, _, rfl, _, big, _, colored, _,
        rfl, _, rfl, _, rfl, _, rfl, _, rfl, _, rfl, _, pad, rfl⟩
    · cases h
  · rintro ⟨⟨valid, bigEndian, trueColor⟩, _, rfl, _, rfl, _, big, _, colored, _, rfl, _, rfl, _,
      rfl, _, rfl, _, rfl, _, rfl, _, pad, rfl⟩
    refine ⟨_, _, rfl, _, _, rfl, _, _, big, _, _, colored, _, _, rfl, _, _, rfl, _, _, rfl, _, _,
      rfl, _, _, rfl, _, _, rfl, (), _, pad, ?_⟩
    have bigEndian : (if pf.isBigEndian then 1 else 0) = pf.bigEndian := byte_of_flag bigEndian
    have trueColor : (if pf.isTrueColor then 1 else 0) = pf.trueColor := byte_of_flag trueColor
    rw [bigEndian, trueColor]
    split
    · rfl
    · rename_i refused
      cases valid.symm.trans refused

end PixelFormat

namespace CutText

def parts (text : Bytes) : List Part :=
  [.padding 3, .content (Bytes.ofNat 4 text.length), .content text]

theorem encode_eq (text : Bytes) : encode text = (parts text).flatMap Part.written := by
  simp [encode, parts, Part.written]

theorem run_read_ok {input rest text : Bytes} :
    read.run input = (.ok text, rest) ↔
      text.length ≤ maxCutTextLength ∧ Part.Stand (parts text) input rest := by
  simp only [read, run_bind_ok, run_skip_part, run_u32_ok, run_vecLimited_ok, parts, Part.Stand,
    Part.at_content]
  constructor
  · rintro ⟨_, _, pad, length, _, rfl, few, same, rfl⟩
    exact ⟨same ▸ few, _, pad, _, by rw [same]; rfl, rest, rfl, rfl⟩
  · rintro ⟨few, _, pad, _, rfl, _, rfl, rfl⟩
    obtain ⟨length, eq, -, same⟩ := Bytes.exists_word text.length
    have same := same (Nat.lt_of_le_of_lt few (by decide))
    exact ⟨(), _, pad, length, _, by rw [eq], same ▸ few, same.symm, rfl⟩

end CutText

namespace Fence

def parts (f : Fence) : List Part :=
  [.padding 3, .content (Bytes.ofUInt32 f.flags), .content (Bytes.ofNat 1 f.payload.length),
    .content f.payload]

theorem encode_eq (f : Fence) : f.encode = f.parts.flatMap Part.written := by
  simp [encode, parts, Part.written]

theorem run_read_ok {input rest : Bytes} {f : Fence} :
    read.run input = (.ok f, rest) ↔
      f.payload.length ≤ maxPayload ∧ Part.Stand f.parts input rest := by
  simp only [read, run_bind_ok, run_skip_part, run_u32_ok, run_u8_ok, parts, Part.Stand,
    Part.at_content]
  constructor
  · rintro ⟨_, _, pad, flags, _, rfl, length, _, rfl, h⟩
    split at h
    · cases h
    · rename_i few
      obtain ⟨payload, _, read, done⟩ := run_bind_ok.mp h
      obtain ⟨same, rfl⟩ := run_vec_ok.mp read
      cases done
      refine ⟨same ▸ Nat.le_of_not_lt few, _, pad, _, rfl, _, ?_, rest, rfl, rfl⟩
      rw [same, Bytes.ofNat_one_toNat]
      rfl
  · rintro ⟨few, _, pad, _, rfl, _, rfl, _, rfl, rfl⟩
    obtain ⟨length, eq, same⟩ := Bytes.exists_byte (Nat.lt_of_le_of_lt few (by decide))
    refine ⟨(), _, pad, f.flags, _, rfl, length, _, by rw [eq]; rfl, ?_⟩
    rw [same, if_neg (Nat.not_lt_of_le few), run_bind_ok]
    exact ⟨f.payload, _, run_vec_ok.mpr ⟨rfl, rfl⟩, rfl⟩

end Fence

/-! ## Text -/

theorem Name.takes_read {name : String} (few : (Bytes.ofString name).length ≤ maxStringLength) :
    Name.read.Takes (Name.encode name) (Text.decode (Bytes.ofString name)) := by
  obtain ⟨length, eq, -, same⟩ := Bytes.exists_word (Bytes.ofString name).length
  have same := same (Nat.lt_of_le_of_lt few (by decide))
  rw [Name.encode, eq]
  refine (takes_u32 length).bind ?_
  rw [same]
  exact (takes_vecLimited rfl few).map _

end RemoteFramebuffer
